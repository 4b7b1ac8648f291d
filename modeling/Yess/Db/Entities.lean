import Yess.Foundation.Program

namespace Yess

/-!
# Exceptions and entities

The exceptions that cross the functions below, by the standard class a `catch`
clause can name, and the three entities of the store.  `std::string` is
`String`, `int` is `Int32`.
-/

/-- What SQLite, or SQLiteCpp on its behalf, reports. -/
inductive DbError where
  | noSuchTable (table : String)
  | alreadyExists (object : String)
  | raised (message : String)
  | uniqueFailed (columns : String)
  | foreignKeyFailed
  | transactionActive
  | noTransaction
  | noRow
  deriving DecidableEq, Repr

/-- The text of the report. -/
def DbError.what : DbError → String
  | noSuchTable table => "no such table: " ++ table
  | alreadyExists object => object ++ " already exists"
  | raised message => message
  | uniqueFailed columns => "UNIQUE constraint failed: " ++ columns
  | foreignKeyFailed => "FOREIGN KEY constraint failed"
  | transactionActive => "cannot start a transaction within a transaction"
  | noTransaction => "cannot commit - no transaction is active"
  | noRow =>
      "No row to get a column from. executeStep() was not called, or returned false."

/-- The C++ exceptions.  `SQLite::Exception` is a `std::runtime_error`,
`std::logic_error` is not. -/
inductive Exn where
  | runtimeError (message : String)
  | sqliteException (error : DbError)
  | logicError (message : String)
  deriving DecidableEq, Repr

/-- `std::exception::what`. -/
def Exn.what : Exn → String
  | runtimeError message => message
  | sqliteException error => error.what
  | logicError message => message

/-- Does `catch (const std::runtime_error&)` take the exception? -/
def Exn.isRuntimeError : Exn → Bool
  | runtimeError _ => true
  | sqliteException _ => true
  | logicError _ => false

namespace Db

structure Stream where
  id : Int32
  type : String
  version : Int32
  deriving DecidableEq, Repr

structure Event where
  id : Int32
  streamId : Int32
  type : String
  payload : String
  version : Int32
  deriving DecidableEq, Repr

/-- The fields stand in the order of the class, which is not the order of its
constructor's parameters. -/
structure Projection where
  id : Int32
  type : String
  data : String
  deriving DecidableEq, Repr

/-- The constructor, with its parameters in the order of the source. -/
def Projection.new (id : Int32) (data type : String) : Projection where
  id := id
  data := data
  type := type

end Db
end Yess

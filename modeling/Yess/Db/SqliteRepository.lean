import Yess.Db.Entities
import Yess.Foundation.Sql

namespace Yess
namespace Db

open Foundation

/-!
# The database behind the repositories

The tables, the connection on which statements run, and `init_db`.  A
connection carries the foreign-key switch, which is no part of the database
file, and, while a transaction is open, the contents it returns to on a
rollback.
-/

structure StreamRow where
  id : Int
  type : String
  version : Int
  deriving DecidableEq, Repr

structure EventRow where
  id : Int
  streamId : Int
  type : String
  payload : String
  version : Int
  deriving DecidableEq, Repr

structure ProjectionRow where
  id : Int
  data : String
  type : String
  deriving DecidableEq, Repr

/-- Which tables and triggers the file has. -/
structure Schema where
  streams : Bool
  events : Bool
  verValid : Bool
  projections : Bool
  deriving DecidableEq, Repr

/-- The contents of a database file; each table in rowid order. -/
structure Database where
  schema : Schema
  streams : List StreamRow
  events : List EventRow
  projections : List ProjectionRow
  deriving DecidableEq, Repr

/-- The file that opening with `OPEN_CREATE` makes. -/
def Database.empty : Database where
  schema := ⟨false, false, false, false⟩
  streams := []
  events := []
  projections := []

/-- An open connection. -/
structure Connection where
  database : Database
  foreignKeys : Bool
  rollback : Option Database
  deriving DecidableEq, Repr

/-- Functions that run statements on a connection. -/
abbrev DbProg (α : Type) : Type := Prog Exn Connection α

/-- A statement that fails changes nothing. -/
def fail {α : Type} (error : DbError) : DbProg α :=
  Prog.throw (.sqliteException error)

/-- Change the contents of the database. -/
def update (f : Database → Database) : DbProg Unit :=
  Prog.modify fun c => { c with database := f c.database }

/-- Preparing a statement fails when its table is missing. -/
def requireTable (present : Schema → Bool) (table : String) : DbProg Unit := fun c =>
  if present c.database.schema then .returned () c
  else .threw (.sqliteException (.noSuchTable table)) c

/-! ## Transactions -/

/-- `BEGIN TRANSACTION`. -/
def beginTransaction : DbProg Unit := fun c =>
  match c.rollback with
  | some _ => .threw (.sqliteException .transactionActive) c
  | none => .returned () { c with rollback := some c.database }

/-- `COMMIT`. -/
def commitTransaction : DbProg Unit := fun c =>
  match c.rollback with
  | some _ => .returned () { c with rollback := none }
  | none => .threw (.sqliteException .noTransaction) c

/-- `ROLLBACK`, as the destructor of `SQLite::Transaction` issues it. -/
def rollbackTransaction : DbProg Unit := fun c =>
  match c.rollback with
  | some saved => .returned () { c with database := saved, rollback := none }
  | none => .returned () c

/-- The scope of a `SQLite::Transaction`: the constructor begins, the body ends
with `commit()`, and leaving by an exception rolls back. -/
def withTransaction (body : DbProg Unit) : DbProg Unit := do
  beginTransaction
  Prog.tryCatch (do body; commitTransaction) fun error => do
    rollbackTransaction
    Prog.throw error

/-! ## Creating the schema -/

/-- `PRAGMA foreign_keys = ON`, which has no effect inside a transaction. -/
def pragmaForeignKeysOn : DbProg Unit :=
  Prog.modify fun c =>
    if c.rollback.isNone then { c with foreignKeys := true } else c

/-- A `CREATE` statement. -/
def createObject (object : String) (present : Schema → Bool)
    (create : Schema → Schema) : DbProg Unit := fun c =>
  if present c.database.schema then
    .threw (.sqliteException (.alreadyExists object)) c
  else
    .returned () { c with
      database := { c.database with schema := create c.database.schema } }

def createTableStreams : DbProg Unit :=
  createObject "table streams" (·.streams) fun s => { s with streams := true }

def createTableEvents : DbProg Unit :=
  createObject "table events" (·.events) fun s => { s with events := true }

/-- A trigger needs the table it is on. -/
def createTriggerVerValid : DbProg Unit := do
  requireTable (·.events) "main.events"
  createObject "trigger ver_valid" (·.verValid) fun s => { s with verValid := true }

def createTableProjections : DbProg Unit :=
  createObject "table projections" (·.projections)
    fun s => { s with projections := true }

/-- `Sqlite_repository::init_db` after its early return. -/
def initSchema : DbProg Unit := do
  pragmaForeignKeysOn
  withTransaction do
    createTableStreams
    createTableEvents
  -- The transaction is committed; the trigger and the last table come after it.
  createTriggerVerValid
  createTableProjections

/-- `SQLite::Database(conn_str, OPEN_READWRITE | OPEN_CREATE)`.  Foreign keys
are off on a new connection. -/
def openDatabase (file : Option Database) : Connection where
  database := file.getD .empty
  foreignKeys := false
  rollback := none

/-- `Sqlite_repository::init_db` on the file found at the path, if there is
one. -/
def initDb (file : Option Database) : Outcome Exn Connection Unit :=
  let shouldReturn := file.isSome
  let db := openDatabase file
  -- A file that is there is neither checked nor is the pragma run for it.
  if shouldReturn then .returned () db else initSchema db

/-- The schema that a completed `init_db` leaves in the file. -/
def Schema.complete : Schema := ⟨true, true, true, true⟩

/-- The connection a completed first `init_db` returns. -/
def freshConnection : Connection where
  database := { Database.empty with schema := .complete }
  foreignKeys := true
  rollback := none

/-- Without a file, all steps run: the file gets its schema and the connection
enforces foreign keys. -/
theorem initDb_none : initDb none = .returned () freshConnection := rfl

/-- With a file, nothing runs: the contents are taken as they are and the
connection does not enforce foreign keys. -/
theorem initDb_some (db : Database) :
    initDb (some db) = .returned () ⟨db, false, none⟩ := rfl

theorem eq_of_initDb_none {c : Connection} (hInit : initDb none = .returned () c) :
    c = freshConnection := (Outcome.returned.inj hInit).2.symm

theorem eq_of_initDb_some {db : Database} {c : Connection}
    (hInit : initDb (some db) = .returned () c) : c = ⟨db, false, none⟩ :=
  (Outcome.returned.inj hInit).2.symm

/-! ## What a transaction does -/

/-- A body that returns is committed. -/
theorem withTransaction_of_returned {body : DbProg Unit} {c c' : Connection}
    (hIdle : c.rollback = none)
    (hBody : body { c with rollback := some c.database } = .returned () c')
    (hOpen : c'.rollback.isSome) :
    withTransaction body c = .returned () { c' with rollback := none } := by
  obtain ⟨saved, hSaved⟩ := Option.isSome_iff_exists.mp hOpen
  have hBegin : beginTransaction c =
      .returned () { c with rollback := some c.database } := by
    simp only [beginTransaction, hIdle]
  have hCommit : commitTransaction c' = .returned () { c' with rollback := none } := by
    simp only [commitTransaction, hSaved]
  rw [withTransaction, Prog.bind_of_returned hBegin]
  apply Prog.tryCatch_of_returned
  rw [Prog.bind_of_returned hBody, hCommit]

end Db
end Yess

import Yess.Ext.JsonValue

namespace Yess
namespace Ext

/-!
# A small engine

An engine for a handful of sources and values, on which the examples of the
modules below run.  Its heap is the list of the global bindings; the functions it
knows do not look at the event, so that objects need no contents.
-/

inductive SampleVal where
  | undefined
  | null
  | int (n : Int)
  | string (s : String)
  | object
  | global
  | error (message : String)
  /-- `function (event, state) { return state + 1; }`. -/
  | increment
  /-- `function (event, state) { return n; }`. -/
  | constant (n : Int)
  /-- `function (event, state) { }`. -/
  | noReturn
  deriving DecidableEq

abbrev SampleHeap : Type := List (String × SampleVal)

namespace Sample

def countSource : String := "function projection(event, state) { return state + 1; }"

def zeroSource : String := "function projection(event, state) { return 0; }"

def oneSource : String := "function projection(event, state) { return 1; }"

def noReturnSource : String := "function projection(event, state) { }"

def variableSource : String := "var seen = 0;"

def throwNullSource : String := "throw null;"

/-- The bindings that a source makes. -/
def bindings (source : String) : Option SampleHeap :=
  if source = countSource then some [("projection", .increment)]
  else if source = zeroSource then some [("projection", .constant 0)]
  else if source = oneSource then some [("projection", .constant 1)]
  else if source = noReturnSource then some [("projection", .noReturn)]
  else if source = variableSource then some [("seen", .int 0)]
  else none

def eval (heap : SampleHeap) : SampleVal → Except SampleVal SampleVal × SampleHeap
  | .string source =>
      if source = throwNullSource then (.error .null, heap)
      else match bindings source with
        | some new => (.ok .undefined, new ++ heap)
        | none => (.error (.error "SyntaxError: parse error"), heap)
  | v => (.ok v, heap)

def getProp (heap : SampleHeap) (obj : SampleVal) (key : String) :
    Option ((Bool × SampleVal) × SampleHeap) :=
  match obj with
  | .undefined => none
  | .null => none
  | .global =>
      match heap.lookup key with
      | some v => some ((true, v), heap)
      | none => some ((false, .undefined), heap)
  | .error message =>
      if key = "stack" then some ((true, .string message), heap)
      else some ((false, .undefined), heap)
  | _ => some ((false, .undefined), heap)

def putProp (heap : SampleHeap) (obj : SampleVal) (key : String) (v : SampleVal) :
    Option (Unit × SampleHeap) :=
  match obj with
  | .global => some ((), (key, v) :: heap)
  | _ => some ((), heap)

def jsonDecode (heap : SampleHeap) : SampleVal → Option (SampleVal × SampleHeap)
  | .string "{}" => some (.object, heap)
  | .string "\"\"" => some (.string "", heap)
  | .string "null" => some (.null, heap)
  | .string "0" => some (.int 0, heap)
  | .string "1" => some (.int 1, heap)
  | .string "2" => some (.int 2, heap)
  | .string "3" => some (.int 3, heap)
  | _ => none

def jsonEncode (heap : SampleHeap) : SampleVal → Option (Option String × SampleHeap)
  | .object => some (some "{}", heap)
  | .string "" => some (some "\"\"", heap)
  | .null => some (some "null", heap)
  | .int 0 => some (some "0", heap)
  | .int 1 => some (some "1", heap)
  | .int 2 => some (some "2", heap)
  | .int 3 => some (some "3", heap)
  | _ => some (none, heap)

def call (heap : SampleHeap) (callee : SampleVal) (args : List SampleVal) :
    Except SampleVal SampleVal × SampleHeap :=
  match callee, args with
  | .increment, [_, .int n] => (.ok (.int (n + 1)), heap)
  | .constant n, _ => (.ok (.int n), heap)
  | .noReturn, _ => (.ok .undefined, heap)
  | _, _ => (.error (.error "TypeError: not callable"), heap)

def safeToString (heap : SampleHeap) : SampleVal → String × SampleHeap
  | .string s => (s, heap)
  | .undefined => ("undefined", heap)
  | _ => ("[object Object]", heap)

/-- The engine. -/
def engine : Duktape where
  Heap := SampleHeap
  Val := SampleVal
  reserve := apiEntryStack
  entryStack_le_reserve := Nat.le_refl _
  defaultHeap := []
  undefined := .undefined
  globalObject := .global
  string := .string
  int := fun n => .int n.toInt
  newObject := fun heap => (.object, heap)
  eval := eval
  getProp := getProp
  putProp := putProp
  jsonDecode := jsonDecode
  jsonEncode := jsonEncode
  call := call
  safeToString := safeToString
  globalObject_not_callable := fun heap args =>
    ⟨.error "TypeError: not callable", heap, by cases args <;> rfl⟩

def dump : Json → String
  | .object [] => "{}"
  | .string "" => "\"\""
  | .integer 0 => "0"
  | .integer 1 => "1"
  | .integer 2 => "2"
  | .integer 3 => "3"
  | _ => "null"

def parse : String → Option Json
  | "{}" => some (.object [])
  | "\"\"" => some (.string "")
  | "0" => some (.integer 0)
  | "1" => some (.integer 1)
  | "2" => some (.integer 2)
  | "3" => some (.integer 3)
  | "null" => some .null
  | _ => none

/-- The text form of the values that occur. -/
def jsonText : JsonText where
  dump := dump
  parse := parse
  cStr_dump := by
    intro value
    unfold dump
    split <;> decide

/-- The text form with the texts of its exceptions. -/
def jsonLib : JsonLib where
  toJsonText := jsonText
  parseError := fun _ => "parse error"
  typeError := fun expected _ => "type must be " ++ expected
  dumpError := fun _ => "invalid UTF-8 byte"

end Sample

end Ext
end Yess

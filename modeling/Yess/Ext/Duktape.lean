import Yess.Db.Entities
import Yess.Foundation.ValueStack

namespace Yess
namespace Ext

open Foundation ValueStack

/-!
# JSON values and the Duktape interface

The two libraries that the projections run on are parameters: `JsonText` is the
text form of nlohmann's JSON values, `Duktape` an engine with its heap, its values
and the operations the program uses.  The C functions of the Duktape API are
defined below from the engine, with their documented effect on the value stack.

An operation of the engine that raises an error outside a protected call yields
`none`; such an error reaches the fatal error handler, which ends the process.
Calls that do not come back are outside the model.
-/

/-- `nlohmann::json`. -/
inductive Json where
  | null
  | bool (value : Bool)
  | integer (value : Int)
  | float (bits : UInt64)
  | string (value : String)
  | array (items : List Json)
  | object (members : List (String × Json))

/-- What a function that takes a `const char*` sees of a string. -/
def cStr (s : String) : String := String.ofList (s.toList.takeWhile (· ≠ '\x00'))

/-- `json::dump` and `json::parse`.  Control characters are escaped in the
text, so that it has no NUL in it. -/
structure JsonText where
  dump : Json → String
  parse : String → Option Json
  cStr_dump : ∀ value, cStr (dump value) = dump value

/-- The stack entries that a caller of the API may use without reserving more,
`DUK_API_ENTRY_STACK`. -/
def apiEntryStack : Nat := 64

/-- A JavaScript engine. -/
structure Duktape where
  Heap : Type
  Val : Type
  /-- How many values its stack may hold.  `DUK_API_ENTRY_STACK` is only what a caller
  can count on: the functions of the API raise the reserve where they need more. -/
  reserve : Nat
  entryStack_le_reserve : apiEntryStack ≤ reserve
  /-- `duk_create_heap_default`. -/
  defaultHeap : Heap
  undefined : Val
  globalObject : Val
  string : String → Val
  int : Int32 → Val
  newObject : Heap → Val × Heap
  /-- Evaluate a source as a program: its completion value, or what it throws. -/
  eval : Heap → Val → Except Val Val × Heap
  /-- Whether the property exists, and its value. -/
  getProp : Heap → Val → String → Option ((Bool × Val) × Heap)
  putProp : Heap → Val → String → Val → Option (Unit × Heap)
  jsonDecode : Heap → Val → Option (Val × Heap)
  /-- The JSON text, or `NULL` for a value that has none. -/
  jsonEncode : Heap → Val → Option (Option String × Heap)
  call : Heap → Val → List Val → Except Val Val × Heap
  safeToString : Heap → Val → String × Heap
  /-- Calling the global object is a `TypeError`. -/
  globalObject_not_callable : ∀ heap args, ∃ error heap',
    call heap globalObject args = (.error error, heap')

/-- What a caller can count on is there. -/
theorem Duktape.lt_reserve (E : Duktape) {n : Nat} (hEntry : n < apiEntryStack) :
    n < E.reserve :=
  Nat.lt_of_lt_of_le hEntry E.entryStack_le_reserve

/-- Programs on the heap of an engine. -/
abbrev Js (E : Duktape) (α : Type) : Type := Prog Exn E.Heap α

namespace Js

variable {E : Duktape} {α : Type}

/-- An operation that may raise. -/
def ofOption (f : E.Heap → Option (α × E.Heap)) : Js E α := fun heap =>
  match f heap with
  | none => .aborted
  | some (a, heap') => .returned a heap'

/-- An operation that does not. -/
def ofPair (f : E.Heap → α × E.Heap) : Js E α := fun heap =>
  .returned (f heap).1 (f heap).2

def newObject : Js E E.Val := ofPair E.newObject

def eval (source : E.Val) : Js E (Except E.Val E.Val) := ofPair fun heap => E.eval heap source

def getProp (obj : E.Val) (key : String) : Js E (Bool × E.Val) :=
  ofOption fun heap => E.getProp heap obj key

def putProp (obj : E.Val) (key : String) (v : E.Val) : Js E Unit :=
  ofOption fun heap => E.putProp heap obj key v

def jsonDecode (v : E.Val) : Js E E.Val := ofOption fun heap => E.jsonDecode heap v

def jsonEncode (v : E.Val) : Js E (Option String) := ofOption fun heap => E.jsonEncode heap v

def call (callee : E.Val) (args : List E.Val) : Js E (Except E.Val E.Val) :=
  ofPair fun heap => E.call heap callee args

def safeToString (v : E.Val) : Js E String := ofPair fun heap => E.safeToString heap v

/-- No operation of the engine throws a C++ exception. -/
def NeverThrows (q : Js E α) : Prop := ∀ heap error heap', q heap ≠ .threw error heap'

theorem neverThrows_ofOption (f : E.Heap → Option (α × E.Heap)) :
    NeverThrows (ofOption f) := by
  intro heap error heap'
  rw [ofOption]
  cases f heap <;> simp

theorem neverThrows_ofPair (f : E.Heap → α × E.Heap) : NeverThrows (ofPair f) := by
  intro heap error heap'
  simp [ofPair]

theorem NeverThrows.bind {β : Type} {q : Js E α} {k : α → Js E β} (hFirst : NeverThrows q)
    (hSecond : ∀ a, NeverThrows (k a)) : NeverThrows (q >>= k) := by
  intro heap error heap' h
  rcases Prog.bind_eq_threw.mp h with h | ⟨a, heap₁, -, h⟩
  · exact hFirst heap error heap' h
  · exact hSecond a heap₁ error heap' h

theorem neverThrows_pure (a : α) : NeverThrows (pure a : Js E α) := by
  intro heap error heap'
  simp

end Js

/-! ## The C functions -/

/-- `duk_context`. -/
abbrev Context (E : Duktape) : Type := Machine E.Heap E.Val

abbrev DukProg (E : Duktape) (α : Type) : Type := Prog Exn (Context E) α

section Api

variable {E : Duktape}

/-- Run an operation of the engine; the stack is not concerned. -/
def onHeap {α : Type} (p : Js E α) : DukProg E α :=
  Prog.zoom Machine.heap (fun heap c => { c with heap := heap }) p

/-- The value at an index; an invalid index raises. -/
def valueAt (index : Int) : DukProg E E.Val := fun c =>
  match slot c.stack index with
  | none => .aborted
  | some v => .returned v c

/-- `duk_is_valid_index`. -/
def isValidIndex (index : Int) : DukProg E Bool := fun c =>
  .returned (slot c.stack index).isSome c

/-- `duk_push_string`. -/
def pushString (text : String) : DukProg E Unit := push E.reserve (E.string text)

/-- `duk_push_int`. -/
def pushInt (n : Int32) : DukProg E Unit := push E.reserve (E.int n)

/-- `duk_push_global_object`. -/
def pushGlobalObject : DukProg E Unit := push E.reserve E.globalObject

/-- `duk_push_object`, which returns the index of the new object. -/
def pushObject : DukProg E Int := do
  let index : Int := (← Prog.get).stack.length
  let obj ← onHeap Js.newObject
  push E.reserve obj
  pure index

/-- `duk_get_prop_string`. -/
def getPropString (index : Int) (key : String) : DukProg E Bool := do
  let obj ← valueAt index
  let property ← onHeap (Js.getProp obj key)
  push E.reserve property.2
  pure property.1

/-- `duk_put_prop_string`. -/
def putPropString (index : Int) (key : String) : DukProg E Unit := do
  let v ← valueAt (-1)
  let obj ← valueAt index
  onHeap (Js.putProp obj key v)
  pop

/-- The value that a protected call leaves on the stack: its result or the error. -/
def outcomeValue : Except E.Val E.Val → E.Val
  | .ok v => v
  | .error v => v

/-- Did a protected call return `DUK_EXEC_SUCCESS`? -/
def succeeded : Except E.Val E.Val → Bool
  | .ok _ => true
  | .error _ => false

/-- Work on the top of the stack: the operation's result takes its place. -/
def replaceTop {α β : Type} (operation : E.Val → Js E α) (left : α → E.Val)
    (returned : α → β) : DukProg E β := do
  let v ← valueAt (-1)
  let result ← onHeap (operation v)
  pop
  push E.reserve (left result)
  pure (returned result)

/-- `duk_json_decode` of the top. -/
def jsonDecode : DukProg E Unit := replaceTop Js.jsonDecode id fun _ => ()

/-- `duk_json_encode` of the top. -/
def jsonEncode : DukProg E (Option String) :=
  replaceTop Js.jsonEncode (fun text => text.elim E.undefined E.string) id

/-- `duk_safe_to_string` of the top. -/
def safeToString : DukProg E String := replaceTop Js.safeToString E.string id

/-- `duk_peval`: did the source at the top evaluate? -/
def peval : DukProg E Bool := replaceTop Js.eval outcomeValue succeeded

/-- `duk_pcall` with two arguments: the callee lies below them, and all three make
way for one value. -/
def pcall₂ : DukProg E Bool := do
  -- The callee is whatever lies below the two arguments.
  let callee ← valueAt (-3)
  let first ← valueAt (-2)
  let second ← valueAt (-1)
  let outcome ← onHeap (Js.call callee [first, second])
  pop
  pop
  pop
  push E.reserve (outcomeValue outcome)
  pure (succeeded outcome)

/-! ## Their effect on the stack -/

variable {base rest : List E.Val} {v : E.Val} {α β : Type}

theorem implements_valueAt {index : Int} {stack : List E.Val}
    (hSlot : slot stack index = some v) :
    Implements base stack (valueAt index) id (fun _ => stack) (pure v : Js E E.Val) := by
  intro heap
  rw [valueAt, hSlot]
  exact .returned v heap

theorem implements_onHeap {q : Js E α} (hQuiet : Js.NeverThrows q) :
    Implements base rest (onHeap q) id (fun _ => rest) q := by
  intro heap
  rw [onHeap, Prog.zoom]
  cases hOutcome : q heap with
  | returned a heap' => exact .returned a heap'
  | threw error heap' => exact absurd hOutcome (hQuiet heap error heap')
  | aborted => exact .aborted

theorem implements_replaceTop {operation : E.Val → Js E α} {left : α → E.Val}
    {returned : α → β} (hQuiet : Js.NeverThrows (operation v))
    (hRoom : rest.length < E.reserve) :
    Implements base (v :: rest) (replaceTop operation left returned) returned
      (fun result => left result :: rest) (operation v) := by
  refine (implements_valueAt (slot_top v rest)).bind_pure_left ?_
  rw [← bind_pure (operation v)]
  refine (implements_onHeap hQuiet).bind fun result => ?_
  refine (implements_pop v).bind_pure_left ?_
  refine (implements_push (left result) hRoom).bind_pure_left ?_
  exact .pure base returned (fun result => left result :: rest) result

theorem implements_pushObject (hRoom : rest.length < E.reserve) :
    Implements base rest pushObject (fun _ => (rest.length : Int))
      (fun obj => obj :: rest) (Js.newObject : Js E E.Val) := by
  intro heap
  simp only [pushObject, Prog.bind_apply, Prog.get_apply, onHeap, Prog.zoom, Js.newObject,
    Js.ofPair, Outcome.mapState_returned, push, if_pos hRoom, Prog.pure_apply]
  exact .returned (E.newObject heap).1 (E.newObject heap).2

theorem implements_getPropString {index : Int} {stack : List E.Val} {obj : E.Val}
    (key : String) (hSlot : slot stack index = some obj)
    (hRoom : stack.length < E.reserve) :
    Implements base stack (getPropString index key) Prod.fst
      (fun property => property.2 :: stack) (Js.getProp obj key) := by
  refine (implements_valueAt hSlot).bind_pure_left ?_
  rw [← bind_pure (Js.getProp obj key)]
  refine (implements_onHeap (Js.neverThrows_ofOption _)).bind fun property => ?_
  refine (implements_push property.2 hRoom).bind_pure_left ?_
  exact .pure base Prod.fst (fun property => property.2 :: stack) property

/-- Without room for the property, the process ends, whether or not the property can
be read. -/
theorem getPropString_of_full {index : Int} {key : String} {c : Context E}
    (hFull : ¬c.stack.length < E.reserve) : getPropString index key c = .aborted := by
  unfold getPropString
  cases hSlot : slot c.stack index with
  | none =>
      apply Prog.bind_of_aborted
      rw [valueAt, hSlot]
  | some obj =>
      have hValue : valueAt index c = .returned obj c := by rw [valueAt, hSlot]
      rw [Prog.bind_of_returned hValue]
      cases hProp : E.getProp c.heap obj key with
      | none =>
          apply Prog.bind_of_aborted
          simp only [onHeap, Prog.zoom, Js.getProp, Js.ofOption, hProp,
            Outcome.mapState_aborted]
      | some property =>
          have hRead : onHeap (Js.getProp obj key) c =
              .returned property.1 { c with heap := property.2 } := by
            simp only [onHeap, Prog.zoom, Js.getProp, Js.ofOption, hProp,
              Outcome.mapState_returned]
          rw [Prog.bind_of_returned hRead]
          exact Prog.bind_of_aborted (push_of_full _ hFull)

theorem implements_putPropString {index : Int} {obj : E.Val} (key : String)
    (hSlot : slot (v :: rest) index = some obj) :
    Implements base (v :: rest) (putPropString index key) id (fun _ => rest)
      (Js.putProp obj key v) := by
  refine (implements_valueAt (slot_top v rest)).bind_pure_left ?_
  refine (implements_valueAt hSlot).bind_pure_left ?_
  rw [← bind_pure (Js.putProp obj key v)]
  exact (implements_onHeap (Js.neverThrows_ofOption _)).bind fun _ => implements_pop v

theorem implements_pcall₂ (callee first second : E.Val)
    (hRoom : rest.length < E.reserve) :
    Implements base (second :: first :: callee :: rest) pcall₂ succeeded
      (fun outcome => outcomeValue outcome :: rest) (Js.call callee [first, second]) := by
  refine (implements_valueAt (v := callee) rfl).bind_pure_left ?_
  refine (implements_valueAt (v := first) rfl).bind_pure_left ?_
  refine (implements_valueAt (v := second) rfl).bind_pure_left ?_
  rw [← bind_pure (Js.call callee [first, second])]
  refine (implements_onHeap (Js.neverThrows_ofPair _)).bind fun outcome => ?_
  refine (implements_pop second).bind_pure_left ?_
  refine (implements_pop first).bind_pure_left ?_
  refine (implements_pop callee).bind_pure_left ?_
  refine (implements_push (outcomeValue outcome) hRoom).bind_pure_left ?_
  exact .pure base succeeded (fun outcome => outcomeValue outcome :: rest) outcome

end Api

end Ext
end Yess

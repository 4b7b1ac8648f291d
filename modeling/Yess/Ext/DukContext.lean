import Yess.Ext.Duktape

namespace Yess
namespace Ext

open Foundation ValueStack Db

/-!
# `Duk_context`

`read` and `call_projection`, and beside each of them what it does on the heap of
the engine when values are passed as values.  `call_projection` looks the function
up in slot 0 of the value stack, twice, and its loop pushes no function: the
`k`-th event is applied by the `k`-th value from the top (`applyInTurn`), so after
the two functions comes the global object.
-/

variable (J : JsonText) {E : Duktape} {α : Type}

/-! ## The functions of the source -/

namespace DukContext

/-- The context that the constructor makes. -/
def fresh (E : Duktape) : Context E where
  heap := E.defaultHeap
  stack := []

/-- Throw the `stack` property of the error at the top. -/
def throwErrorStack : DukProg E α := do
  let _ ← getPropString (-1) "stack"
  let err ← safeToString
  Prog.throw (.runtimeError err)

/-- `Duk_context::read` from the C string on. -/
def evaluate (source : String) : DukProg E Unit := do
  pushString source
  if ← peval then
    -- ignore result
    pop
    pushGlobalObject
  else
    throwErrorStack

/-- `Duk_context::read`. -/
def read (body : String) : DukProg E Unit := evaluate (cStr body)

/-- `std::string` from a `const char*`. -/
def stdString (text : Option String) : Except Exn String :=
  match text with
  | some text => .ok text
  | none => .error (.logicError "basic_string: construction from null is not valid")

/-- `json::parse` of a result, with every failure reported the same way. -/
def parseResult (text : String) : Except Exn Json :=
  match J.parse text with
  | some state => .ok state
  | none => .error (.runtimeError "Funciton result is not a valid javascript object!")

/-- Throw a `std::runtime_error` unless the condition holds. -/
def ensure (condition : Bool) (message : String) : Except Exn Unit :=
  if condition then .ok () else .error (.runtimeError message)

def notFound (fnName : String) : String := "Function '" ++ fnName ++ "' is not found!"

/-- One pass through the loop of `call_projection`. -/
def applyEvent (state : Json) (event : Event) : DukProg E Json := do
  -- param 1: event
  let evIdx ← pushObject
  pushInt event.id
  putPropString evIdx "id"
  pushString (cStr event.payload)
  jsonDecode
  putPropString evIdx "payload"
  pushInt event.version
  putPropString evIdx "version"
  pushInt event.streamId
  putPropString evIdx "streamId"
  pushString (cStr event.type)
  putPropString evIdx "type"
  -- param 2: state
  let jsonState := J.dump state
  pushString (cStr jsonState)
  jsonDecode
  -- No function was pushed in this pass, so an older value is the callee.
  if ← pcall₂ then
    let json ← Prog.ofExcept (stdString (← jsonEncode))
    let state ← Prog.ofExcept (parseResult J json)
    pop
    pure state
  else
    throwErrorStack

/-- The statement with which `call_projection` pushes the function; it has it
twice. -/
def pushFunction (objIdx : Int) (fnName : String) : DukProg E Unit := do
  Prog.ofExcept (ensure (← getPropString objIdx (cStr fnName)) (notFound fnName))

/-- `Duk_context::call_projection`. -/
def callProjection (fnName : String) (events : List Event) (initState : Json) :
    DukProg E Json :=
  let state := initState
  if events.length = 0 then pure state
  else do
    -- Slot 0 is not the top: it has whatever was pushed first on the context.
    let objIdx : Int := 0
    Prog.ofExcept (ensure (← isValidIndex objIdx) "Invalid index!")
    pushFunction objIdx fnName
    pushFunction objIdx fnName
    let state ← events.foldlM (applyEvent J) state
    pop
    pure state

end DukContext

/-! ## The same on the heap -/

namespace Replay

open DukContext

/-- Report a thrown value by its `stack` property. -/
def reportError (error : E.Val) : Js E α := do
  let stack ← Js.getProp error "stack"
  let err ← Js.safeToString stack.2
  Prog.throw (.runtimeError err)

/-- Evaluate a source for its effect. -/
def evalSource (source : String) : Js E Unit := do
  match ← Js.eval (E.string source) with
  | .ok _ => pure ()
  | .error error => reportError error

/-- The function that an object holds under a name. -/
def findFunction (obj : E.Val) (fnName : String) : Js E E.Val := do
  let property ← Js.getProp obj (cStr fnName)
  Prog.ofExcept (ensure property.1 (notFound fnName))
  pure property.2

/-- The JavaScript object `{id, payload, version, streamId, type}` of an event. -/
def eventObject (event : Event) : Js E E.Val := do
  let ev ← Js.newObject
  Js.putProp ev "id" (E.int event.id)
  let payload ← Js.jsonDecode (E.string event.payload)
  Js.putProp ev "payload" payload
  Js.putProp ev "version" (E.int event.version)
  Js.putProp ev "streamId" (E.int event.streamId)
  Js.putProp ev "type" (E.string event.type)
  pure ev

/-- The JSON form of what a call returned, or the report of what it threw. -/
def resultState (outcome : Except E.Val E.Val) : Js E Json :=
  match outcome with
  | .ok result => do
      let json ← Prog.ofExcept (stdString (← Js.jsonEncode result))
      Prog.ofExcept (parseResult J json)
  | .error error => reportError error

/-- One step of a replay: the next state is `f(event, state)`. -/
def applyFunction (f : E.Val) (state : Json) (event : Event) : Js E Json := do
  let ev ← eventObject event
  let stateValue ← Js.jsonDecode (E.string (J.dump state))
  let outcome ← Js.call f [ev, stateValue]
  resultState J outcome

/-- The event whose strings end where they end as C strings. -/
def cut (event : Event) : Event :=
  { event with payload := cStr event.payload, type := cStr event.type }

/-- Apply the events in list order, the `k`-th of them with the `k`-th callee. -/
def applyInTurn : List E.Val → List Event → Json → Js E Json
  | _, [], state => pure state
  | [], _ :: _, _ => Prog.abort
  | f :: callees, event :: events, state => do
      let state ← applyFunction J f state event
      applyInTurn callees events state

/-- What `call_projection` does on the heap, with the object that lies in slot 0:
two functions are found there, and below them lies the global object. -/
def callFrom (slotZero : E.Val) (fnName : String) (events : List Event)
    (initState : Json) : Js E Json :=
  if events.length = 0 then pure initState
  else do
    let first ← findFunction slotZero fnName
    let second ← findFunction slotZero fnName
    applyInTurn J [second, first, E.globalObject] (events.map cut) initState

/-- `read` and then `call_projection`. -/
def playFrom (slotZero : E.Val) (source fnName : String) (events : List Event)
    (initState : Json) : Js E Json := do
  evalSource (cStr source)
  callFrom J slotZero fnName events initState

/-! ## The code implements it -/

variable {rest : List E.Val}

theorem implements_throwErrorStack (error : E.Val) {value : α → α} {after : α → List E.Val}
    (hRoom : rest.length + 1 < E.reserve) :
    Implements rest (error :: rest) (throwErrorStack : DukProg E α) value after
      (reportError error) := by
  refine (implements_getPropString "stack" (slot_top error rest) hRoom).bind
    fun stack => ?_
  refine (implements_replaceTop (Js.neverThrows_ofPair _) (by simpa using hRoom)).bind
    fun err => ?_
  exact implements_throw [E.string err, error] (Exn.runtimeError err) (List.cons_ne_nil _ _)

/-- `read` leaves the global object on the stack. -/
theorem implements_read (body : String) (hRoom : rest.length + 1 < E.reserve) :
    Implements rest rest (read body : DukProg E Unit) id (fun _ => E.globalObject :: rest)
      (evalSource (cStr body)) := by
  refine (implements_push (E.string (cStr body)) (by omega)).bind_pure_left ?_
  refine (implements_replaceTop (Js.neverThrows_ofPair _) (by omega)).bind fun outcome => ?_
  cases outcome with
  | ok v =>
      refine (implements_pop v).bind_pure_left ?_
      exact implements_push E.globalObject (by omega)
  | error error => exact implements_throwErrorStack error hRoom

/-- One pass through the loop takes its callee off the stack. -/
theorem implements_applyEvent (callee : E.Val) (state : Json) (event : Event)
    (hRoom : rest.length + 2 < E.reserve) :
    Implements rest (callee :: rest) (applyEvent J state event) id (fun _ => rest)
      (applyFunction J callee state (cut event)) := by
  simp only [applyFunction, eventObject, bind_assoc, pure_bind, cut]
  have hSlot := fun ev v : E.Val => slot_length [v] ev (callee :: rest)
  refine (implements_pushObject (by simp; omega)).bind fun ev => ?_
  refine (implements_push (E.int event.id) (by simp; omega)).bind_pure_left ?_
  refine (implements_putPropString "id" (hSlot ev _)).bind fun _ => ?_
  refine (implements_push (E.string (cStr event.payload)) (by simp; omega)).bind_pure_left ?_
  refine (implements_replaceTop (Js.neverThrows_ofOption _) (by simp; omega)).bind
    fun payload => ?_
  refine (implements_putPropString "payload" (hSlot ev payload)).bind fun _ => ?_
  refine (implements_push (E.int event.version) (by simp; omega)).bind_pure_left ?_
  refine (implements_putPropString "version" (hSlot ev _)).bind fun _ => ?_
  refine (implements_push (E.int event.streamId) (by simp; omega)).bind_pure_left ?_
  refine (implements_putPropString "streamId" (hSlot ev _)).bind fun _ => ?_
  refine (implements_push (E.string (cStr event.type)) (by simp; omega)).bind_pure_left ?_
  refine (implements_putPropString "type" (hSlot ev _)).bind fun _ => ?_
  refine (implements_push (E.string (cStr (J.dump state))) (by simp; omega)).bind_pure_left ?_
  rw [J.cStr_dump]
  refine (implements_replaceTop (Js.neverThrows_ofOption _) (by simp; omega)).bind
    fun stateValue => ?_
  refine (implements_pcall₂ callee ev stateValue (by omega)).bind fun outcome => ?_
  cases outcome with
  | error error => exact implements_throwErrorStack error (by omega)
  | ok result =>
      simp only [resultState]
      refine (implements_replaceTop (Js.neverThrows_ofOption _) (by omega)).bind
        fun json => ?_
      refine (implements_ofExcept [_] _ (by simp)).bind fun text => ?_
      rw [← bind_pure (Prog.ofExcept (parseResult J text))]
      refine (implements_ofExcept [_] _ (by simp)).bind fun state' => ?_
      refine (implements_pop _).bind_pure_left ?_
      exact .pure rest id (fun _ => rest) state'

/-- Reporting an error never returns. -/
theorem reportError_ne_returned (error : E.Val) (heap heap' : E.Heap) (a : α) :
    (reportError error : Js E α) heap ≠ .returned a heap' := by
  intro h
  obtain ⟨stack, _, -, h⟩ := Prog.bind_eq_returned.mp h
  obtain ⟨err, _, -, h⟩ := Prog.bind_eq_returned.mp h
  simp at h

/-- The global object as a callee never gives a state. -/
theorem applyFunction_globalObject (state state' : Json) (event : Event)
    (heap heap' : E.Heap) :
    applyFunction J E.globalObject state event heap ≠ .returned state' heap' := by
  intro h
  obtain ⟨ev, _, -, h⟩ := Prog.bind_eq_returned.mp h
  obtain ⟨stateValue, heap₁, -, h⟩ := Prog.bind_eq_returned.mp h
  obtain ⟨outcome, _, hCall, h⟩ := Prog.bind_eq_returned.mp h
  obtain ⟨error, heap₂, hError⟩ := E.globalObject_not_callable heap₁ [ev, stateValue]
  simp only [Js.call, Js.ofPair, hError, Outcome.returned.injEq] at hCall
  rw [← hCall.1] at h
  exact reportError_ne_returned error _ heap' state' h

/-- The loop takes one callee per event off the stack.  It may be started with
fewer callees than events when the global object is among them, as it does not
come past that one. -/
theorem implements_applyEvents (callees : List E.Val) (events : List Event) (state : Json)
    (hRoom : callees.length + rest.length + 1 < E.reserve)
    (hCallees : events.length ≤ callees.length ∨ E.globalObject ∈ callees) :
    Implements rest (callees ++ rest) (events.foldlM (applyEvent J) state) id
      (fun _ => callees.drop events.length ++ rest)
      (applyInTurn J callees (events.map cut) state) := by
  -- The callees are the measure: a pass takes one event and one callee.
  induction callees generalizing events state with
  | nil =>
      cases events with
      | nil => exact .pure rest id (fun _ => rest) state
      | cons event events => simp at hCallees
  | cons callee callees ih =>
      cases events with
      | nil => exact .pure rest id (fun _ => callee :: callees ++ rest) state
      | cons event events =>
          rw [List.foldlM_cons]
          have hFirst := @implements_applyEvent J E (callees ++ rest) callee state event
            (by simp at hRoom ⊢; omega)
          refine hFirst.mono.bind_of_returned fun state' heap heap' hReturned => ?_
          refine ih events state' (by simp at hRoom; omega) ?_ heap'
          rcases hCallees with hLength | hMem
          · exact Or.inl (by simpa using hLength)
          · rcases List.mem_cons.mp hMem with hCallee | hMem
            -- The global object was the callee, so this pass did not return.
            · subst hCallee
              exact absurd hReturned (applyFunction_globalObject J _ _ _ _ _)
            · exact Or.inr hMem

/-- A replay that returns has no more events than there are callees above the
global object. -/
theorem applyInTurn_length {callees : List E.Val} {events : List Event}
    {state state' : Json} {heap heap' : E.Heap}
    (hReturned : applyInTurn J (callees ++ [E.globalObject]) events state heap =
      .returned state' heap') :
    events.length ≤ callees.length := by
  induction callees generalizing events state heap with
  | nil =>
      cases events with
      | nil => exact Nat.le_refl _
      | cons event events =>
          obtain ⟨next, heap₁, hFirst, -⟩ := Prog.bind_eq_returned.mp hReturned
          exact absurd hFirst (applyFunction_globalObject J _ _ _ _ _)
  | cons callee callees ih =>
      cases events with
      | nil => exact Nat.zero_le _
      | cons event events =>
          obtain ⟨next, heap₁, -, hRest⟩ := Prog.bind_eq_returned.mp hReturned
          have hLength := ih hRest
          simp only [List.length_cons]
          omega

/-- The stack that a replay of `n` events leaves above the one that `read` found:
the global object stays behind unless two functions were called. -/
def stackAfter (n : Nat) (stack : List E.Val) : List E.Val :=
  if n ≤ 1 then E.globalObject :: stack else stack

theorem implements_pushFunction {slotZero : E.Val} {stack : List E.Val}
    (above : List E.Val) (fnName : String) (hStack : stack = above ++ rest)
    (hSlot : slot stack 0 = some slotZero) (hRoom : stack.length < E.reserve) :
    Implements rest stack (pushFunction 0 fnName) (fun _ => ()) (fun v => v :: stack)
      (findFunction slotZero fnName) := by
  subst hStack
  refine (implements_getPropString (cStr fnName) hSlot hRoom).bind fun property => ?_
  rw [← bind_pure (Prog.ofExcept _ : DukProg E Unit)]
  refine (implements_ofExcept (property.2 :: above) _ (by simp)).bind fun _ => ?_
  exact .pure rest (fun _ => ()) (fun v => v :: (above ++ rest)) property.2

theorem applyInTurn_nil (callees : List E.Val) (state : Json) :
    applyInTurn J callees [] state = pure state := by
  cases callees <;> rfl

/-- With as many callees as events, what lies below them is not called. -/
theorem applyInTurn_append (callees others : List E.Val) {events : List Event}
    {state : Json} (hLength : events.length ≤ callees.length) :
    applyInTurn J (callees ++ others) events state = applyInTurn J callees events state := by
  induction callees generalizing events state with
  | nil =>
      obtain rfl : events = [] := List.length_eq_zero_iff.mp (Nat.le_zero.mp hLength)
      rw [applyInTurn_nil, applyInTurn_nil]
  | cons callee callees ih =>
      cases events with
      | nil => rfl
      | cons event events =>
          simp only [List.cons_append, applyInTurn]
          congr 1
          funext next
          exact ih (by simpa using hLength)

/-- The loop above the two functions and the global object. -/
def LoopImplemented (base rest : List E.Val) (events : List Event) (state : Json) : Prop :=
  ∀ second first, Implements base (second :: first :: E.globalObject :: rest)
    (events.foldlM (applyEvent J) state) id
    (fun _ => [second, first, E.globalObject].drop events.length ++ rest)
    (applyInTurn J [second, first, E.globalObject] (events.map cut) state)

theorem loopImplemented (events : List Event) (state : Json)
    (hRoom : rest.length + 4 < E.reserve) :
    LoopImplemented J rest rest events state := fun second first =>
  implements_applyEvents J [second, first, E.globalObject] events state
    (by simp; omega) (Or.inr (by simp))

/-- Up to two events leave the global object alone. -/
theorem loopImplemented_of_le_two {events : List Event} (state : Json)
    (hRoom : rest.length + 4 < E.reserve) (hLength : events.length ≤ 2) :
    LoopImplemented J (E.globalObject :: rest) rest events state := by
  intro second first
  have hLoop := @implements_applyEvents J E (E.globalObject :: rest) [second, first]
    events state (by simp; omega) (Or.inl hLength)
  have hHeap : applyInTurn J ([second, first] ++ [E.globalObject]) (events.map cut) state =
      applyInTurn J [second, first] (events.map cut) state :=
    applyInTurn_append J _ _ (by simpa using hLength)
  have hDrop : [second, first, E.globalObject].drop events.length ++ rest =
      [second, first].drop events.length ++ E.globalObject :: rest := by
    have hCount : events.length = 0 ∨ events.length = 1 ∨ events.length = 2 := by omega
    rcases hCount with h | h | h <;> rw [h] <;> rfl
  rw [hDrop]
  change Implements _ _ _ _ _ (applyInTurn J ([second, first] ++ [E.globalObject]) _ _)
  rw [hHeap]
  exact hLoop

/-- The last `pop` finds the first function after one event and the global object
after two. -/
theorem drop_eq_cons_stackAfter (second first : E.Val) (rest : List E.Val) {n : Nat}
    (hSome : n ≠ 0) (hLength : n ≤ 2) :
    ∃ v, [second, first, E.globalObject].drop n ++ rest = v :: stackAfter n rest := by
  have hCount : n = 1 ∨ n = 2 := by omega
  rcases hCount with rfl | rfl
  · exact ⟨first, rfl⟩
  · exact ⟨E.globalObject, rfl⟩

/-- The loop and the last `pop`. -/
theorem implements_loop {base : List E.Val} {events : List Event} {initState : Json}
    (hLoop : LoopImplemented J base rest events initState) (hSome : events.length ≠ 0)
    (second first : E.Val) :
    Implements base (second :: first :: E.globalObject :: rest)
      (do
        let state ← events.foldlM (applyEvent J) initState
        pop
        pure state) id
      (fun _ => stackAfter events.length rest)
      (applyInTurn J [second, first, E.globalObject] (events.map cut) initState) := by
  rw [← bind_pure (applyInTurn J _ _ _)]
  refine (hLoop second first).bind_of_returned fun state heap heap' hReturned => ?_
  -- More than two events do not get here.
  have hLength : (events.map cut).length ≤ 2 :=
    @applyInTurn_length J E [second, first] _ _ _ _ _ hReturned
  rw [List.length_map] at hLength
  obtain ⟨v, hAfter⟩ := drop_eq_cons_stackAfter second first rest hSome hLength
  rw [hAfter]
  refine (implements_pop v).bind_pure_left ?_ heap'
  exact .pure base id (fun _ => stackAfter events.length rest) state

/-- `call_projection` on the stack that `read` leaves.  What an exception leaves
untouched is what the loop leaves untouched. -/
theorem implements_callProjection {base : List E.Val} {slotZero : E.Val}
    {events : List Event} {initState : Json} (fnName : String) (own : List E.Val)
    (hOwn : E.globalObject :: rest = own ++ base)
    (hLoop : LoopImplemented J base rest events initState)
    (hSlot : slot (E.globalObject :: rest) 0 = some slotZero)
    (hRoom : rest.length + 4 < E.reserve) :
    Implements base (E.globalObject :: rest) (callProjection J fnName events initState) id
      (fun _ => stackAfter events.length rest)
      (callFrom J slotZero fnName events initState) := by
  unfold callProjection callFrom
  by_cases hNone : events.length = 0
  · rw [if_pos hNone, if_pos hNone, stackAfter, if_pos (by omega)]
    exact .pure base id (fun _ => E.globalObject :: rest) initState
  · rw [if_neg hNone, if_neg hNone]
    have hValid : Implements base (E.globalObject :: rest) (isValidIndex 0) id
        (fun _ => E.globalObject :: rest) (pure true : Js E Bool) := by
      intro heap
      rw [isValidIndex, hSlot]
      exact .returned true heap
    refine hValid.bind_pure_left ?_
    refine (Implements.pure base id (fun _ => E.globalObject :: rest) ()).bind_pure_left ?_
    refine (implements_pushFunction own fnName hOwn hSlot
      (by simp; omega)).bind fun first => ?_
    refine (implements_pushFunction (first :: own) fnName (congrArg (first :: ·) hOwn)
      ((slot_zero_cons first _ rest).trans hSlot) (by simp; omega)).bind fun second => ?_
    exact implements_loop J hLoop hNone second first

/-- Slot 0 after `read`: the lowest value of a stack that was not empty. -/
def slotZero (stack : List E.Val) : E.Val := stack.getLast?.getD E.globalObject

theorem slot_slotZero (stack : List E.Val) :
    slot (E.globalObject :: stack) 0 = some (slotZero stack) := by
  rw [slot_bottom, List.getLast?_cons]
  rfl

/-- A play, on any stack that leaves room for it. -/
theorem implements_play (rest : List E.Val) (source fnName : String)
    (events : List Event) (initState : Json) (hRoom : rest.length + 4 < E.reserve) :
    Implements rest rest
      (do read source; callProjection J fnName events initState : DukProg E Json) id
      (fun _ => stackAfter events.length rest)
      (playFrom J (slotZero rest) source fnName events initState) := by
  refine (implements_read source (by omega)).bind fun _ => ?_
  exact implements_callProjection J fnName [E.globalObject] rfl
    (loopImplemented J events initState hRoom) (slot_slotZero rest) hRoom

/-- A call that returns on the heap, above any stack. -/
theorem callProjection_of_returned {rest : List E.Val} {fnName : String}
    {events : List Event} {initState state : Json} {heap heap' : E.Heap}
    (hRoom : rest.length + 4 < E.reserve)
    (hCall : callFrom J (slotZero rest) fnName events initState heap =
      .returned state heap') :
    callProjection J fnName events initState ⟨heap, E.globalObject :: rest⟩ =
      .returned state ⟨heap', stackAfter events.length rest⟩ := by
  have hAgrees := implements_callProjection J fnName [E.globalObject] rfl
    (loopImplemented J events initState hRoom) (slot_slotZero rest) hRoom heap
  rw [hCall] at hAgrees
  exact hAgrees.eq_returned

/-! ## With little room

The steps on their own, for a stack that may be nearly full. -/

theorem throwErrorStack_ne_returned {context context' : Context E} {a : α} :
    (throwErrorStack : DukProg E α) context ≠ .returned a context' := by
  intro h
  obtain ⟨_, _, -, h⟩ := Prog.bind_eq_returned.mp h
  obtain ⟨_, _, -, h⟩ := Prog.bind_eq_returned.mp h
  simp at h

theorem peval_apply (source : E.Val) (heap : E.Heap) (hRoom : rest.length < E.reserve) :
    peval (⟨heap, source :: rest⟩ : Context E) =
      .returned (succeeded (E.eval heap source).1)
        ⟨(E.eval heap source).2, outcomeValue (E.eval heap source).1 :: rest⟩ := by
  have hEval : Implements [] (source :: rest) peval succeeded
      (fun outcome => outcomeValue outcome :: rest) (Js.eval source : Js E _) :=
    implements_replaceTop (Js.neverThrows_ofPair _) hRoom
  exact (hEval heap).eq_returned

theorem read_of_ok {source : String} {heap heap₁ : E.Heap} {v : E.Val}
    (hEval : E.eval heap (E.string (cStr source)) = (.ok v, heap₁))
    (hRoom : rest.length < E.reserve) :
    read source ⟨heap, rest⟩ = .returned () ⟨heap₁, E.globalObject :: rest⟩ := by
  have hPeval := peval_apply (E.string (cStr source)) heap hRoom
  rw [hEval] at hPeval
  have hPush : pushString (cStr source) (⟨heap, rest⟩ : Context E) =
      .returned () ⟨heap, E.string (cStr source) :: rest⟩ := by
    rw [pushString, push, if_pos hRoom]
  unfold DukContext.read evaluate
  rw [Prog.bind_of_returned hPush, Prog.bind_of_returned hPeval]
  change pushGlobalObject (⟨heap₁, rest⟩ : Context E) = _
  rw [pushGlobalObject, push, if_pos hRoom]

theorem read_of_error {source : String} {heap heap₁ : E.Heap} {error : E.Val}
    (hEval : E.eval heap (E.string (cStr source)) = (.error error, heap₁))
    (hRoom : rest.length < E.reserve) :
    read source ⟨heap, rest⟩ = throwErrorStack ⟨heap₁, error :: rest⟩ := by
  have hPeval := peval_apply (E.string (cStr source)) heap hRoom
  rw [hEval] at hPeval
  have hPush : pushString (cStr source) (⟨heap, rest⟩ : Context E) =
      .returned () ⟨heap, E.string (cStr source) :: rest⟩ := by
    rw [pushString, push, if_pos hRoom]
  unfold DukContext.read evaluate
  rw [Prog.bind_of_returned hPush, Prog.bind_of_returned hPeval]
  rfl

/-- A pass through the loop needs room for the event object and one property. -/
theorem applyEvent_of_full {state : Json} {event : Event} {heap : E.Heap}
    {stack : List E.Val} (hFull : ¬stack.length + 1 < E.reserve) :
    applyEvent J state event ⟨heap, stack⟩ = .aborted := by
  by_cases hRoom : stack.length < E.reserve
  · have hObject := (@implements_pushObject E [] stack hRoom heap).eq_returned
    rw [applyEvent, Prog.bind_of_returned hObject]
    exact Prog.bind_of_aborted (push_of_full _ hFull)
  · apply Prog.bind_of_aborted
    simp only [pushObject, Prog.bind_apply, Prog.get_apply, onHeap, Prog.zoom, Js.newObject,
      Js.ofPair, Outcome.mapState_returned, push, if_neg hRoom]

/-- With some events, and something in slot 0, the function is pushed twice and the
loop begins. -/
theorem callProjection_of_events {fnName : String} {events : List Event} {initState : Json}
    {heap : E.Heap} {stack : List E.Val} {obj : E.Val} (hSome : events.length ≠ 0)
    (hSlot : slot stack 0 = some obj) :
    callProjection J fnName events initState ⟨heap, stack⟩ =
      (do
        pushFunction 0 fnName
        pushFunction 0 fnName
        let state ← events.foldlM (applyEvent J) initState
        pop
        pure state : DukProg E Json) ⟨heap, stack⟩ := by
  have hValid : isValidIndex 0 (⟨heap, stack⟩ : Context E) = .returned true ⟨heap, stack⟩ := by
    rw [isValidIndex, hSlot]
    rfl
  rw [callProjection, if_neg hSome, Prog.bind_of_returned hValid]
  rfl

/-- When the source evaluates and there are at most two events, what an exception
leaves behind lies on top of the global object. -/
theorem play_threw_of_le_two {rest : List E.Val} {source fnName : String}
    {events : List Event} {initState : Json} {heap heap₁ heap' : E.Heap} {error : Exn}
    {stack : List E.Val} (hRoom : rest.length + 4 < E.reserve)
    (hSource : evalSource (cStr source) heap = .returned () heap₁)
    (hLength : events.length ≤ 2)
    (hThrew : (do read source; callProjection J fnName events initState : DukProg E Json)
      ⟨heap, rest⟩ = .threw error ⟨heap', stack⟩) :
    ∃ residue, stack = residue ++ E.globalObject :: rest := by
  have hRead := @implements_read E rest source (by omega) heap
  rw [hSource] at hRead
  have hCall := implements_callProjection J fnName [] rfl
    (loopImplemented_of_le_two J initState hRoom hLength) (slot_slotZero rest) hRoom heap₁
  rw [Prog.bind_of_returned hRead.eq_returned] at hThrew
  rw [hThrew] at hCall
  generalize callFrom J (slotZero rest) fnName events initState heap₁ = outcome at hCall
  cases hCall with
  | threw _ _ residue hResidue => exact ⟨residue, rfl⟩

end Replay

end Ext
end Yess

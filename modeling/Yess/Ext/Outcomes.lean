import Yess.Ext.Fold

namespace Yess
namespace Ext

open Foundation ValueStack Db DukContext

/-!
# Which JavaScript outcomes can be reported

A thrown value is reported by its `stack` property, read outside a protected call;
a returned value is reported by its JSON text, made outside a protected call and
then taken for a C string.  `CallReportable` says when this works, and the
definitions after it say so of the outcomes that a play meets one after the other,
with the room that each of them needs on the value stack.  `reported_play_iff` is the
result: exactly then does the play return or throw an exception that its caller catches.

A play reaches every height of the stack before it decodes or encodes JSON for the first
time, so that what these functions add to the reserve comes too late to help it.
-/

variable (J : JsonText) {E : Duktape}

namespace Replay

/-- What the caller of a play catches: `std::runtime_error`, and perhaps more. -/
structure Caller where
  catches : Exn → Prop
  catches_runtimeError : ∀ error, error.isRuntimeError = true → catches error

/-- `Play::execute` catches `std::runtime_error`. -/
def shellCaller : Caller where
  catches := fun error => error.isRuntimeError = true
  catches_runtimeError := fun _ hRuntime => hRuntime

/-- `Grpc_service::Play` catches `std::exception`. -/
def serviceCaller : Caller where
  catches := fun _ => True
  catches_runtimeError := fun _ _ => trivial

variable (caller : Caller)

/-- The `stack` property of a thrown value can be read; a returned value has a JSON
text, or the caller catches what `std::string` throws for want of one. -/
def CallReportable (outcome : Except E.Val E.Val) (heap : E.Heap) : Prop :=
  match outcome with
  | .ok result => ∃ text heap', E.jsonEncode heap result = some (text, heap') ∧
      ∀ error, stdString text = .error error → caller.catches error
  | .error error => (E.getProp heap error "stack").isSome

/-- The two arguments of a call. -/
def arguments (state : Json) (event : Event) : Js E (E.Val × E.Val) := do
  let ev ← eventObject event
  let stateValue ← Js.jsonDecode (E.string (J.dump state))
  pure (ev, stateValue)

/-- The arguments can be made, and the outcome of the call with them is
reportable. -/
def StepReportable (f : E.Val) (state : Json) (event : Event) (heap : E.Heap) : Prop :=
  ∃ args heap₁, arguments J state event heap = .returned args heap₁ ∧
    CallReportable caller (E.call heap₁ f [args.1, args.2]).1 (E.call heap₁ f [args.1, args.2]).2

/-- Each call is reportable, as long as the calls before it gave a state. -/
def InTurnReportable : List E.Val → List Event → Json → E.Heap → Prop
  | _, [], _, _ => True
  | [], _ :: _, _, _ => False
  | f :: callees, event :: events, state, heap =>
      StepReportable J caller f state event heap ∧
        ∀ state' heap', applyFunction J f state event heap = .returned state' heap' →
          InTurnReportable callees events state' heap'

/-- The function can be looked up, found or not. -/
def LookupReportable (obj : E.Val) (fnName : String) (heap : E.Heap) : Prop :=
  (E.getProp heap obj (cStr fnName)).isSome

/-- Both lookups and all calls are reportable, each with room on the stack for what it
pushes above the global object. -/
def CallsReportable (stack : List E.Val) (fnName : String) (events : List Event)
    (initState : Json) (heap : E.Heap) : Prop :=
  events.length ≠ 0 →
    stack.length + 1 < E.reserve ∧ LookupReportable (slotZero stack) fnName heap ∧
      ∀ first heap₁, findFunction (slotZero stack) fnName heap = .returned first heap₁ →
        stack.length + 2 < E.reserve ∧ LookupReportable (slotZero stack) fnName heap₁ ∧
          ∀ second heap₂,
            findFunction (slotZero stack) fnName heap₁ = .returned second heap₂ →
              stack.length + 4 < E.reserve ∧
                InTurnReportable J caller [second, first, E.globalObject] (events.map cut)
                  initState heap₂

/-- The evaluation of the source is reportable, and so is what comes after it. -/
def OutcomesReportable (stack : List E.Val) (source fnName : String) (events : List Event)
    (initState : Json) (heap : E.Heap) : Prop :=
  stack.length < E.reserve ∧
    match E.eval heap (E.string (cStr source)) with
    | (.ok _, heap₁) => CallsReportable J caller stack fnName events initState heap₁
    | (.error error, heap₁) =>
        stack.length + 1 < E.reserve ∧ (E.getProp heap₁ error "stack").isSome

/-! ## Reported exactly then -/

/-- A return, or an exception that the caller catches. -/
abbrev Reported {σ α : Type} (outcome : Outcome Exn σ α) : Prop :=
  outcome.EndsWell caller.catches

variable {caller}

theorem reported_ofOption_iff {α : Type} (f : E.Heap → Option (α × E.Heap)) (heap : E.Heap) :
    Reported caller (Js.ofOption f heap) ↔ (f heap).isSome := by
  unfold Js.ofOption
  cases f heap <;> simp [Outcome.EndsWell]

theorem reported_ofPair {α : Type} (f : E.Heap → α × E.Heap) (heap : E.Heap) :
    Reported caller (Js.ofPair f heap) := trivial

theorem reported_reportError_iff {α : Type} (error : E.Val) (heap : E.Heap) :
    Reported caller ((reportError error : Js E α) heap) ↔
      (E.getProp heap error "stack").isSome := by
  rw [reportError, Reported, Prog.endsWell_bind_iff]
  refine Iff.trans (and_iff_left ?_) (reported_ofOption_iff _ heap)
  intro stack heap' _
  exact Prog.endsWell_bind_iff.mpr
    ⟨reported_ofPair _ _, fun _ _ _ => caller.catches_runtimeError _ rfl⟩

theorem reported_parseResult (text : String) (heap : E.Heap) :
    Reported caller ((Prog.ofExcept (parseResult J text) : Js E Json) heap) := by
  unfold parseResult
  cases J.parse text with
  | some state => trivial
  | none => exact caller.catches_runtimeError _ rfl

theorem reported_resultState_iff (outcome : Except E.Val E.Val) (heap : E.Heap) :
    Reported caller (resultState J outcome heap) ↔ CallReportable caller outcome heap := by
  cases outcome with
  | error error => exact reported_reportError_iff error heap
  | ok result =>
      rw [resultState, Reported, Prog.endsWell_bind_iff]
      change Reported caller (Js.jsonEncode result heap) ∧ _ ↔ _
      rw [Js.jsonEncode, reported_ofOption_iff]
      simp only [CallReportable, Js.ofOption]
      cases hEncode : E.jsonEncode heap result with
      | none => simp
      | some encoded =>
          obtain ⟨text, heap'⟩ := encoded
          simp only [Option.isSome_some, Outcome.returned.injEq, and_imp, true_and,
            Option.some.injEq, Prod.mk.injEq]
          cases text with
          | none => simp [stdString, Prog.ofExcept, Prog.bind_apply, Outcome.EndsWell]
          | some text =>
              refine iff_of_true ?_ ⟨some text, heap', ⟨rfl, rfl⟩, by simp [stdString]⟩
              rintro _ _ rfl rfl
              exact reported_parseResult J text heap'

theorem neverThrows_arguments (state : Json) (event : Event) :
    Js.NeverThrows (arguments J state event : Js E (E.Val × E.Val)) := by
  refine Js.NeverThrows.bind ?_ fun ev =>
    (Js.neverThrows_ofOption _).bind fun stateValue => Js.neverThrows_pure _
  exact (Js.neverThrows_ofPair _).bind fun ev => (Js.neverThrows_ofOption _).bind fun _ =>
    (Js.neverThrows_ofOption _).bind fun payload => (Js.neverThrows_ofOption _).bind fun _ =>
      (Js.neverThrows_ofOption _).bind fun _ => (Js.neverThrows_ofOption _).bind fun _ =>
        (Js.neverThrows_ofOption _).bind fun _ => Js.neverThrows_pure ev

theorem applyFunction_eq (f : E.Val) (state : Json) (event : Event) :
    applyFunction J f state event = (do
      let args ← arguments J state event
      let outcome ← Js.call f [args.1, args.2]
      resultState J outcome) := by
  simp only [applyFunction, arguments, bind_assoc, pure_bind]

/-- One step of a replay is reported exactly when its call is reportable. -/
theorem reported_applyFunction_iff (f : E.Val) (state : Json) (event : Event)
    (heap : E.Heap) :
    Reported caller (applyFunction J f state event heap) ↔
      StepReportable J caller f state event heap := by
  have hCall : ∀ args heap₁,
      Reported caller ((do
        let outcome ← Js.call f args
        resultState J outcome : Js E Json) heap₁) ↔
      CallReportable caller (E.call heap₁ f args).1 (E.call heap₁ f args).2 := fun args heap₁ =>
    reported_resultState_iff J _ _
  rw [applyFunction_eq]
  unfold StepReportable
  cases hArguments : arguments J state event heap with
  | returned args heap₁ =>
      rw [Prog.bind_of_returned hArguments, hCall]
      simp
  | threw error heap₁ =>
      exact absurd hArguments (neverThrows_arguments J state event heap error heap₁)
  | aborted =>
      rw [Prog.bind_of_aborted hArguments]
      simp [Outcome.EndsWell]

theorem reported_applyInTurn_iff (callees : List E.Val) (events : List Event) (state : Json)
    (heap : E.Heap) :
    Reported caller (applyInTurn J callees events state heap) ↔
      InTurnReportable J caller callees events state heap := by
  induction callees generalizing events state heap with
  | nil =>
      cases events with
      | nil => exact Iff.rfl
      | cons event events => exact Iff.rfl
  | cons callee callees ih =>
      cases events with
      | nil => exact Iff.rfl
      | cons event events =>
          rw [applyInTurn, Reported, Prog.endsWell_bind_iff, InTurnReportable]
          refine and_congr (reported_applyFunction_iff J callee state event heap) ?_
          exact forall₃_congr fun state' heap' _ => ih events state' heap'

theorem reported_findFunction_iff (obj : E.Val) (fnName : String) (heap : E.Heap) :
    Reported caller (findFunction obj fnName heap) ↔ LookupReportable obj fnName heap := by
  rw [findFunction, Reported, Prog.endsWell_bind_iff]
  refine Iff.trans (and_iff_left ?_) (reported_ofOption_iff _ heap)
  intro property heap' _
  refine Prog.endsWell_bind_iff.mpr ⟨?_, fun _ _ _ => trivial⟩
  unfold ensure
  cases property.1 with
  | true => trivial
  | false => exact caller.catches_runtimeError _ rfl

/-! ## On the value stack -/

theorem reported_pushFunction_bind_iff {α : Type} {k : Unit → DukProg E α}
    {stack : List E.Val} {obj : E.Val} (fnName : String) (heap : E.Heap)
    (hSlot : slot stack 0 = some obj) :
    Reported caller ((pushFunction 0 fnName >>= k) (⟨heap, stack⟩ : Context E)) ↔
      stack.length < E.reserve ∧ LookupReportable obj fnName heap ∧
        ∀ f heap₁, findFunction obj fnName heap = .returned f heap₁ →
          Reported caller (k () ⟨heap₁, f :: stack⟩) := by
  by_cases hRoom : stack.length < E.reserve
  · have hPush := @implements_pushFunction E [] obj stack stack fnName
      (List.append_nil _).symm hSlot hRoom
    rw [Reported, hPush.endsWell_bind_iff heap, and_iff_right hRoom]
    exact and_congr_left fun _ => reported_findFunction_iff obj fnName heap
  · have hAborted : pushFunction 0 fnName (⟨heap, stack⟩ : Context E) = .aborted :=
      Prog.bind_of_aborted (getPropString_of_full hRoom)
    rw [Prog.bind_of_aborted hAborted]
    exact iff_of_false id fun h => hRoom h.1

/-- The loop above the two functions and the global object. -/
theorem reported_loop_iff {stack : List E.Val} {events : List Event} {initState : Json}
    (second first : E.Val) (heap : E.Heap) (hSome : events.length ≠ 0) :
    Reported caller ((do
        let state ← events.foldlM (applyEvent J) initState
        pop
        pure state : DukProg E Json) ⟨heap, second :: first :: E.globalObject :: stack⟩) ↔
      stack.length + 4 < E.reserve ∧
        InTurnReportable J caller [second, first, E.globalObject] (events.map cut) initState
          heap := by
  by_cases hRoom : stack.length + 4 < E.reserve
  · have hLoop := implements_loop J (loopImplemented J events initState hRoom) hSome
      second first heap
    rw [Reported, hLoop.endsWell_iff, and_iff_right hRoom]
    exact reported_applyInTurn_iff J _ _ _ heap
  · cases events with
    | nil => exact absurd rfl hSome
    | cons event events =>
        have hAborted := @applyEvent_of_full J E initState event heap
          (second :: first :: E.globalObject :: stack)
          (by simpa using hRoom)
        rw [List.foldlM_cons, Prog.bind_of_aborted (Prog.bind_of_aborted hAborted)]
        exact iff_of_false id fun h => hRoom h.1

theorem reported_callProjection_iff (stack : List E.Val) (fnName : String)
    (events : List Event) (initState : Json) (heap : E.Heap) :
    Reported caller (callProjection J fnName events initState ⟨heap, E.globalObject :: stack⟩) ↔
      CallsReportable J caller stack fnName events initState heap := by
  unfold CallsReportable
  by_cases hNone : events.length = 0
  · rw [callProjection, if_pos hNone]
    exact iff_of_true trivial fun hSome => absurd hNone hSome
  · have hSlot := slot_slotZero stack
    rw [callProjection_of_events J hNone hSlot, imp_iff_right hNone]
    refine (reported_pushFunction_bind_iff fnName heap hSlot).trans ?_
    refine and_congr Iff.rfl (and_congr Iff.rfl (forall₃_congr fun first heap₁ _ => ?_))
    refine (reported_pushFunction_bind_iff fnName heap₁
      ((slot_zero_cons first _ stack).trans hSlot)).trans ?_
    refine and_congr Iff.rfl (and_congr Iff.rfl (forall₃_congr fun second heap₂ _ => ?_))
    exact reported_loop_iff J second first heap₂ hNone

/-- On any value stack, a play returns or throws what its caller catches exactly when every
outcome that it meets is reportable. -/
theorem reported_play_iff (stack : List E.Val) (source fnName : String)
    (events : List Event) (initState : Json) (heap : E.Heap) :
    Reported caller ((do read source; callProjection J fnName events initState : DukProg E Json)
        ⟨heap, stack⟩) ↔
      OutcomesReportable J caller stack source fnName events initState heap := by
  unfold OutcomesReportable
  by_cases hRoom : stack.length < E.reserve
  · rw [and_iff_right hRoom]
    rcases hEval : E.eval heap (E.string (cStr source)) with ⟨error | v, heap₁⟩
    · have hRead := read_of_error hEval hRoom
      by_cases hMore : stack.length + 1 < E.reserve
      · have hReport := @implements_throwErrorStack E Unit stack error id (fun _ => []) hMore heap₁
        rw [Reported, Prog.endsWell_bind_iff, hRead, hReport.endsWell_iff]
        refine Iff.trans (and_iff_left ?_)
          ((reported_reportError_iff error heap₁).trans (and_iff_right hMore).symm)
        intro a c hReturned
        rw [hReturned] at hReport
        generalize hHeap : (reportError error : Js E Unit) heap₁ = outcome at hReport
        cases hReport with
        | returned => exact absurd hHeap (reportError_ne_returned error heap₁ _ _)
      · have hAborted : (throwErrorStack : DukProg E Unit) ⟨heap₁, error :: stack⟩ =
            .aborted := Prog.bind_of_aborted (getPropString_of_full hMore)
        rw [Prog.bind_of_aborted (hRead.trans hAborted)]
        exact iff_of_false id fun h => hMore h.1
    · rw [Prog.bind_of_returned (read_of_ok hEval hRoom)]
      exact reported_callProjection_iff J stack fnName events initState heap₁
  · have hAborted : read source (⟨heap, stack⟩ : Context E) = .aborted :=
      Prog.bind_of_aborted (push_of_full _ hRoom)
    rw [Prog.bind_of_aborted hAborted]
    exact iff_of_false id fun h => hRoom h.1

/-- A call that meets reportable outcomes only has the room that it needs, and ends as
it does on the heap. -/
theorem endsWell_callProjection_iff {kind : Exn → Prop} {stack : List E.Val}
    {fnName : String} {events : List Event} {initState : Json} {heap : E.Heap}
    (hReportable : CallsReportable J caller stack fnName events initState heap) :
    (callProjection J fnName events initState
        (⟨heap, E.globalObject :: stack⟩ : Context E)).EndsWell kind ↔
      (callFrom J (slotZero stack) fnName events initState heap).EndsWell kind := by
  by_cases hNone : events.length = 0
  · rw [callProjection, if_pos hNone, callFrom, if_pos hNone]
    exact Iff.rfl
  · obtain ⟨hRoom, -, hFirst⟩ := hReportable hNone
    have hSlot := slot_slotZero stack
    rw [callProjection_of_events J hNone hSlot, callFrom, if_neg hNone]
    have hPush := @implements_pushFunction E [] (slotZero stack) (E.globalObject :: stack)
      (E.globalObject :: stack) fnName (List.append_nil _).symm hSlot (by simpa using hRoom)
    rw [hPush.endsWell_bind_iff heap, Prog.endsWell_bind_iff]
    refine and_congr Iff.rfl (forall₃_congr fun first heap₁ hFound => ?_)
    obtain ⟨hRoom', -, hSecond⟩ := hFirst first heap₁ hFound
    have hPush' := @implements_pushFunction E [] (slotZero stack)
      (first :: E.globalObject :: stack) (first :: E.globalObject :: stack) fnName
      (List.append_nil _).symm ((slot_zero_cons first _ stack).trans hSlot)
      (by simpa using hRoom')
    rw [hPush'.endsWell_bind_iff heap₁, Prog.endsWell_bind_iff]
    refine and_congr Iff.rfl (forall₃_congr fun second heap₂ hFound' => ?_)
    obtain ⟨hRoom'', -⟩ := hSecond second heap₂ hFound'
    exact (implements_loop J (loopImplemented J events initState hRoom'') hNone second first
      heap₂).endsWell_iff

/-- A play that meets reportable outcomes only ends as it does on the heap. -/
theorem endsWell_play_iff {kind : Exn → Prop} {stack : List E.Val} {source fnName : String}
    {events : List Event} {initState : Json} {heap : E.Heap}
    (hReportable : OutcomesReportable J caller stack source fnName events initState heap) :
    ((do read source; callProjection J fnName events initState : DukProg E Json)
        ⟨heap, stack⟩).EndsWell kind ↔
      (playFrom J (slotZero stack) source fnName events initState heap).EndsWell kind := by
  obtain ⟨hRoom, hOutcome⟩ := hReportable
  rcases hEval : E.eval heap (E.string (cStr source)) with ⟨error | v, heap₁⟩
  · rw [hEval] at hOutcome
    rw [(implements_read source hOutcome.1).endsWell_bind_iff heap, playFrom,
      Prog.endsWell_bind_iff]
    refine and_congr Iff.rfl (forall₃_congr fun _ heap' hSource => ?_)
    -- The evaluation has thrown, so that nothing comes after it.
    simp only [evalSource, Js.eval, Js.ofPair, Prog.bind_apply, hEval] at hSource
    exact absurd hSource (reportError_ne_returned error _ heap' _)
  · rw [hEval] at hOutcome
    rw [Prog.bind_of_returned (read_of_ok hEval hRoom), playFrom,
      Prog.bind_of_returned (evalSource_of_ok hEval)]
    exact endsWell_callProjection_iff J hOutcome

/-- A play that has room and returns on the heap meets reportable outcomes only. -/
theorem outcomesReportable_of_returned {stack : List E.Val} {source fnName : String}
    {events : List Event} {initState state : Json} {heap heap' : E.Heap}
    (hRoom : stack.length + 4 < E.reserve)
    (hReturned : playFrom J (slotZero stack) source fnName events initState heap =
      .returned state heap') :
    OutcomesReportable J caller stack source fnName events initState heap := by
  have hAgrees := implements_play J stack source fnName events initState hRoom heap
  rw [← reported_play_iff, Reported, hAgrees.endsWell_iff, hReturned]
  trivial

/-! ## The state that is returned -/

variable {property : Json → Prop}

theorem yields_parseResult (hParse : ∀ text value, J.parse text = some value → property value)
    (text : String) :
    Prog.Yields property (Prog.ofExcept (parseResult J text) : DukProg E Json) := by
  intro c state c' hReturned
  unfold parseResult at hReturned
  cases hText : J.parse text with
  | some value =>
      rw [hText] at hReturned
      rw [← (Outcome.returned.inj hReturned).1]
      exact hParse text value hText
  | none =>
      rw [hText] at hReturned
      simp [Prog.ofExcept] at hReturned

/-- After a pass through the loop the state is one that was parsed. -/
theorem yields_applyEvent (hParse : ∀ text value, J.parse text = some value → property value)
    (state : Json) (event : Event) :
    Prog.Yields property (applyEvent J state event : DukProg E Json) := by
  unfold applyEvent
  repeat refine Prog.yields_bind fun _ => ?_
  rename_i succeeded
  by_cases hSucceeded : succeeded = true
  · rw [if_pos hSucceeded]
    refine Prog.yields_bind fun json => Prog.yields_bind fun text => ?_
    refine (yields_parseResult J hParse text).bind fun state' hState' => ?_
    exact Prog.yields_bind fun _ => Prog.yields_pure hState'
  · rw [if_neg hSucceeded]
    intro c state' c' hReturned
    exact absurd hReturned throwErrorStack_ne_returned

/-- What holds of the initial state and of everything that can be parsed holds of the
state that a play returns. -/
theorem yields_callProjection
    (hParse : ∀ text value, J.parse text = some value → property value) (fnName : String)
    (events : List Event) {initState : Json} (hInit : property initState) :
    Prog.Yields property (callProjection J fnName events initState : DukProg E Json) := by
  have hLoop : ∀ state, property state →
      Prog.Yields property (events.foldlM (applyEvent J) state : DukProg E Json) := by
    intro state hState
    induction events generalizing state with
    | nil => exact Prog.yields_pure hState
    | cons event events ih =>
        rw [List.foldlM_cons]
        exact (yields_applyEvent J hParse state event).bind fun state' hState' => ih state' hState'
  unfold callProjection
  by_cases hNone : events.length = 0
  · rw [if_pos hNone]
    exact Prog.yields_pure hInit
  · rw [if_neg hNone]
    iterate 4 refine Prog.yields_bind fun _ => ?_
    refine (hLoop initState hInit).bind fun state hState => ?_
    exact Prog.yields_bind fun _ => Prog.yields_pure hState

end Replay

end Ext
end Yess

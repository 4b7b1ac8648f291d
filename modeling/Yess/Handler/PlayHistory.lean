import Yess.Ext.Fold
import Yess.Handler.PlaySteps

namespace Yess
namespace ActionHandler

open Foundation ValueStack Db Ext Replay

/-!
# A play after other plays

The value stack of the context is never emptied, and `call_projection` looks into
its slot 0.  As long as that slot can only hold the global object, a projection
that depends on nothing but its own source plays as on a new handler
(`play_after_history`).  The first play that finds the stack empty and leaves an
error value there ends this for all later ones (`play_after_failed_source`).
-/

variable {J : JsonText} {E : Duktape} {plan : Plan} {request : PlayRequest}

/-- Every play starts with room on the stack, and a play that loads on an empty
stack has a source that evaluates and at most two events. -/
def SettlesStack (plan : Plan) (h : Handler E) (label : HandlerLabel)
    (_h' : Handler E) : Prop :=
  ∀ request reply proj events, label = .play request reply →
    load plan request h.connection = .returned (proj, events) h.connection →
      HasRoom h ∧
        (h.context.stack = [] →
          (∃ heap₁, evalSource (cStr proj.data) h.context.heap = .returned () heap₁) ∧
            events.length ≤ 2)

/-- The projection plays by its own source alone: on the present heap and on a new
one its source defines the function, and the play means the same. -/
structure SelfContained (J : JsonText) {E : Duktape} (source fnName : String)
    (events : List Event) (init : Json) (heap : E.Heap) : Prop where
  defines : ∀ heap₁, evalSource (cStr source) heap = .returned () heap₁ →
    ∃ f, Defines heap₁ fnName f
  definesFresh : ∀ heap₁, evalSource (cStr source) E.defaultHeap = .returned () heap₁ →
    ∃ f, Defines heap₁ fnName f
  value_eq : (play J source fnName events init heap).value =
    (play J source fnName events init E.defaultHeap).value

/-! ## Slot 0 -/

theorem slotZero_append {stack : List E.Val} (above : List E.Val) (hStack : stack ≠ []) :
    slotZero (above ++ stack) = slotZero stack := by
  unfold slotZero
  rw [List.getLast?_append_of_ne_nil _ hStack]

theorem slotZero_append_global (above : List E.Val) :
    slotZero (above ++ [E.globalObject]) = E.globalObject := by
  simp [slotZero]

theorem slotZero_stackAfter {n : Nat} {stack : List E.Val}
    (hSlot : slotZero stack = E.globalObject) :
    slotZero (stackAfter n stack) = E.globalObject := by
  unfold stackAfter
  by_cases hFew : n ≤ 1
  · rw [if_pos hFew]
    cases stack with
    | nil => rfl
    | cons v stack =>
        rw [← List.singleton_append, slotZero_append _ (List.cons_ne_nil _ _)]
        exact hSlot
  · rw [if_neg hFew]
    exact hSlot

/-- A step under the condition keeps the global object in slot 0. -/
theorem SettlesStack.slotZero_eq {h h' : Handler E} {label : HandlerLabel}
    (hSettles : SettlesStack plan h label h') (hStep : HandlerStep J plan h label h')
    (hSlot : slotZero h.context.stack = E.globalObject) :
    slotZero h'.context.stack = E.globalObject := by
  cases label with
  | store =>
      cases hStep with
      | store c => exact hSlot
  | play request reply =>
      rcases reads_load plan request h.connection with
        ⟨⟨proj, events⟩, hLoad⟩ | ⟨error, hLoad⟩
      · obtain ⟨hRoom, hEmpty⟩ := hSettles request reply proj events rfl hLoad
        cases play_effect hRoom.lt_reserve hStep with
        | notLoaded error hFailed => exact hSlot
        | returned proj' events' state heap hLoad' hPlay => exact slotZero_stackAfter hSlot
        | threw proj' events' error heap residue hLoad' hPlay hResidue hGlobal =>
            obtain ⟨rfl, rfl⟩ := load_unique hLoad hLoad'
            change slotZero (residue ++ h.context.stack) = E.globalObject
            -- Only on an empty stack does what is left behind become slot 0.
            by_cases hStack : h.context.stack = []
            · obtain ⟨⟨heap₁, hSource⟩, hLength⟩ := hEmpty hStack
              obtain ⟨above, rfl⟩ := hGlobal heap₁ hSource hLength
              rw [hStack, List.append_nil]
              exact slotZero_append_global above
            · rw [slotZero_append _ hStack]
              exact hSlot
      · cases hStep with
        | play hReply hState =>
            rw [playProjection_of_not_loaded hLoad] at hState
            obtain rfl := Option.some.inj hState
            exact hSlot

theorem slotZero_of_run {h₀ h : Handler E} {labels : List HandlerLabel}
    (hFresh : h₀.context = DukContext.fresh E)
    (hRun : Run (StepWith (HandlerStep J plan) (SettlesStack plan)) h₀ labels h) :
    slotZero h.context.stack = E.globalObject :=
  hRun.stateInvariant (fun h => slotZero h.context.stack = E.globalObject)
    (by rw [hFresh]; rfl)
    fun _ _ _ hSlot hStep => hStep.2.slotZero_eq hStep.1 hSlot

/-! ## The later play -/

/-- With the global object in slot 0, a self-contained projection gives on any heap
the state that it gives on a new one, or none on either. -/
theorem SelfContained.playFrom_value {source fnName : String} {events : List Event}
    {init : Json} {heap : E.Heap} (hSelf : SelfContained J source fnName events init heap) :
    (playFrom J E.globalObject source fnName events init heap).value =
      (playFrom J E.globalObject source fnName events init E.defaultHeap).value := by
  by_cases hLength : events.length ≤ 2
  · rw [playFrom_eq_play J hLength hSelf.defines,
      playFrom_eq_play J hLength hSelf.definesFresh]
    exact hSelf.value_eq
  -- With more than two events a play returns on no heap at all.
  · have hNone : ∀ heap : E.Heap,
        (playFrom J E.globalObject source fnName events init heap).value = none := by
      intro heap
      rw [Option.eq_none_iff_forall_ne_some]
      intro result hResult
      obtain ⟨heap', hReturned⟩ := Outcome.value_eq_some_iff.mp hResult
      exact hLength (playFrom_length J hReturned)
    rw [hNone, hNone]

/-- After any run on a handler whose context was fresh, in which every play starts
with room on the stack and no play that finds the stack empty has a source that
fails or more than two events: a self-contained projection, played with room on the
stack, returns the state that it returns on a new handler over the same store, or
fails where it fails there. -/
theorem play_after_history {h₀ h : Handler E} {labels : List HandlerLabel}
    (hFresh : h₀.context = DukContext.fresh E)
    (hRun : Run (StepWith (HandlerStep J plan) (SettlesStack plan)) h₀ labels h)
    (hRoom : HasRoom h)
    (hSelf : ∀ proj events,
      load plan request h.connection = .returned (proj, events) h.connection →
        SelfContained J proj.data request.fnName events request.init h.context.heap) :
    (playProjection J plan request h).value =
      (playProjection J plan request ⟨h.connection, DukContext.fresh E⟩).value := by
  rcases reads_load plan request h.connection with
    ⟨⟨proj, events⟩, hLoad⟩ | ⟨error, hLoad⟩
  · have hFreshRoom : HasRoom (⟨h.connection, DukContext.fresh E⟩ : Handler E) := by
      simp [HasRoom, DukContext.fresh, apiEntryStack]
    have hHere := playProjection_result (J := J) hRoom hLoad
    have hThere := playProjection_result (J := J) hFreshRoom hLoad
    rw [Outcome.value_eq_of_result_eq hHere, Outcome.value_eq_of_result_eq hThere,
      slotZero_of_run hFresh hRun]
    exact (hSelf proj events hLoad).playFrom_value
  · rw [playProjection_of_not_loaded hLoad]
    have hNew : load plan request (⟨h.connection, DukContext.fresh E⟩ : Handler E).connection =
        .threw (.sqliteException error) h.connection := hLoad
    rw [playProjection_of_not_loaded hNew]
    rfl

theorem load_sample_zero :
    load samplePlan ⟨2, .integer 1, .id 2, "projection"⟩ sampleConnection =
      .returned (⟨2, "", Sample.zeroSource⟩, [⟨3, 2, "UserCreated", "{}", 1⟩])
        sampleConnection := rfl

/-- The source binds the function, whatever was bound before. -/
theorem defines_of_evalSource_zero {heap heap₁ : Sample.engine.Heap}
    (hSource : evalSource (E := Sample.engine) (cStr Sample.zeroSource) heap =
      .returned () heap₁) :
    ∃ f, Defines heap₁ "projection" f := by
  have hBinds : evalSource (E := Sample.engine) (cStr Sample.zeroSource) heap =
      .returned () (("projection", SampleVal.constant 0) :: heap) := rfl
  obtain ⟨-, rfl⟩ := Outcome.returned.inj (hBinds.symm.trans hSource)
  exact ⟨SampleVal.constant 0, rfl⟩

/-- After a counting play, the other projection gives what it gives on its own. -/
theorem play_after_history_zero :
    (playProjection Sample.jsonText samplePlan ⟨2, .integer 1, .id 2, "projection"⟩
        countedHandler).value =
      (playProjection Sample.jsonText samplePlan ⟨2, .integer 1, .id 2, "projection"⟩
        sampleHandler).value := by
  have hSettles : SettlesStack samplePlan sampleHandler
      (.play countRequest (.ok (.integer 2))) countedHandler := by
    intro request reply proj events hLabel hLoad
    obtain ⟨rfl, rfl⟩ := HandlerLabel.play.inj hLabel
    obtain ⟨rfl, rfl⟩ := load_unique load_countRequest hLoad
    exact ⟨sampleHandler_hasRoom, fun _ => ⟨⟨_, rfl⟩, by decide⟩⟩
  refine play_after_history rfl (.single ⟨countedHandler_step, hSettles⟩)
    countedHandler_hasRoom ?_
  intro proj events hLoad
  obtain ⟨rfl, rfl⟩ := load_unique load_sample_zero hLoad
  exact ⟨fun _ => defines_of_evalSource_zero, fun _ => defines_of_evalSource_zero, rfl⟩

/-- A play whose source does not evaluate is the first one on a handler.  The error
stays in slot 0, and the next play does not find its function, which it finds on a
new handler. -/
theorem play_after_failed_source :
    ∃ h, Run (HandlerStep Sample.jsonText samplePlan) sampleHandler
        [.play ⟨4, .integer 0, .id 2, "projection"⟩
          (.error (.runtimeError "SyntaxError: parse error"))] h ∧
      (playProjection Sample.jsonText samplePlan ⟨2, .integer 1, .id 2, "projection"⟩
        h).result =
          some (.error (.runtimeError "Function 'projection' is not found!")) ∧
      (playProjection Sample.jsonText samplePlan ⟨2, .integer 1, .id 2, "projection"⟩
        sampleHandler).value = some (.integer 0) := by
  have hStep : HandlerStep Sample.jsonText samplePlan sampleHandler
      (.play ⟨4, .integer 0, .id 2, "projection"⟩
        (.error (.runtimeError "SyntaxError: parse error")))
      ⟨sampleConnection, ⟨[], [.string "SyntaxError: parse error",
        .error "SyntaxError: parse error"]⟩⟩ := .play rfl rfl
  refine ⟨_, .single hStep, rfl, ?_⟩
  rw [Outcome.value_eq_of_result_eq
    (playProjection_result sampleHandler_hasRoom load_sample_zero)]
  rfl

end ActionHandler
end Yess

import Yess.Ext.Fold
import Yess.Handler.PlaySteps

namespace Yess
namespace ActionHandler

open Foundation ValueStack Db Ext Replay

/-!
# The value stack over many plays

A play of two events that goes through leaves the value stack as it was; every
other play that gets past loading leaves something on it (`stackBalanced_iff`).
The context is never emptied, so that each of these plays brings the stack closer
to the end of its reserve.
-/

variable {J : JsonText} {E : Duktape} {plan : Plan}

/-- The value stack after the step is the one before it. -/
def StackBalanced (h : Handler E) (_label : HandlerLabel) (h' : Handler E) : Prop :=
  h'.context.stack = h.context.stack

/-- Either the play does not get past loading, or it is over two events and its
JavaScript goes through: the source evaluates, the function is found and both
calls give a state. -/
def PlaysTwo (J : JsonText) (plan : Plan) (h : Handler E) (label : HandlerLabel)
    (_h' : Handler E) : Prop :=
  ∀ request reply proj events, label = .play request reply →
    load plan request h.connection = .returned (proj, events) h.connection →
      events.length = 2 ∧
        (playFrom J (slotZero h.context.stack) proj.data request.fnName events request.init
          h.context.heap).value.isSome

/-- A play that got past loading is balanced only when it is over two events and
goes through. -/
theorem PlayEffect.playsTwo_of_balanced {h h' : Handler E} {request : PlayRequest}
    {reply : Except Exn Json} {proj : Projection} {events : List Event}
    (hEffect : PlayEffect J plan h request reply h')
    (hLoad : load plan request h.connection = .returned (proj, events) h.connection)
    (hBalanced : h'.context.stack = h.context.stack) :
    events.length = 2 ∧
      (playFrom J (slotZero h.context.stack) proj.data request.fnName events request.init
        h.context.heap).value.isSome := by
  cases hEffect with
  | notLoaded error hFailed =>
      rw [hLoad] at hFailed
      simp at hFailed
  | returned proj' events' state heap hLoad' hPlay =>
      obtain ⟨rfl, rfl⟩ := load_unique hLoad hLoad'
      refine ⟨?_, by rw [hPlay]; rfl⟩
      have hLength := playFrom_length J hPlay
      -- With fewer than two events the global object stays behind.
      by_contra hOther
      have hLonger : stackAfter events.length h.context.stack = h.context.stack :=
        hBalanced
      rw [stackAfter, if_pos (by omega)] at hLonger
      exact List.cons_ne_self _ _ hLonger
  | threw proj' events' error heap residue hLoad' hPlay hResidue hGlobal =>
      have hLonger : residue ++ h.context.stack = h.context.stack := hBalanced
      exact absurd (List.append_left_eq_self.mp hLonger) hResidue

/-- A step with room on the stack is balanced exactly when it is no play, a play
that does not get past loading, or one of two events that goes through. -/
theorem stackBalanced_iff {h h' : Handler E} {label : HandlerLabel} (hRoom : HasRoom h)
    (hStep : HandlerStep J plan h label h') :
    StackBalanced h label h' ↔ PlaysTwo J plan h label h' := by
  cases label with
  | store =>
      cases hStep with
      | store c =>
          constructor
          · rintro - request reply proj events hLabel
            cases hLabel
          · intro _
            rfl
  | play request reply =>
      have hEffect := play_effect hRoom.lt_reserve hStep
      constructor
      · rintro hBalanced _ _ proj events hLabel hLoad
        obtain ⟨rfl, rfl⟩ := HandlerLabel.play.inj hLabel
        exact hEffect.playsTwo_of_balanced hLoad hBalanced
      · intro hCondition
        cases hEffect with
        | notLoaded error hFailed => rfl
        | returned proj events state heap hLoad hPlay =>
            obtain ⟨hLength, -⟩ := hCondition request _ proj events rfl hLoad
            change stackAfter events.length h.context.stack = h.context.stack
            rw [stackAfter, if_neg (by omega)]
        | threw proj events error heap residue hLoad hPlay hResidue hGlobal =>
            obtain ⟨-, hValue⟩ := hCondition request _ proj events rfl hLoad
            rw [hPlay] at hValue
            simp at hValue

/-- In a run on a handler with a fresh context, every step leaves the value stack
as it was exactly when every play of the run is over two events and goes through,
or does not get past loading. -/
theorem plays_balanced_iff {h₀ h : Handler E} {labels : List HandlerLabel}
    (hFresh : h₀.context = DukContext.fresh E) :
    Run (StepWith (HandlerStep J plan) StackBalanced) h₀ labels h ↔
      Run (StepWith (HandlerStep J plan) (PlaysTwo J plan)) h₀ labels h := by
  refine Run.stepWith_iff (fun h => h.context.stack = []) (by rw [hFresh]; rfl) ?_ ?_
  · intro h label h' hEmpty hStep
    exact stackBalanced_iff (by simp [HasRoom, hEmpty, apiEntryStack]) hStep
  · intro h label h' hEmpty _ hBalanced
    exact Eq.trans hBalanced hEmpty

/-- A play of two events. -/
theorem plays_balanced_two_events :
    Run (StepWith (HandlerStep Sample.jsonText samplePlan) StackBalanced) sampleHandler
      [.play countRequest (.ok (.integer 2))] countedHandler := by
  refine (plays_balanced_iff rfl).mpr (.single ⟨countedHandler_step, ?_⟩)
  intro request reply proj events hLabel hLoad
  obtain ⟨rfl, rfl⟩ := HandlerLabel.play.inj hLabel
  obtain ⟨rfl, rfl⟩ := load_unique load_countRequest hLoad
  exact ⟨rfl, rfl⟩

/-- A play of no events returns its initial state and leaves the global object on
the stack. -/
theorem play_without_events_leaves_global :
    ∃ h, HandlerStep Sample.jsonText samplePlan sampleHandler
        (.play ⟨1, .integer 0, .id 3, "projection"⟩ (.ok (.integer 0))) h ∧
      sampleHandler.context.stack = [] ∧
      h.context.stack = [SampleVal.global] :=
  ⟨⟨sampleConnection, ⟨[("projection", SampleVal.increment)], [SampleVal.global]⟩⟩,
    .play rfl rfl, rfl, rfl⟩

end ActionHandler
end Yess

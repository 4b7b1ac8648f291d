import Yess.Ext.FullStack
import Yess.Handler.PlayStack

namespace Yess
namespace ActionHandler

open Foundation ValueStack Db Ext Replay

/-!
# How many plays a process has

The context of the handler lives as long as the process, and `play_projection` takes
off its stack only what two events take.  Every other play that gets past loading
leaves something there (`play_grows`), so that the stack of a process holds at least as
many values as it has served such plays, and at most as many as its engine has room for
(`costly_plays_le_stack`).
-/

variable {J : JsonText} {E : Duktape} {plan : Plan}

/-- A play that gets past loading and is not a successful one of two events. -/
def Costly (plan : Plan) (h : Handler E) (label : HandlerLabel) (_h' : Handler E) : Prop :=
  ∃ request reply proj events, label = .play request reply ∧
    load plan request h.connection = .returned (proj, events) h.connection ∧
    ¬(events.length = 2 ∧ ∃ state, reply = .ok state)

/-- The play of a handler that has loaded, on a stack without room for an event
object. -/
theorem play_narrow {h h' : Handler E} {request : PlayRequest} {reply : Except Exn Json}
    {proj : Projection} {events : List Event}
    (hNarrow : ¬h.context.stack.length + 4 < E.reserve)
    (hLoad : load plan request h.connection = .returned (proj, events) h.connection)
    (hStep : HandlerStep J plan h (.play request reply) h') :
    ∃ residue, residue ≠ [] ∧ h'.context.stack = residue ++ h.context.stack := by
  cases hStep with
  | play hReply hState =>
      rw [playProjection_of_loaded hLoad] at hState
      have hOutcome := @play_of_narrow J E h.context.stack proj.data request.fnName events
        request.init h.context.heap hNarrow
      generalize hCode : (do
        DukContext.read proj.data
        DukContext.callProjection J request.fnName events request.init : DukProg E Json)
          ⟨h.context.heap, h.context.stack⟩ = outcome at hOutcome
      have hCode' : (do
        DukContext.read proj.data
        DukContext.callProjection J request.fnName events request.init : DukProg E Json)
          h.context = outcome := hCode
      rw [hCode'] at hState
      cases hOutcome with
      | returned heap hNone =>
          rw [← Option.some.inj hState]
          exact ⟨[E.globalObject], List.cons_ne_nil _ _, rfl⟩
      | threw error heap residue hResidue =>
          rw [← Option.some.inj hState]
          exact ⟨residue, hResidue, rfl⟩
      | aborted => simp at hState

/-- The stack after a step is the one before it with something on top, and a costly
play does put something there. -/
theorem play_grows {h h' : Handler E} {label : HandlerLabel}
    (hStep : HandlerStep J plan h label h') :
    ∃ above, h'.context.stack = above ++ h.context.stack ∧
      (Costly plan h label h' → above ≠ []) := by
  cases label with
  | store =>
      cases hStep with
      | store c =>
          refine ⟨[], rfl, ?_⟩
          rintro ⟨request, reply, proj, events, hLabel, -⟩
          cases hLabel
  | play request reply =>
      by_cases hRoom : h.context.stack.length + 4 < E.reserve
      · have hEffect := play_effect hRoom hStep
        cases hEffect with
        | notLoaded error hFailed =>
            refine ⟨[], rfl, ?_⟩
            rintro ⟨_, _, proj, events, hLabel, hLoad, -⟩
            obtain ⟨rfl, rfl⟩ := HandlerLabel.play.inj hLabel
            rw [hFailed] at hLoad
            simp at hLoad
        | returned proj events state heap hLoad hPlay =>
            by_cases hFew : events.length ≤ 1
            · exact ⟨[E.globalObject], if_pos hFew, fun _ => List.cons_ne_nil _ _⟩
            · refine ⟨[], if_neg hFew, ?_⟩
              rintro ⟨_, _, proj', events', hLabel, hLoad', hNot⟩
              obtain ⟨rfl, rfl⟩ := HandlerLabel.play.inj hLabel
              obtain ⟨rfl, rfl⟩ := load_unique hLoad hLoad'
              have hMost := playFrom_length J hPlay
              exact absurd ⟨by omega, state, rfl⟩ hNot
        | threw proj events error heap residue hLoad hPlay hResidue hGlobal =>
            exact ⟨residue, rfl, fun _ => hResidue⟩
      · rcases reads_load plan request h.connection with
          ⟨⟨proj, events⟩, hLoad⟩ | ⟨error, hFailed⟩
        · obtain ⟨residue, hResidue, hStack⟩ := play_narrow hRoom hLoad hStep
          exact ⟨residue, hStack, fun _ => hResidue⟩
        · cases hStep with
          | play hReply hState =>
              rw [playProjection_of_not_loaded hFailed] at hState
              obtain rfl := Option.some.inj hState
              refine ⟨[], rfl, ?_⟩
              rintro ⟨_, _, proj, events, hLabel, hLoad, -⟩
              obtain ⟨rfl, rfl⟩ := HandlerLabel.play.inj hLabel
              rw [hFailed] at hLoad
              simp at hLoad

/-- No step takes the stack beyond the reserve. -/
theorem step_within_reserve {h h' : Handler E} {label : HandlerLabel}
    (hBound : h.context.stack.length ≤ E.reserve)
    (hStep : HandlerStep J plan h label h') : h'.context.stack.length ≤ E.reserve := by
  cases hStep with
  | store c => exact hBound
  | @play _ request reply hReply hState =>
      rcases reads_load plan request h.connection with ⟨⟨proj, events⟩, hLoad⟩ | ⟨error, hFailed⟩
      · rw [playProjection_of_loaded hLoad] at hState
        have hKeeps := DukContext.keepsBound_play J proj.data request.fnName events
          request.init h.context
        cases hOutcome : (do
          DukContext.read proj.data
          DukContext.callProjection J request.fnName events request.init : DukProg E Json)
            h.context with
        | returned state c =>
            rw [hOutcome] at hState hKeeps
            rw [← Option.some.inj hState]
            exact hKeeps c hBound rfl
        | threw error c =>
            rw [hOutcome] at hState hKeeps
            rw [← Option.some.inj hState]
            exact hKeeps c hBound rfl
        | aborted =>
            rw [hOutcome] at hState
            simp at hState
      · rw [playProjection_of_not_loaded hFailed] at hState
        rw [← Option.some.inj hState]
        exact hBound

/-- In a run on a fresh context the costly plays are counted by the stack. -/
theorem costly_le_stack {h₀ h : Handler E} {marks : List (HandlerLabel × Bool)}
    (hRun : Run (Marked (HandlerStep J plan) (Costly plan)) h₀ marks h) :
    h₀.context.stack.length + marks.countP (·.2) ≤ h.context.stack.length := by
  refine hRun.marked_le (fun h => h.context.stack.length) ?_ ?_
  · intro h label h' hStep
    obtain ⟨above, hStack, -⟩ := play_grows hStep
    rw [hStack, List.length_append]
    omega
  · intro h label h' hStep hCostly
    obtain ⟨above, hStack, hAbove⟩ := play_grows hStep
    have hSome := List.length_pos_iff.mpr (hAbove hCostly)
    rw [hStack, List.length_append]
    omega

/-- In a process on a fresh context the stack holds, whatever the plays and whatever lies
between them, at least one value for each costly play, and no more than its reserve; and
once it is full, every further play ends the process unless loading already fails. -/
theorem costly_plays_le_stack {h₀ h : Handler E} {marks : List (HandlerLabel × Bool)}
    (hFresh : h₀.context = DukContext.fresh E)
    (hRun : Run (Marked (HandlerStep J plan) (Costly plan)) h₀ marks h) :
    marks.countP (·.2) ≤ h.context.stack.length ∧ h.context.stack.length ≤ E.reserve ∧
      (h.context.stack.length = E.reserve → ∀ request loaded,
        load plan request h.connection = .returned loaded h.connection →
          playProjection J plan request h = .aborted) := by
  have hBound : h.context.stack.length ≤ E.reserve := by
    refine hRun.stateInvariant (fun h => h.context.stack.length ≤ E.reserve) ?_ ?_
    · rw [hFresh]
      exact Nat.zero_le _
    · intro h mark h' hBound hStep
      exact step_within_reserve hBound hStep.1
  have hCount := costly_le_stack hRun
  refine ⟨by omega, hBound, ?_⟩
  rintro hAll request ⟨proj, events⟩ hLoad
  rw [playProjection_of_loaded hLoad]
  have hFull := @play_of_full J E h.context.stack proj.data request.fnName events request.init
    h.context.heap (by omega)
  change Outcome.mapState _ ((do
    DukContext.read proj.data
    DukContext.callProjection J request.fnName events request.init : DukProg E Json)
      ⟨h.context.heap, h.context.stack⟩) = _
  rw [hFull]
  rfl

/-! ## Using the reserve up -/

/-- A play of a stream that does not exist. -/
def emptyRequest : PlayRequest := ⟨1, .integer 0, .id 3, "projection"⟩

theorem load_emptyRequest :
    load samplePlan emptyRequest sampleConnection =
      .returned (⟨1, "", Sample.countSource⟩, []) sampleConnection := rfl

/-- The sample handler after `n` of these plays. -/
def handlerAfter (n : Nat) : Handler Sample.engine :=
  ⟨sampleConnection, ⟨List.replicate n ("projection", SampleVal.increment),
    List.replicate n SampleVal.global⟩⟩

theorem emptyPlay_apply (n : Nat) (hRoom : n < apiEntryStack) :
    playProjection Sample.jsonText samplePlan emptyRequest (handlerAfter n) =
      .returned (.integer 0) (handlerAfter (n + 1)) := by
  have hLength : (List.replicate n SampleVal.global).length < apiEntryStack := by
    rw [List.length_replicate]
    exact hRoom
  have hRead : DukContext.read Sample.countSource (handlerAfter n).context =
      .returned () (handlerAfter (n + 1)).context :=
    @read_of_ok Sample.engine (List.replicate n SampleVal.global) Sample.countSource
      (List.replicate n ("projection", SampleVal.increment))
      (List.replicate (n + 1) ("projection", SampleVal.increment)) SampleVal.undefined rfl hLength
  rw [playProjection_of_loaded load_emptyRequest, Prog.bind_of_returned hRead]
  rfl

theorem emptyPlays_run (n : Nat) (hRoom : n ≤ apiEntryStack) :
    Run (Marked (HandlerStep Sample.jsonText samplePlan) (Costly samplePlan)) sampleHandler
      (List.replicate n (HandlerLabel.play emptyRequest (.ok (.integer 0)), true))
      (handlerAfter n) := by
  induction n with
  | zero => exact .refl
  | succ n ih =>
      rw [List.replicate_succ']
      have hPlay := emptyPlay_apply n hRoom
      refine .tail (ih (by omega)) ⟨.play (by rw [hPlay]; rfl) (by rw [hPlay]; rfl), ?_⟩
      simp only [true_iff]
      exact ⟨emptyRequest, _, _, _, rfl, load_emptyRequest, by simp⟩

/-- After as many plays of nothing as there is room for on this engine, the next ends the
process. -/
theorem costly_plays_le_stack_empty :
    playProjection Sample.jsonText samplePlan emptyRequest (handlerAfter apiEntryStack) =
      .aborted :=
  (costly_plays_le_stack rfl (emptyPlays_run apiEntryStack (Nat.le_refl _))).2.2
    List.length_replicate emptyRequest _ load_emptyRequest

end ActionHandler
end Yess

import Yess.Cmd.DomainCommands
import Yess.Ext.Outcomes
import Yess.GrpcService
import Yess.Handler.PlaySteps

namespace Yess
namespace ActionHandler

open Foundation ValueStack Db Ext Replay

/-!
# What the callers of a play get

The shell catches `std::runtime_error`, the gRPC service every `std::exception`,
and neither an error that Duktape raises outside a protected call.
`play_replied_iff` says for which plays both of them reply.
-/

variable {J : JsonText} {E : Duktape} {plan : Plan} {request : PlayRequest}
  {h : Handler E}

theorem reported_playProjection_iff (caller : Caller) :
    Reported caller (playProjection J plan request h) ↔
      ∀ proj events, load plan request h.connection = .returned (proj, events) h.connection →
        OutcomesReportable J caller h.context.stack proj.data request.fnName events
          request.init h.context.heap := by
  rcases reads_load plan request h.connection with
    ⟨⟨proj, events⟩, hLoad⟩ | ⟨error, hLoad⟩
  · rw [playProjection_of_loaded hLoad, Reported, Outcome.endsWell_mapState]
    refine (reported_play_iff J _ _ _ _ _ _).trans ⟨fun hReportable => ?_, fun hAll => ?_⟩
    · intro proj' events' hLoad'
      obtain ⟨rfl, rfl⟩ := load_unique hLoad hLoad'
      exact hReportable
    · exact hAll proj events hLoad
  · rw [playProjection_of_not_loaded hLoad]
    refine iff_of_true (caller.catches_runtimeError _ rfl) fun proj events hLoad' => ?_
    rw [hLoad] at hLoad'
    simp at hLoad'

/-- Both callers reply to what came of the play: to a state with `OK` and the state, to an
exception with an error and the text of the exception. -/
inductive PlayReplied (J : JsonText) {E : Duktape} (play : HandlerProg E Json)
    (h : Handler E) : Prop
  | state (state : Json) (h' : Handler E) (hPlay : play h = .returned state h')
      (hShell : Cmd.Play.report play h = .returned ⟨.ok, "OK", some state⟩ h')
      (hService : GrpcService.report J play h = .returned ⟨⟨0, "OK"⟩, J.dump state⟩ h')
  | error (error : Exn) (h' : Handler E) (hPlay : play h = .threw error h')
      (hShell : Cmd.Play.report play h = .returned ⟨.error, error.what, none⟩ h')
      (hService : GrpcService.report J play h =
        .returned ⟨⟨1, error.what⟩, J.dump .null⟩ h')

/-- What the shell can report, both report. -/
theorem playReplied_iff_reported (play : HandlerProg E Json) :
    PlayReplied J play h ↔ Reported shellCaller (play h) := by
  have hShell := Cmd.Play.report_apply play h
  have hService := GrpcService.report_apply J play h
  cases hPlay : play h with
  | returned state h' =>
      simp only [hPlay] at hShell hService
      exact iff_of_true (.state state h' hPlay hShell hService) trivial
  | threw error h' =>
      simp only [hPlay] at hShell hService
      by_cases hRuntime : error.isRuntimeError = true
      · rw [if_pos hRuntime] at hShell
        exact iff_of_true (.error error h' hPlay hShell hService) hRuntime
      · rw [if_neg hRuntime] at hShell
        refine iff_of_false ?_ hRuntime
        rintro (⟨state, h'', -, hReply, -⟩ | ⟨error', h'', -, hReply, -⟩)
        · simp [hShell] at hReply
        · simp [hShell] at hReply
  | aborted =>
      refine iff_of_false ?_ id
      rintro (⟨state, h'', hOther, -, -⟩ | ⟨error', h'', hOther, -, -⟩)
      · simp [hPlay] at hOther
      · simp [hPlay] at hOther

/-- In every state of the handler: the shell and the gRPC service both reply to the play,
with its state or with the error that it threw, exactly when the loading fails or every
JavaScript outcome of the play is reportable and finds room on the value stack. -/
theorem play_replied_iff :
    PlayReplied J (playProjection J plan request) h ↔
      ∀ proj events, load plan request h.connection = .returned (proj, events) h.connection →
        OutcomesReportable J shellCaller h.context.stack proj.data request.fnName events
          request.init h.context.heap :=
  (playReplied_iff_reported _).trans (reported_playProjection_iff shellCaller)

theorem playFrom_counts :
    playFrom Sample.jsonText (slotZero sampleHandler.context.stack) Sample.countSource
        "projection" [⟨1, 1, "UserCreated", "{}", 1⟩, ⟨2, 1, "UserRenamed", "{}", 2⟩]
        (.integer 0) sampleHandler.context.heap =
      .returned (.integer 2) [("projection", SampleVal.increment)] := rfl

/-- A counting play gets its replies. -/
theorem play_replied_counting :
    PlayReplied Sample.jsonText (playProjection Sample.jsonText samplePlan countRequest)
      sampleHandler := by
  refine play_replied_iff.mpr ?_
  intro proj events hLoad
  obtain ⟨rfl, rfl⟩ := load_unique load_countRequest hLoad
  exact outcomesReportable_of_returned Sample.jsonText sampleHandler_hasRoom.lt_reserve
    playFrom_counts

/-- A projection that returns nothing gets past the `catch` of the shell, and a
source that throws `null` ends the process. -/
theorem play_not_replied :
    (Cmd.Play.execute Sample.jsonText samplePlan
        { projectionId := 5, streamId := 2, init := .integer 0 } sampleHandler).result =
      some (.error (.logicError "basic_string: construction from null is not valid")) ∧
    GrpcService.play Sample.jsonText samplePlan ⟨6, 2, "", ""⟩ sampleHandler = .aborted ∧
    ∀ request ∈ [(⟨5, .integer 0, .id 2, "projection"⟩ : PlayRequest),
        ⟨6, .string "", .id 2, "projection"⟩],
      ¬PlayReplied Sample.jsonText (playProjection Sample.jsonText samplePlan request)
        sampleHandler := by
  refine ⟨rfl, rfl, ?_⟩
  intro request hRequest hReplied
  rw [playReplied_iff_reported] at hReplied
  rcases List.mem_pair.mp hRequest with rfl | rfl
  · exact Bool.false_ne_true hReplied
  · exact hReplied

end ActionHandler
end Yess

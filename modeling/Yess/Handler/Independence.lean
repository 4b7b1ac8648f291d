import Yess.Foundation.Product
import Yess.Handler.History

namespace Yess
namespace ActionHandler

open Foundation Db

/-!
# Projections and streams do not interfere

The projections lie in a table of their own, which no request about streams and events
looks at, and no request about projections looks at the other tables.  A history of the
file is therefore a history of its streams and one of its projections, merged in any way
(`histories_separate`): what one kind of request replies does not depend on the others.
-/

/-- The activity concerns the streams and events. -/
def Activity.onStreams : Activity → Bool
  | .projection _ => false
  | _ => true

/-- The activity concerns the projections. -/
def Activity.onProjections : Activity → Bool
  | .request _ => false
  | _ => true

/-- The streams and events of one connection with the projections of another. -/
def combined (d e : Connection) : Connection :=
  { d with database := { d.database with projections := e.database.projections } }

variable {plan : Plan} {c₀ c d e t : Connection}

theorem combined_ready (hReady : d.Ready) (e : Connection) : (combined d e).Ready :=
  ⟨hReady.schema, hReady.idle⟩

/-! ## Streams and events -/

/-- A request about streams and events does not look at the projections. -/
theorem serve_combined (plan : Plan) (request : StoreRequest) (hReady : d.Ready)
    (e : Connection) :
    serve plan request (combined d e) =
      (serve plan request d).mapState fun d' => combined d' e := by
  have hReady' := combined_ready hReady e
  cases request with
  | createStream type =>
      have hCreate := create_apply ⟨0, type, 0⟩ hReady
      have hCreate' := create_apply ⟨0, type, 0⟩ hReady'
      rw [serve, createStream, saveStream, Prog.bind_of_returned hCreate,
        Prog.bind_of_returned hCreate']
      rfl
  | deleteStream id =>
      rw [serve, deleteStream, Prog.bind_of_returned (remove_apply id hReady),
        Prog.bind_of_returned (remove_apply id hReady')]
      rfl
  | pushEvent streamId event =>
      have hPush := pushEvent_apply streamId event hReady
      have hPush' := pushEvent_apply streamId event hReady'
      have hSame : insertError (combined d e) (newEventRow (combined d e).database event) =
          insertError d (newEventRow d.database event) := rfl
      rw [hSame] at hPush'
      cases hError : insertError d (newEventRow d.database event) with
      | none =>
          simp only [hError] at hPush hPush'
          rw [serve, Prog.bind_of_returned hPush, Prog.bind_of_returned hPush']
          rfl
      | some error =>
          simp only [hError] at hPush hPush'
          rw [serve, Prog.bind_of_threw hPush, Prog.bind_of_threw hPush']
          rfl
  | getAllStreams =>
      rw [serve, getAllStreams, Prog.bind_of_returned (all_apply hReady),
        Prog.bind_of_returned (all_apply hReady')]
      rfl
  | getStreamsByType type =>
      rw [serve, getStreamsByType, Prog.bind_of_returned (byType_apply type hReady),
        Prog.bind_of_returned (byType_apply type hReady')]
      rfl
  | getStream id =>
      rw [serve, getStream, Prog.bind_of_returned (get_apply id hReady),
        Prog.bind_of_returned (get_apply id hReady')]
      rfl
  | getEventsByStreamId id =>
      rw [serve, getEventsByStreamId, Prog.bind_of_returned (getEvents_apply plan id hReady),
        Prog.bind_of_returned (getEvents_apply plan id hReady')]
      rfl
  | getEventsByStreamType type =>
      rw [serve, getEventsByStreamType,
        Prog.bind_of_returned (getEventsByType_apply plan type hReady),
        Prog.bind_of_returned (getEventsByType_apply plan type hReady')]
      rfl

theorem createdId_combined (request : StoreRequest) (reply : Except Exn StoreReply) :
    createdId (combined d e) request reply = createdId d request reply := by
  cases request <;> cases reply <;> rfl

theorem storeStep_combined_iff {entry : StoreEntry} (hReady : d.Ready) :
    StoreStep plan (combined d e) entry t ↔
      ∃ d', StoreStep plan d entry d' ∧ t = combined d' e := by
  unfold StoreStep
  rw [serve_combined plan entry.request hReady e, createdId_combined, Outcome.result_mapState,
    Outcome.state_mapState]
  constructor
  · rintro ⟨hReply, hState, hCreated⟩
    obtain ⟨d', hState', rfl⟩ := Option.map_eq_some_iff.mp hState
    exact ⟨d', ⟨hReply, hState', hCreated⟩, rfl⟩
  · rintro ⟨d', ⟨hReply, hState, hCreated⟩, rfl⟩
    exact ⟨hReply, Option.map_eq_some_iff.mpr ⟨d', hState, rfl⟩, hCreated⟩

/-! ## Projections -/

/-- A request about projections does not look at streams and events. -/
theorem serveProjection_combined (request : ProjectionRequest) (hReady : d.Ready)
    (hReady' : e.Ready) :
    serveProjection request (combined d e) =
      (serveProjection request e).mapState fun e' => combined d e' := by
  have hReady'' := combined_ready hReady e
  cases request with
  | createProjection data =>
      rw [serveProjection, createProjection, ProjectionRepo.create_apply _ hReady',
        ProjectionRepo.create_apply _ hReady'']
      rfl
  | createProjectionTyped data type =>
      rw [serveProjection, createProjectionTyped, ProjectionRepo.create_apply _ hReady',
        ProjectionRepo.create_apply _ hReady'']
      rfl
  | deleteProjection id =>
      rw [serveProjection, deleteProjection, ProjectionRepo.remove_apply _ hReady',
        ProjectionRepo.remove_apply _ hReady'']
      rfl

theorem projectionStep_combined_iff {request : ProjectionRequest} (hReady : d.Ready)
    (hReady' : e.Ready) :
    ProjectionStep (combined d e) request t ↔
      ∃ e', ProjectionStep e request e' ∧ t = combined d e' := by
  unfold ProjectionStep
  rw [serveProjection_combined request hReady hReady']
  cases serveProjection request e with
  | returned value e' => simp [eq_comm]
  | threw error e' => simp
  | aborted => simp

/-! ## Histories -/

theorem request_step_iff {entry : StoreEntry} :
    ActivityStep c (.request entry) t ↔ ∃ plan, StoreStep plan c entry t := by
  constructor
  · intro hStep
    cases hStep with
    | request plan hStore => exact ⟨plan, hStore⟩
  · rintro ⟨plan, hStore⟩
    exact .request plan hStore

theorem projection_step_iff {request : ProjectionRequest} :
    ActivityStep c (.projection request) t ↔ ProjectionStep c request t := by
  constructor
  · intro hStep
    cases hStep with
    | projection hProjection => exact hProjection
  · exact .projection

theorem restart_step_iff : ActivityStep c .restart t ↔ t = ⟨c.database, false, none⟩ := by
  constructor
  · intro hStep
    cases hStep with
    | restart hInit => exact eq_of_initDb_some hInit
  · rintro rfl
    exact .restart (initDb_some c.database)

/-- The store is made of its streams and its projections. -/
theorem activities_product :
    IsProduct ActivityStep ActivityStep ActivityStep Activity.onStreams Activity.onProjections
      combined HistoryInvariant HistoryInvariant where
  keep := fun _ _ _ hInv hStep => hStep.historyInvariant hInv
  keep' := fun _ _ _ hInv hStep => hStep.historyInvariant hInv
  step_iff := by
    intro d e activity t hInv hInv'
    cases activity with
    | request entry =>
        simp only [PartStep, Activity.onStreams, Activity.onProjections, if_true,
          Bool.false_eq_true, if_false, request_step_iff,
          storeStep_combined_iff hInv.store.ready]
        constructor
        · rintro ⟨plan, d', hStore, rfl⟩
          exact ⟨d', e, ⟨plan, hStore⟩, rfl, rfl⟩
        · rintro ⟨d', e', ⟨plan, hStore⟩, rfl, rfl⟩
          exact ⟨plan, d', hStore, rfl⟩
    | projection request =>
        simp only [PartStep, Activity.onStreams, Activity.onProjections, if_true,
          Bool.false_eq_true, if_false, projection_step_iff,
          projectionStep_combined_iff hInv.store.ready hInv'.store.ready]
        constructor
        · rintro ⟨e', hProjection, rfl⟩
          exact ⟨d, e', rfl, hProjection, rfl⟩
        · rintro ⟨d', e', rfl, hProjection, rfl⟩
          exact ⟨e', hProjection, rfl⟩
    | restart =>
        simp only [PartStep, Activity.onStreams, Activity.onProjections, if_true,
          restart_step_iff]
        constructor
        · rintro rfl
          exact ⟨_, _, rfl, rfl, rfl⟩
        · rintro ⟨d', e', rfl, rfl, rfl⟩
          rfl

/-- A list of requests with their replies and of restarts is a history of a new file exactly
when it is one without the requests about projections and one without the requests about
streams and events; the file then holds the streams and events of the one and the
projections of the other. -/
theorem histories_separate (hInit : initDb none = .returned () c₀) {activities : List Activity} :
    Run ActivityStep c₀ activities c ↔
      ∃ d e, Run ActivityStep c₀ (activities.filter Activity.onStreams) d ∧
        Run ActivityStep c₀ (activities.filter Activity.onProjections) e ∧ c = combined d e := by
  obtain rfl := eq_of_initDb_none hInit
  exact run_product_iff activities_product freshConnection_historyInvariant
    freshConnection_historyInvariant

/-- A new file with a projection and a stream. -/
def projectionAndStream : Connection := { freshConnection with
  database := { freshConnection.database with
    streams := [⟨1, "User", 0⟩]
    projections := [{ id := 1, type := "count", data := "" }] } }

theorem projectionAndStream_run :
    Run ActivityStep freshConnection
      [.projection (.createProjection "count"),
        .request ⟨.createStream "User", .ok .done, some 1⟩] projectionAndStream := by
  have hProjection : ActivityStep freshConnection (.projection (.createProjection "count"))
      { freshConnection with database := { freshConnection.database with
        projections := [{ id := 1, type := "count", data := "" }] } } := .projection rfl
  exact (Run.single hProjection).tail (.request ⟨.streamsOuter, .rowid⟩ ⟨rfl, rfl, rfl⟩)

theorem histories_separate_two :
    ∃ d e, Run ActivityStep freshConnection
        [.request ⟨.createStream "User", .ok .done, some 1⟩] d ∧
      Run ActivityStep freshConnection [.projection (.createProjection "count")] e ∧
        projectionAndStream = combined d e :=
  (histories_separate initDb_none).mp projectionAndStream_run

end ActionHandler
end Yess

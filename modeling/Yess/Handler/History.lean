import Yess.Handler.ProjectionStore
import Yess.Handler.Sessions

namespace Yess
namespace ActionHandler

open Foundation Db VersionedLog

/-!
# The history of a database file

Everything that happens to a file over time: requests about streams and events,
requests about projections, and new sessions, in any order.  Each query of each
request may run by a plan of its own.  `HistoryInvariant` is what holds of the
tables after every history (`Reachable.invariant`).
-/

inductive Activity where
  | request (entry : StoreEntry)
  | projection (request : ProjectionRequest)
  | restart

inductive ActivityStep : Connection → Activity → Connection → Prop
  | request {c c' : Connection} {entry : StoreEntry} (plan : Plan)
      (hStep : StoreStep plan c entry c') : ActivityStep c (.request entry) c'
  | projection {c c' : Connection} {request : ProjectionRequest}
      (hStep : ProjectionStep c request c') : ActivityStep c (.projection request) c'
  | restart {c c' : Connection} (hInit : initDb (some c.database) = .returned () c') :
      ActivityStep c .restart c'

/-- The connections that come about on a file that the first `init_db` made. -/
def Reachable (c : Connection) : Prop :=
  ∃ c₀ activities, initDb none = .returned () c₀ ∧ Run ActivityStep c₀ activities c

/-- What a request about projections can do: add one row or take rows away. -/
inductive ProjectionEffect (c : Connection) : ProjectionRequest → Connection → Prop
  | created (request : ProjectionRequest) (data type : String) :
      ProjectionEffect c request { c with database := { c.database with
        projections := c.database.projections ++
          [⟨Sql.nextRowid (c.database.projections.map ProjectionRow.id), data, type⟩] } }
  | deleted (id : Int32) :
      ProjectionEffect c (.deleteProjection id) { c with database := { c.database with
        projections := c.database.projections.filter fun row => row.id ≠ id.toInt } }

theorem projectionStep_effect {c c' : Connection} {request : ProjectionRequest}
    (hReady : c.Ready) (hStep : ProjectionStep c request c') :
    ProjectionEffect c request c' := by
  unfold ProjectionStep at hStep
  cases request with
  | createProjection data =>
      rw [serveProjection, createProjection, ProjectionRepo.create_apply _ hReady,
        Outcome.returned.injEq] at hStep
      obtain ⟨-, rfl⟩ := hStep
      exact .created _ _ _
  | createProjectionTyped data type =>
      rw [serveProjection, createProjectionTyped, ProjectionRepo.create_apply _ hReady,
        Outcome.returned.injEq] at hStep
      obtain ⟨-, rfl⟩ := hStep
      exact .created _ _ _
  | deleteProjection id =>
      rw [serveProjection, deleteProjection, ProjectionRepo.remove_apply _ hReady,
        Outcome.returned.injEq] at hStep
      obtain ⟨-, rfl⟩ := hStep
      exact .deleted id

/-- What holds of the tables between two activities. -/
structure HistoryInvariant (c : Connection) : Prop where
  store : StoreInvariant c
  projectionIds : c.database.projections.Pairwise fun a b => a.id < b.id
  /-- The columns of an event that a client gives are `int`s. -/
  eventInts : ∀ row ∈ c.database.events, ∃ streamId version : Int32,
    row.streamId = streamId.toInt ∧ row.version = version.toInt
  /-- The version of a stream is written once, when it is created. -/
  streamVersions : ∀ row ∈ c.database.streams, row.version = 0

theorem freshConnection_historyInvariant : HistoryInvariant freshConnection where
  store := freshConnection_invariant
  projectionIds := List.Pairwise.nil
  eventInts := by simp [freshConnection, Database.empty]
  streamVersions := by simp [freshConnection, Database.empty]

theorem StoreEffect.historyInvariant {c c' : Connection} {entry : StoreEntry}
    (hEffect : StoreEffect c entry c') (hInv : HistoryInvariant c) : HistoryInvariant c' := by
  have hStore := hEffect.invariant hInv.store
  cases hEffect with
  | created type =>
      refine ⟨hStore, hInv.projectionIds, hInv.eventInts, ?_⟩
      intro row hRow
      rcases List.mem_append.mp hRow with hOld | hNew
      · exact hInv.streamVersions row hOld
      · rw [List.mem_singleton] at hNew
        rw [hNew]
  | deleted id =>
      refine ⟨hStore, hInv.projectionIds, ?_, ?_⟩
      · intro row hRow
        exact hInv.eventInts row (List.mem_of_mem_filter hRow)
      · intro row hRow
        exact hInv.streamVersions row (List.mem_of_mem_filter hRow)
  | pushed streamId event hAccepted =>
      refine ⟨hStore, hInv.projectionIds, ?_, hInv.streamVersions⟩
      intro row hRow
      rcases List.mem_append.mp hRow with hOld | hNew
      · exact hInv.eventInts row hOld
      · rw [List.mem_singleton] at hNew
        exact ⟨event.streamId, event.version, by rw [hNew]; rfl, by rw [hNew]; rfl⟩
  | refused streamId event error hRefused => exact hInv
  | read request reply hRead => exact hInv

theorem ProjectionEffect.historyInvariant {c c' : Connection} {request : ProjectionRequest}
    (hEffect : ProjectionEffect c request c') (hInv : HistoryInvariant c) :
    HistoryInvariant c' := by
  have hReady := hInv.store.ready
  cases hEffect with
  | created data type =>
      exact ⟨⟨⟨hReady.schema, hReady.idle⟩, hInv.store.streamIds, hInv.store.numbered⟩,
        Sql.pairwise_append_nextRowid hInv.projectionIds rfl, hInv.eventInts,
        hInv.streamVersions⟩
  | deleted id =>
      exact ⟨⟨⟨hReady.schema, hReady.idle⟩, hInv.store.streamIds, hInv.store.numbered⟩,
        hInv.projectionIds.filter _, hInv.eventInts, hInv.streamVersions⟩

theorem ActivityStep.historyInvariant {c c' : Connection} {activity : Activity}
    (hStep : ActivityStep c activity c') (hInv : HistoryInvariant c) :
    HistoryInvariant c' := by
  cases hStep with
  | request plan hStep =>
      exact (storeStep_effect hInv.store.ready hStep).historyInvariant hInv
  | projection hStep =>
      exact (projectionStep_effect hInv.store.ready hStep).historyInvariant hInv
  | restart hInit =>
      rw [eq_of_initDb_some hInit]
      exact ⟨⟨⟨hInv.store.ready.schema, rfl⟩, hInv.store.streamIds, hInv.store.numbered⟩,
        hInv.projectionIds, hInv.eventInts, hInv.streamVersions⟩

theorem Reachable.invariant {c : Connection} (hReachable : Reachable c) :
    HistoryInvariant c := by
  obtain ⟨c₀, activities, hInit, hRun⟩ := hReachable
  obtain rfl := eq_of_initDb_none hInit
  exact hRun.stateInvariant HistoryInvariant freshConnection_historyInvariant
    fun c activity c' hInv hStep => hStep.historyInvariant hInv

theorem Reachable.step {c c' : Connection} {activity : Activity} (hReachable : Reachable c)
    (hStep : ActivityStep c activity c') : Reachable c' := by
  obtain ⟨c₀, activities, hInit, hRun⟩ := hReachable
  exact ⟨c₀, _, hInit, .tail hRun hStep⟩

theorem Reachable.run {c c' : Connection} {activities : List Activity} (hReachable : Reachable c)
    (hRun : Run ActivityStep c activities c') : Reachable c' := by
  induction hRun with
  | refl => exact hReachable
  | tail _ hLast ih => exact ih.step hLast

theorem freshConnection_reachable : Reachable freshConnection :=
  ⟨_, [], initDb_none, .refl⟩

/-- The store with one event comes about. -/
theorem oneEventConnection_reachable : Reachable oneEventConnection := by
  have hCreate : ActivityStep freshConnection
      (.request ⟨.createStream "User", .ok .done, some 1⟩)
      { freshConnection with database := { freshConnection.database with
        streams := [⟨1, "User", 0⟩] } } :=
    .request ⟨.streamsOuter, .rowid⟩ ⟨rfl, rfl, rfl⟩
  apply (freshConnection_reachable.step hCreate).step
  show ActivityStep _
    (.request ⟨.pushEvent 1 ⟨0, 1, "UserCreated", "{}", 1⟩, .ok .done, none⟩) _
  exact .request ⟨.streamsOuter, .rowid⟩ ⟨rfl, rfl, rfl⟩

end ActionHandler
end Yess

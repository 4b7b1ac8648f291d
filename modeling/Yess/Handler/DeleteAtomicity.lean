import Yess.Db.Faults
import Yess.Handler.History

namespace Yess
namespace ActionHandler

open Foundation Db VersionedLog

/-!
# Deleting a stream is all or nothing

Whichever statement of `remove` fails, the store is the old one; if none does, exactly
the stream and its events are gone.  From then on no stream has the id, until a create
gives it to a new one, and where foreign keys are enforced a push to it is refused.
-/

/-- The activities give no stream this id. -/
def NoCreateOf (id : Int) (activities : List Activity) : Prop :=
  ∀ entry, Activity.request entry ∈ activities → entry.created ≠ some id

/-- The stream and its events are gone, and nothing else is. -/
structure StreamRemoved (id : Int32) (c c' : Connection) : Prop where
  streams : c'.database.streams = c.database.streams.filter fun row => row.id ≠ id.toInt
  events : c'.database.events = c.database.events.filter fun row => row.streamId ≠ id.toInt
  otherEvents : ∀ other : Int, other ≠ id.toInt →
    eventsOf other c'.database.events = eventsOf other c.database.events
  projections : c'.database.projections = c.database.projections
  rest : c'.database.schema = c.database.schema ∧ c'.foreignKeys = c.foreignKeys ∧
    c'.rollback = c.rollback
  /-- Whatever happens then, if nothing creates the stream again. -/
  pushRefused : ∀ activities c'', Run ActivityStep c' activities c'' →
    NoCreateOf id.toInt activities → c''.foreignKeys = true →
      ∀ j event, event.streamId = id → ∃ error, pushEvent j event c'' = .threw error c''

variable {c c' : Connection}

/-- A stream id comes into the table only by a create that gives it. -/
theorem ActivityStep.missing {activity : Activity} {id : Int} (hReady : c.Ready)
    (hStep : ActivityStep c activity c') (hMissing : ¬∃ s ∈ c.database.streams, s.id = id)
    (hCreate : ∀ entry, activity = .request entry → entry.created ≠ some id) :
    ¬∃ s ∈ c'.database.streams, s.id = id := by
  cases hStep with
  | request plan hStep =>
      have hEffect := storeStep_effect hReady hStep
      cases hEffect with
      | created type =>
          rintro ⟨s, hMem, hId⟩
          rcases List.mem_append.mp hMem with hOld | hNew
          · exact hMissing ⟨s, hOld, hId⟩
          · rw [List.mem_singleton.mp hNew] at hId
            exact hCreate _ rfl (congrArg some hId)
      | deleted other =>
          rintro ⟨s, hMem, hId⟩
          exact hMissing ⟨s, List.mem_of_mem_filter hMem, hId⟩
      | pushed streamId event hAccepted => exact hMissing
      | refused streamId event error hRefused => exact hMissing
      | read request reply hRead => exact hMissing
  | projection hStep =>
      cases projectionStep_effect hReady hStep with
      | created data type => exact hMissing
      | deleted id => exact hMissing
  | restart hInit =>
      rw [eq_of_initDb_some hInit]
      exact hMissing

/-- A missing stream stays missing over a run without a create of it. -/
theorem missing_of_run {activities : List Activity} {id : Int} (hInv : HistoryInvariant c)
    (hRun : Run ActivityStep c activities c')
    (hMissing : ¬∃ s ∈ c.database.streams, s.id = id) (hCreate : NoCreateOf id activities) :
    HistoryInvariant c' ∧ ¬∃ s ∈ c'.database.streams, s.id = id := by
  refine hRun.invariant
    (fun activities t => NoCreateOf id activities →
      HistoryInvariant t ∧ ¬∃ s ∈ t.database.streams, s.id = id)
    (fun _ => ⟨hInv, hMissing⟩) ?_ hCreate
  intro activities t activity u ih hStep hNone
  obtain ⟨hInvT, hMissingT⟩ := ih fun entry hMem => hNone entry (List.mem_append_left _ hMem)
  refine ⟨hStep.historyInvariant hInvT, hStep.missing hInvT.store.ready hMissingT ?_⟩
  rintro entry rfl
  exact hNone entry (List.mem_append_right _ List.mem_cons_self)

/-- Where foreign keys are enforced, a push to a missing stream is refused. -/
theorem pushEvent_of_missing (hInv : StoreInvariant c) (hKeys : c.foreignKeys = true)
    (j : Int32) {event : Event} (hMissing : ¬∃ s ∈ c.database.streams, s.id = event.streamId.toInt) :
    ∃ error, pushEvent j event c = .threw error c := by
  have hApply := pushEvent_apply j event hInv.ready
  cases hError : insertError c (newEventRow c.database event) with
  | some error =>
      rw [hError] at hApply
      exact ⟨_, hApply⟩
  | none =>
      have hFits := (insertError_newEventRow_iff hInv event).mp hError
      exact absurd (hFits.2 hKeys) hMissing

/-- What `remove` leaves behind when it returns. -/
theorem streamRemoved_of_remove (hReachable : Reachable c) {id : Int32}
    (hRemove : remove id c = .returned () c') : StreamRemoved id c c' := by
  have hInv := hReachable.invariant
  have hApply := remove_apply id hInv.store.ready
  rw [hRemove, Outcome.returned.injEq] at hApply
  obtain ⟨-, rfl⟩ := hApply
  have hInv' := (StoreEffect.deleted id).historyInvariant hInv
  refine ⟨rfl, rfl, ?_, rfl, ⟨rfl, rfl, rfl⟩, ?_⟩
  · intro other hOther
    rw [eventsOf_delete, if_neg hOther]
  · intro activities c'' hRun hCreate hKeys j event hStream
    have hGone : ¬∃ s ∈ c.database.streams.filter (fun row => row.id ≠ id.toInt),
        s.id = id.toInt := by
      rintro ⟨s, hMem, hId⟩
      simp [hId] at hMem
    obtain ⟨hInv'', hMissing⟩ := missing_of_run hInv' hRun hGone hCreate
    rw [← hStream] at hMissing
    exact pushEvent_of_missing hInv''.store hKeys j hMissing

/-- On every reachable store, for every id and wherever a statement fails: `remove`
returns exactly when none fails, and then the stream and its events are gone and nothing
else is; otherwise it throws and the connection is as it was. -/
theorem remove_all_or_nothing (hReachable : Reachable c) (faults : RemoveFaults) (id : Int32) :
    (faults.None ∧ ∃ c', removeFailing faults id c = .returned () c' ∧ StreamRemoved id c c') ∨
      (¬faults.None ∧ ∃ error, removeFailing faults id c = .threw error c) := by
  have hReady := hReachable.invariant.store.ready
  by_cases hNone : faults.None
  · refine Or.inl ⟨hNone, _, ?_, streamRemoved_of_remove hReachable (remove_apply id hReady)⟩
    rw [removeFailing_of_none hNone, remove_apply id hReady]
  · exact Or.inr ⟨hNone, removeFailing_of_some hNone id hReady.idle⟩

/-- A `COMMIT` that fails on the store with one event. -/
theorem remove_all_or_nothing_commit :
    (RemoveFaults.None ⟨none, none, none, some ⟨.runtimeError "disk I/O error", true⟩⟩ ∧
        ∃ c', removeFailing ⟨none, none, none, some ⟨.runtimeError "disk I/O error", true⟩⟩ 1
          oneEventConnection = .returned () c' ∧ StreamRemoved 1 oneEventConnection c') ∨
      (¬RemoveFaults.None ⟨none, none, none, some ⟨.runtimeError "disk I/O error", true⟩⟩ ∧
        ∃ error, removeFailing ⟨none, none, none,
          some ⟨.runtimeError "disk I/O error", true⟩⟩ 1 oneEventConnection =
            .threw error oneEventConnection) :=
  remove_all_or_nothing oneEventConnection_reachable _ _

end ActionHandler
end Yess

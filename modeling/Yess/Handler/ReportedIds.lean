import Yess.Handler.Capacity
import Yess.Handler.Identifiers

namespace Yess
namespace ActionHandler

open Foundation Db Identifiers

/-!
# Ids as they are reported

Row ids have 64 bits, the ids in replies 32: `getInt` cuts them.  Ids are counted from `1`
on, so that nothing is cut before a table has taken in 2^31 rows, deleted ones included.
Until then every reported id is the id of its row, and names it
(`reported_ids_exact`).
-/

/-- Can the activity put a row into the table? -/
def Table.inserts : Table → Activity → Bool
  | .streams, .request ⟨.createStream _, _, _⟩ => true
  | .events, .request ⟨.pushEvent _ _, .ok _, _⟩ => true
  | .projections, .projection (.createProjection _) => true
  | .projections, .projection (.createProjectionTyped _ _) => true
  | _, _ => false

/-- Every id that is reported is that of its row. -/
structure ReportsRowIds (c : Connection) : Prop where
  streams : ∃ streams, getAllStreams c = .returned streams c ∧
    streams.map (fun s => s.id.toInt) = Table.streams.ids c ∧
    ∀ s ∈ streams, getStream s.id c = .returned (some s) c
  events : ∀ plan streamId, ∃ events, getEventsByStreamId plan streamId c = .returned events c ∧
    events.map (fun e => e.id.toInt) =
      if ∃ s ∈ c.database.streams, s.id = streamId.toInt
      then (eventsOf streamId.toInt c.database.events).map EventRow.id else []
  projections : ∃ projections, getAllProjections c = .returned projections c ∧
    projections.map (fun p => p.id.toInt) = Table.projections.ids c

variable {c c' : Connection} {activity : Activity}

/-- Where nothing is put into a table, no id is handed out in it. -/
theorem ActivityStep.ids_subset_of_no_insert (hStep : ActivityStep c activity c')
    (hReady : c.Ready) (table : Table) (hNone : table.inserts activity = false) :
    table.ids c' ⊆ table.ids c := by
  cases hStep with
  | request plan hStore =>
      cases storeStep_effect hReady hStore with
      | created type =>
          cases table with
          | streams => simp [Table.inserts] at hNone
          | events => exact List.Subset.refl _
          | projections => exact List.Subset.refl _
      | deleted id =>
          cases table with
          | streams => exact (List.filter_sublist.map _).subset
          | events => exact (List.filter_sublist.map _).subset
          | projections => exact List.Subset.refl _
      | pushed streamId event hAccepted =>
          cases table with
          | streams => exact List.Subset.refl _
          | events => simp [Table.inserts] at hNone
          | projections => exact List.Subset.refl _
      | refused streamId event error hRefused => exact List.Subset.refl _
      | read request reply hRead => exact List.Subset.refl _
  | @projection _ request hProjection =>
      cases table with
      | streams => cases projectionStep_effect hReady hProjection <;> exact List.Subset.refl _
      | events => cases projectionStep_effect hReady hProjection <;> exact List.Subset.refl _
      | projections =>
          cases request with
          | createProjection data => simp [Table.inserts] at hNone
          | createProjectionTyped data type => simp [Table.inserts] at hNone
          | deleteProjection id =>
              rw [ProjectionStep, serveProjection, deleteProjection,
                ProjectionRepo.remove_apply _ hReady, Outcome.returned.injEq] at hProjection
              rw [← hProjection.2]
              exact (List.filter_sublist.map _).subset
  | restart hInit =>
      obtain rfl := eq_of_initDb_some hInit
      cases table <;> exact List.Subset.refl _

/-- No id is larger than the number of rows that the table has taken in. -/
theorem ids_bounds {activities : List Activity} {c₀ : Connection}
    (hInit : initDb none = .returned () c₀) (hRun : Run ActivityStep c₀ activities c)
    (table : Table) : ∀ id ∈ table.ids c, 0 < id ∧ id ≤ activities.countP table.inserts := by
  obtain rfl := eq_of_initDb_none hInit
  have hEmpty : table.ids freshConnection = [] := by cases table <;> rfl
  exact bounds_of_run HistoryInvariant table.inserts hRun freshConnection_historyInvariant hEmpty
    (fun _ _ _ hInv hStep => hStep.historyInvariant hInv)
    (fun _ _ _ hInv hStep => hStep.change hInv.store.ready table)
    fun _ _ _ hInv hStep hNone =>
      hStep.ids_subset_of_no_insert hInv.store.ready table hNone

/-- An id within the range is not cut. -/
theorem toInt_getInt {id : Int} (hPos : 0 < id) (hLe : id ≤ capacity) : (getInt id).toInt = id := by
  obtain ⟨n, rfl⟩ := Int.eq_ofNat_of_zero_le hPos.le
  exact toInt_ofInt_of_le (Int.ofNat_le.mp hLe)

theorem stream_reported (hInv : HistoryInvariant c) {row : StreamRow}
    (hMem : row ∈ c.database.streams) (hId : row.toStream.id.toInt = row.id) :
    getStream row.toStream.id c = .returned (some row.toStream) c := by
  have hFound := Sql.filter_key_of_mem hInv.store.streamIds hMem
  rw [getStream, get_apply _ hInv.store.ready, hId, ← List.head?_filter, hFound]
  rfl

/-- After every history in which each table has taken in at most 2^31 - 1 rows, over any
number of restarts and with any deletes in between: the ids that the store reports for
streams, events and projections are the ids of their rows, in the order of the table, and
the id of a stream names that stream. -/
theorem reported_ids_exact {activities : List Activity} {c₀ : Connection}
    (hInit : initDb none = .returned () c₀) (hRun : Run ActivityStep c₀ activities c)
    (hFew : ∀ table, activities.countP (Table.inserts table) ≤ capacity) : ReportsRowIds c := by
  have hInv := Reachable.invariant ⟨c₀, activities, hInit, hRun⟩
  have hExact : ∀ table, ∀ id ∈ Table.ids table c, (getInt id).toInt = id := by
    intro table id hId
    obtain ⟨hPos, hLe⟩ := ids_bounds hInit hRun table id hId
    have hCount := hFew table
    exact toInt_getInt hPos (by omega)
  refine ⟨?_, ?_, ?_⟩
  · refine ⟨_, all_apply hInv.store.ready, ?_, ?_⟩
    · rw [List.map_map]
      exact List.map_congr_left fun row hMem => hExact .streams row.id (List.mem_map_of_mem hMem)
    · intro s hMem
      obtain ⟨row, hRow, rfl⟩ := List.mem_map.mp hMem
      exact stream_reported hInv hRow (hExact .streams row.id (List.mem_map_of_mem hRow))
  · intro plan streamId
    refine ⟨_, getEvents_eq plan streamId hInv.store, ?_⟩
    by_cases hStream : ∃ s ∈ c.database.streams, s.id = streamId.toInt
    · rw [if_pos hStream, if_pos hStream, List.map_map]
      refine List.map_congr_left fun row hMem => hExact .events row.id ?_
      exact List.mem_map_of_mem (List.mem_of_mem_filter hMem)
    · rw [if_neg hStream, if_neg hStream]
      rfl
  · refine ⟨_, ProjectionRepo.all_apply hInv.store.ready, ?_⟩
    rw [List.map_map]
    exact List.map_congr_left fun row hMem =>
      hExact .projections row.id (List.mem_map_of_mem hMem)

theorem reported_ids_exact_one_event : ReportsRowIds oneEventConnection := by
  have hCreate : ActivityStep freshConnection (.request ⟨.createStream "User", .ok .done, some 1⟩)
      (oneStreamConnection "User") := oneStreamConnection_created "User"
  have hPush : ActivityStep (oneStreamConnection "User")
      (.request ⟨.pushEvent 1 ⟨0, 1, "UserCreated", "{}", 1⟩, .ok .done, none⟩)
      oneEventConnection := .request ⟨.streamsOuter, .rowid⟩ ⟨rfl, rfl, rfl⟩
  exact reported_ids_exact initDb_none ((Run.single hCreate).tail hPush)
    fun table => by cases table <;> decide

end ActionHandler
end Yess

import Yess.Foundation.Identifiers
import Yess.Handler.History
import Yess.Handler.PlaySteps

namespace Yess
namespace ActionHandler

open Foundation Db Identifiers

/-!
# What an id stands for

The ids of streams, events and projections are row ids without `AUTOINCREMENT`, so
that the id of a deleted row is handed out again once it is larger than all that
are left (`stream_id_comes_back`).  A client that kept the old id then reaches the
new object.  `ids_come_back_after_delete` says when an id comes back, and what a
push or a play with an old id can reach.
-/

inductive Table where
  | streams
  | events
  | projections

def Table.Row : Table → Type
  | .streams => StreamRow
  | .events => EventRow
  | .projections => ProjectionRow

def Table.rows : (table : Table) → Connection → List table.Row
  | .streams, c => c.database.streams
  | .events, c => c.database.events
  | .projections, c => c.database.projections

def Table.id : (table : Table) → table.Row → Int
  | .streams, row => StreamRow.id row
  | .events, row => EventRow.id row
  | .projections, row => ProjectionRow.id row

/-- The ids in use in a table. -/
def Table.ids (table : Table) : Connection → List Int := idsOf table.rows table.id

def Activity.isDelete : Activity → Bool
  | .request ⟨.deleteStream _, _, _⟩ => true
  | .projection (.deleteProjection _) => true
  | _ => false

/-- The id was in use in `c`; before it is handed out again in `c'`, the row that had
it was deleted, and no row with a larger id is left. -/
structure ComesBack (table : Table) (id : Int) (c : Connection) (between : List Activity)
    (c' : Connection) : Prop where
  deleted : ∃ before removal after u v, between = before ++ removal :: after ∧
    Run ActivityStep c before u ∧ ActivityStep u removal v ∧ removal.isDelete = true ∧
      Removes table.ids id u v ∧ Run ActivityStep v after c'
  newest : ∀ other ∈ table.ids c', other < id

/-- A row of `c'` is one that `c` had and every state on the way kept, or one that was put
into the table under its id on the way, after a delete had taken the row with this id. -/
def StandsFor (table : Table) (row : table.Row) (c : Connection) (between : List Activity)
    (c' : Connection) : Prop :=
  Kept ActivityStep table.rows row c between c' ∨
    PutLater ActivityStep table.rows table.id (fun activity => activity.isDelete = true) row c
      between c'

/-- What pushes and plays in `c'` reach by an id that was in use in `c`. -/
structure OldIdsReach (c : Connection) (between : List Activity) (c' : Connection) :
    Prop where
  /-- A push that is stored adds the row of its event and changes nothing else.  The event
  goes to the stream that has the id now, or to no stream where foreign keys are not
  enforced. -/
  push : ∀ streamId event c'', event.streamId.toInt ∈ Table.streams.ids c →
    pushEvent streamId event c' = .returned () c'' →
      c'' = { c' with database := { c'.database with
        events := c'.database.events ++ [newEventRow c'.database event] } } ∧
      ((∃ row ∈ c'.database.streams, row.id = (newEventRow c'.database event).streamId ∧
          StandsFor .streams row c between c') ∨
        c'.foreignKeys = false ∧ event.streamId.toInt ∉ Table.streams.ids c')
  /-- A play takes its projection from the row that has the id now. -/
  projection : ∀ plan request proj events,
    request.projectionId.toInt ∈ Table.projections.ids c →
      load plan request c' = .returned (proj, events) c' →
        ∃ row ∈ c'.database.projections, row.id = request.projectionId.toInt ∧
          StandsFor .projections row c between c' ∧
          proj = Projection.new request.projectionId row.type row.data
  /-- A play of a stream reads the events of the stream that has the id now, or none. -/
  stream : ∀ plan request proj events i, request.stream = .id i →
    i.toInt ∈ Table.streams.ids c → load plan request c' = .returned (proj, events) c' →
      (∃ row ∈ c'.database.streams, row.id = i.toInt ∧ StandsFor .streams row c between c' ∧
        events = (eventsOf row.id c'.database.events).map EventRow.toEvent) ∨
      i.toInt ∉ Table.streams.ids c' ∧ events = []

/-! ## What a step does to the rows -/

variable {c c' : Connection} {activity : Activity}

theorem StoreEffect.change {entry : StoreEntry} (hEffect : StoreEffect c entry c')
    (table : Table) : Change table.id (table.rows c) (table.rows c') := by
  cases hEffect with
  | created type =>
      cases table with
      | streams => exact .added _ rfl
      | events => exact .removed (.refl _)
      | projections => exact .removed (.refl _)
  | deleted id =>
      cases table with
      | streams => exact .removed List.filter_sublist
      | events => exact .removed List.filter_sublist
      | projections => exact .removed (.refl _)
  | pushed streamId event hAccepted =>
      cases table with
      | streams => exact .removed (.refl _)
      | events => exact .added _ rfl
      | projections => exact .removed (.refl _)
  | refused streamId event error hRefused => exact .removed (.refl _)
  | read request reply hRead => exact .removed (.refl _)

theorem ProjectionEffect.change {request : ProjectionRequest}
    (hEffect : ProjectionEffect c request c') (table : Table) :
    Change table.id (table.rows c) (table.rows c') := by
  cases hEffect with
  | created data type =>
      cases table with
      | streams => exact .removed (.refl _)
      | events => exact .removed (.refl _)
      | projections => exact .added _ rfl
  | deleted id =>
      cases table with
      | streams => exact .removed (.refl _)
      | events => exact .removed (.refl _)
      | projections => exact .removed List.filter_sublist

theorem ActivityStep.change (hStep : ActivityStep c activity c') (hReady : c.Ready)
    (table : Table) : Change table.id (table.rows c) (table.rows c') := by
  cases hStep with
  | request plan hStep => exact (storeStep_effect hReady hStep).change table
  | projection hStep => exact (projectionStep_effect hReady hStep).change table
  | restart hInit =>
      rw [eq_of_initDb_some hInit]
      exact .removed (by cases table <;> exact .refl _)

/-- A step that is no delete keeps all rows. -/
theorem ActivityStep.rows_subset (hStep : ActivityStep c activity c') (hReady : c.Ready)
    (hNoDelete : ¬activity.isDelete = true) (table : Table) : table.rows c ⊆ table.rows c' := by
  cases hStep with
  | request plan hStep =>
      cases storeStep_effect hReady hStep with
      | created type =>
          cases table with
          | streams => exact List.subset_append_left _ _
          | events => exact List.Subset.refl _
          | projections => exact List.Subset.refl _
      | deleted id => exact absurd rfl hNoDelete
      | pushed streamId event hAccepted =>
          cases table with
          | streams => exact List.Subset.refl _
          | events => exact List.subset_append_left _ _
          | projections => exact List.Subset.refl _
      | refused streamId event error hRefused => exact List.Subset.refl _
      | read request reply hRead => exact List.Subset.refl _
  | projection hStep =>
      cases projectionStep_effect hReady hStep with
      | created data type =>
          cases table with
          | streams => exact List.Subset.refl _
          | events => exact List.Subset.refl _
          | projections => exact List.subset_append_left _ _
      | deleted id => exact absurd rfl hNoDelete
  | restart hInit =>
      obtain rfl := eq_of_initDb_some hInit
      cases table <;> exact List.Subset.refl _

/-- Only a delete gives ids back. -/
theorem ActivityStep.isDelete_of_removes {table : Table} {id : Int}
    (hStep : ActivityStep c activity c') (hReady : c.Ready)
    (hRemoves : Removes table.ids id c c') : activity.isDelete = true := by
  by_contra hNoDelete
  exact hRemoves.2 (List.map_subset _ (hStep.rows_subset hReady hNoDelete table) hRemoves.1)

/-! ## Old ids -/

theorem comesBack {table : Table} {id : Int} {between : List Activity} {c'' : Connection}
    (hReachable : Reachable c) (hId : id ∈ table.ids c)
    (hRun : Run ActivityStep c between c') (hStep : ActivityStep c' activity c'')
    (hAgain : Assigns table.ids id c' c'') : ComesBack table id c between c' := by
  obtain ⟨before, removal, after, u, v, hBetween, hBefore, hRemoval, hRemoves, hAfter⟩ :=
    removed_between hRun hId hAgain
  have hReadyU := (hReachable.run hBefore).invariant.store.ready
  have hReady := (hReachable.run hRun).invariant.store.ready
  exact ⟨⟨before, removal, after, u, v, hBetween, hBefore, hRemoval,
    hRemoval.isDelete_of_removes hReadyU hRemoves, hRemoves, hAfter⟩,
    hAgain.newest (hStep.change hReady table)⟩

/-- A row whose id was in use before stands for the old row or for a later one. -/
theorem standsFor {table : Table} {row : table.Row} {id : Int} {between : List Activity}
    (hReachable : Reachable c) (hRun : Run ActivityStep c between c')
    (hRow : row ∈ table.rows c') (hRowId : table.id row = id) (hId : id ∈ table.ids c) :
    StandsFor table row c between c' := by
  subst hRowId
  exact kept_or_putLater HistoryInvariant _ hRun hReachable.invariant
    (fun _ _ _ hInv hStep => hStep.historyInvariant hInv)
    (fun _ _ _ hInv hStep => hStep.change hInv.store.ready table)
    (fun _ _ _ _ hInv hStep hRemoves => hStep.isDelete_of_removes hInv.store.ready hRemoves)
    hId hRow

theorem mem_streams_ids {id : Int} :
    id ∈ Table.streams.ids c ↔ ∃ s ∈ c.database.streams, s.id = id :=
  List.mem_map

theorem oldIdsReach {between : List Activity} (hReachable : Reachable c)
    (hRun : Run ActivityStep c between c') : OldIdsReach c between c' where
  push := by
    intro streamId event c'' hId hPush
    have hInv := (hReachable.run hRun).invariant
    have hAccepted := (pushEvent_returned_iff streamId event hInv.store.ready).mp ⟨c'', hPush⟩
    have hStored := pushEvent_apply streamId event hInv.store.ready
    rw [hAccepted, hPush, Outcome.returned.injEq] at hStored
    refine ⟨hStored.2, ?_⟩
    rw [insertError_eq_none_iff hInv.store.ready hInv.store.numbered] at hAccepted
    by_cases hUsed : event.streamId.toInt ∈ Table.streams.ids c'
    · obtain ⟨row, hRow, hRowId⟩ := mem_streams_ids.mp hUsed
      exact Or.inl ⟨row, hRow, hRowId, standsFor hReachable hRun hRow hRowId hId⟩
    · have hKeys : ¬c'.foreignKeys = true := fun h =>
        hUsed (mem_streams_ids.mpr (hAccepted.2 h))
      exact Or.inr ⟨by simpa using hKeys, hUsed⟩
  projection := by
    intro plan request proj events hId hLoad
    have hInv := (hReachable.run hRun).invariant
    have hProj := (load_returned_iff.mp hLoad).1
    rw [ProjectionRepo.id_apply _ hInv.store.ready] at hProj
    cases hFound : c'.database.projections.find?
        fun row => row.id = request.projectionId.toInt with
    | none =>
        rw [hFound] at hProj
        simp at hProj
    | some row =>
        simp only [hFound, Outcome.returned.injEq, and_true] at hProj
        have hRow : row ∈ c'.database.projections := List.mem_of_find?_eq_some hFound
        have hRowId : row.id = request.projectionId.toInt := by simpa using List.find?_some hFound
        exact ⟨row, hRow, hRowId, standsFor hReachable hRun hRow hRowId hId, hProj.symm⟩
  stream := by
    intro plan request proj events i hStream hId hLoad
    have hInv := (hReachable.run hRun).invariant
    have hEvents := (load_returned_iff.mp hLoad).2
    rw [hStream, loadEvents, getEvents_eq plan i hInv.store, Outcome.returned.injEq] at hEvents
    by_cases hUsed : i.toInt ∈ Table.streams.ids c'
    · obtain ⟨row, hRow, hRowId⟩ := mem_streams_ids.mp hUsed
      rw [if_pos ⟨row, hRow, hRowId⟩] at hEvents
      exact Or.inl ⟨row, hRow, hRowId, standsFor hReachable hRun hRow hRowId hId,
        by rw [hRowId, hEvents.1]⟩
    · rw [if_neg fun h => hUsed (mem_streams_ids.mpr h)] at hEvents
      exact Or.inr ⟨hUsed, hEvents.1.symm⟩

/-- In every run of requests and restarts, for streams, events and projections: an id
that was in use is handed out again only after a delete took the row that had it, and
when no larger id is left.  A push or a play with an id that was in use before reaches
the row that had it then, if this was kept all along, or one that was put under it after
the deletion of the former: the push adds its event to that stream, and the play takes that
projection and the events of that stream.  Otherwise they fail, or there is nothing under the
id: a push without enforced foreign keys stores its event under no stream, a play reads no
events. -/
theorem ids_come_back_after_delete (hReachable : Reachable c) {between : List Activity}
    (hRun : Run ActivityStep c between c') :
    (∀ table id activity c'', id ∈ Table.ids table c → ActivityStep c' activity c'' →
      Assigns table.ids id c' c'' → ComesBack table id c between c') ∧
      OldIdsReach c between c' :=
  ⟨fun _ _ _ _ hId hStep hAgain => comesBack hReachable hId hRun hStep hAgain,
    oldIdsReach hReachable hRun⟩

/-- A new database with one stream. -/
def oneStreamConnection (type : String) : Connection := { freshConnection with
  database := { freshConnection.database with streams := [⟨1, type, 0⟩] } }

theorem oneStreamConnection_created (type : String) :
    ActivityStep freshConnection (.request ⟨.createStream type, .ok .done, some 1⟩)
      (oneStreamConnection type) :=
  .request ⟨.streamsOuter, .rowid⟩ ⟨rfl, rfl, rfl⟩

theorem oneStreamConnection_deleted (type : String) :
    ActivityStep (oneStreamConnection type) (.request ⟨.deleteStream 1, .ok .done, none⟩)
      freshConnection :=
  .request ⟨.streamsOuter, .rowid⟩ ⟨rfl, rfl, rfl⟩

theorem ids_come_back_after_delete_one_stream :
    ComesBack .streams 1 (oneStreamConnection "User")
      [.request ⟨.deleteStream 1, .ok .done, none⟩] freshConnection := by
  have hReachable := freshConnection_reachable.step (oneStreamConnection_created "User")
  have hComesBack := (ids_come_back_after_delete hReachable
    (.single (oneStreamConnection_deleted "User"))).1
  apply hComesBack .streams 1 _ _ ?_ (oneStreamConnection_created "Order") ?_
  · decide
  · exact ⟨by decide, by decide⟩

/-- A stream is created and deleted and another one created: both get the id 1, and a
push with the id of the first is stored for the second. -/
theorem stream_id_comes_back :
    Run ActivityStep freshConnection
        [.request ⟨.createStream "User", .ok .done, some 1⟩,
          .request ⟨.deleteStream 1, .ok .done, none⟩,
          .request ⟨.createStream "Order", .ok .done, some 1⟩]
        (oneStreamConnection "Order") ∧
      Assigns Table.streams.ids 1 freshConnection (oneStreamConnection "User") ∧
      Assigns Table.streams.ids 1 freshConnection (oneStreamConnection "Order") ∧
      ∃ c, pushEvent 1 ⟨0, 1, "UserCreated", "{}", 1⟩ (oneStreamConnection "Order") =
          .returned () c ∧
        getEventsByStreamType ⟨.streamsOuter, .rowid⟩ "Order" c =
          .returned [⟨1, 1, "UserCreated", "{}", 1⟩] c := by
  refine ⟨?_, ⟨by decide, by decide⟩, ⟨by decide, by decide⟩, _, rfl, rfl⟩
  have hCreated := Run.single (oneStreamConnection_created "User")
  exact (hCreated.tail (oneStreamConnection_deleted "User")).tail
    (oneStreamConnection_created "Order")

end ActionHandler
end Yess

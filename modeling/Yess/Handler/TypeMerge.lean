import Yess.Handler.History

namespace Yess
namespace ActionHandler

open Foundation Db VersionedLog

/-!
# Reading the events of a type

The query for the events of a type joins the two tables without an `ORDER BY`.
Whatever the plan, its rows are a permutation of the events whose stream has the
type, and the rows of each stream come out in the order of `getEvents` for that
stream (`getEventsByStreamType_merges`).  What the order rests on is that ids and
versions of the events of one stream grow together.
-/

/-- Does the event belong to an existing stream of the type? -/
def belongsToType (db : Database) (streamType : String) (row : EventRow) : Bool :=
  db.streams.any fun s => s.id == row.streamId && s.type == streamType

/-- The reply to a query by type holds each event of each stream of the type once
and nothing else, and the events of one stream in it are the reply to the query
for that stream, with the versions `1, 2, ..., n`. -/
structure MergesStreams (plan : Plan) (c : Connection) (streamType : String)
    (events : List Event) : Prop where
  complete : events.Perm
    ((c.database.events.filter (belongsToType c.database streamType)).map EventRow.toEvent)
  once : events.Nodup
  stream : ∀ s ∈ c.database.streams, s.type = streamType → ∀ i : Int32, i.toInt = s.id →
    getEventsByStreamId plan i c = .returned (events.filter fun e => e.streamId = i) c
  versions : ∀ s ∈ c.database.streams, s.type = streamType → ∀ i : Int32, i.toInt = s.id →
    ∃ n, (events.filter fun e => e.streamId = i).map (fun e => e.version.toInt) = upTo n

/-- The rows that the query by type finds. -/
def rowsOfType (plan : Plan) (db : Database) (streamType : String) : List EventRow :=
  ((joinEventsStreams plan db).filter fun row => row.2.type = streamType).map Prod.fst

variable {db : Database} {streamType : String}

/-- With the events outside, the rows are the events of the scan that have a stream of
the type. -/
theorem rowsOfType_eventsOuter (hStreams : db.streams.Pairwise fun a b => a.id < b.id)
    (order : Sql.ScanOrder) :
    rowsOfType ⟨.eventsOuter, order⟩ db streamType =
      (Sql.scan order EventRow.indexKey db.events).filter (belongsToType db streamType) := by
  have hInner := Sql.filter_nestedLoop_inner
    (fun (e : EventRow) (s : StreamRow) => s.id == e.streamId)
    (fun s => s.type = streamType)
    (Sql.scan order EventRow.indexKey db.events) db.streams
  unfold rowsOfType joinEventsStreams
  dsimp only
  rw [hInner, Sql.map_fst_nestedLoop_of_key _ (hStreams.filter fun s => s.type = streamType)]
  apply List.filter_congr
  intro e _
  rw [List.any_filter, belongsToType]
  congr 1
  funext s
  rw [Bool.and_comm, beq_eq_decide s.type]

/-- With either table outside, the join has the same pairs. -/
theorem joinEventsStreams_perm (plan : Plan) (db : Database) :
    (joinEventsStreams plan db).Perm (joinEventsStreams ⟨.eventsOuter, plan.events⟩ db) := by
  unfold joinEventsStreams
  cases plan.join with
  | streamsOuter => exact Sql.nestedLoop_swap_perm _ _ _
  | eventsOuter => exact .refl _

/-- Each event of a stream of the type is found once. -/
theorem rowsOfType_perm (plan : Plan) (hStreams : db.streams.Pairwise fun a b => a.id < b.id)
    (streamType : String) :
    (rowsOfType plan db streamType).Perm
      (db.events.filter (belongsToType db streamType)) := by
  have hOuter : (rowsOfType plan db streamType).Perm
      (rowsOfType ⟨.eventsOuter, plan.events⟩ db streamType) :=
    ((joinEventsStreams_perm plan db).filter _).map _
  rw [rowsOfType_eventsOuter hStreams] at hOuter
  exact hOuter.trans ((Sql.scan_perm plan.events EventRow.indexKey db.events).filter _)

/-- The rows of one stream of the type are found in the order of the table. -/
theorem eventsOf_rowsOfType (plan : Plan)
    (hStreams : db.streams.Pairwise fun a b => a.id < b.id)
    (hNumbered : EventsNumbered db.events) {s : StreamRow} (hMem : s ∈ db.streams)
    (hType : s.type = streamType) :
    eventsOf s.id (rowsOfType plan db streamType) = eventsOf s.id db.events := by
  have hStream := joinEventsStreams_streamId plan hStreams hNumbered s.id
  rw [if_pos ⟨s, hMem, rfl⟩] at hStream
  rw [← hStream, eventsOf, rowsOfType, List.filter_map, List.filter_filter]
  congr 1
  apply List.filter_congr
  intro pair hPair
  obtain ⟨-, hStreamMem, hOn⟩ := mem_joinEventsStreams hPair
  by_cases hId : pair.1.streamId = s.id
  -- A pair with the id of the stream has the stream itself on its other side.
  · have hSame : pair.2 = s := by
      have hFound := Sql.filter_key_of_mem hStreams hMem
      have hIn : pair.2 ∈ db.streams.filter fun r => r.id = s.id :=
        List.mem_filter.mpr ⟨hStreamMem, by simpa using hOn.trans hId⟩
      rw [hFound] at hIn
      exact List.mem_singleton.mp hIn
    simp [hSame, hType, hId]
  · simp [hId]

/-! ## From rows to events -/

variable {c : Connection}

theorem streamId_toEvent_iff (hInv : HistoryInvariant c) {row : EventRow}
    (hRow : row ∈ c.database.events) (i : Int32) :
    row.toEvent.streamId = i ↔ row.streamId = i.toInt := by
  obtain ⟨streamId, _, hStream, -⟩ := hInv.eventInts row hRow
  show getInt row.streamId = i ↔ _
  rw [hStream, getInt, Int32.ofInt_toInt, Int32.toInt_inj]

theorem version_toEvent (hInv : HistoryInvariant c) {row : EventRow}
    (hRow : row ∈ c.database.events) : row.toEvent.version.toInt = row.version := by
  obtain ⟨_, version, -, hVersion⟩ := hInv.eventInts row hRow
  show (getInt row.version).toInt = _
  rw [hVersion, getInt, Int32.ofInt_toInt]

/-- An event is told from the others by its stream and its version. -/
theorem toEvent_inj (hInv : HistoryInvariant c) {a b : EventRow}
    (hA : a ∈ c.database.events) (hB : b ∈ c.database.events)
    (hSame : a.toEvent = b.toEvent) : a = b := by
  have hStream : a.streamId = b.streamId := by
    obtain ⟨i, _, hI, -⟩ := hInv.eventInts b hB
    have hB' := (streamId_toEvent_iff hInv hB i).mpr hI
    rw [hI, ← streamId_toEvent_iff hInv hA, hSame, hB']
  have hVersion : a.version = b.version := by
    rw [← version_toEvent hInv hA, ← version_toEvent hInv hB, hSame]
  have hDistinct : ((eventsOf b.streamId c.database.events).map EventRow.version).Nodup := by
    rw [hInv.store.numbered.versions]
    exact (pairwise_upTo _).imp fun h => h.ne
  exact List.inj_on_of_nodup_map hDistinct (mem_eventsOf.mpr ⟨hA, hStream⟩)
    (mem_eventsOf.mpr ⟨hB, rfl⟩) hVersion

/-- The events of one stream in a reply are the rows of the stream behind it. -/
theorem filter_map_toEvent (hInv : HistoryInvariant c) {rows : List EventRow}
    (hRows : ∀ row ∈ rows, row ∈ c.database.events) (i : Int32) :
    (rows.map EventRow.toEvent).filter (fun e => e.streamId = i) =
      (eventsOf i.toInt rows).map EventRow.toEvent := by
  rw [List.filter_map, eventsOf]
  congr 1
  apply List.filter_congr
  intro row hRow
  simp only [Function.comp_apply, decide_eq_decide]
  exact streamId_toEvent_iff hInv (hRows row hRow) i

/-- In every state that creates, deletes, pushes and restarts lead to, for every type
and whatever the plans: the query by type returns each event of each existing stream
of the type once and no other event, and its events of one stream are those that the
query for the stream returns, with the versions `1, 2, ..., n` in this order. -/
theorem getEventsByStreamType_merges (hReachable : Reachable c) (plan plan' : Plan)
    (streamType : String) :
    ∃ events, getEventsByStreamType plan streamType c = .returned events c ∧
      MergesStreams plan' c streamType events := by
  have hInv := hReachable.invariant
  have hPerm := rowsOfType_perm plan hInv.store.streamIds streamType
  have hRows : ∀ row ∈ rowsOfType plan c.database streamType, row ∈ c.database.events :=
    fun row hRow => List.mem_of_mem_filter (hPerm.mem_iff.mp hRow)
  have hStream : ∀ s ∈ c.database.streams, s.type = streamType → ∀ i : Int32,
      i.toInt = s.id →
        ((rowsOfType plan c.database streamType).map EventRow.toEvent).filter
            (fun e => e.streamId = i) =
          (eventsOf s.id c.database.events).map EventRow.toEvent := by
    intro s hMem hType i hId
    rw [filter_map_toEvent hInv hRows, hId,
      eventsOf_rowsOfType plan hInv.store.streamIds hInv.store.numbered hMem hType]
  refine ⟨_, getEventsByType_apply plan streamType hInv.store.ready, hPerm.map _, ?_, ?_, ?_⟩
  · have hNodup : (rowsOfType plan c.database streamType).Nodup :=
      hPerm.nodup_iff.mpr ((hInv.store.numbered.ids.imp fun h => by
        rintro rfl
        omega).filter _)
    exact hNodup.map_on fun a hA b hB hSame =>
      toEvent_inj hInv (hRows a hA) (hRows b hB) hSame
  · intro s hMem hType i hId
    rw [getEventsByStreamId, getEvents_eq plan' i hInv.store, hId, if_pos ⟨s, hMem, rfl⟩]
    rw [← hStream s hMem hType i hId, rowsOfType]
  · intro s hMem hType i hId
    refine ⟨(eventsOf s.id c.database.events).length, ?_⟩
    have hEvents := hStream s hMem hType i hId
    rw [rowsOfType] at hEvents
    rw [hEvents, List.map_map, ← hInv.store.numbered.versions]
    apply List.map_congr_left
    intro row hRow
    exact version_toEvent hInv (mem_eventsOf.mp hRow).1

theorem getEventsByStreamType_merges_one_event :
    ∃ events, getEventsByStreamType ⟨.eventsOuter, .index⟩ "User" oneEventConnection =
        .returned events oneEventConnection ∧
      MergesStreams ⟨.streamsOuter, .rowid⟩ oneEventConnection "User" events :=
  getEventsByStreamType_merges oneEventConnection_reachable _ _ _

end ActionHandler
end Yess

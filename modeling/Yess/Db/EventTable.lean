import Yess.Db.SqliteStreamRepo
import Yess.Foundation.VersionedLog

namespace Yess
namespace Db

open Foundation VersionedLog

/-!
# The table of events

The rows of `events` lie in increasing order of their ids, and the versions of
the rows of each stream, in that order, are `1, 2, ..., n` (`EventsNumbered`).
On such a table the trigger accepts a row exactly when its version is `n + 1`
(`verValid_eq_none_iff`), and every plan reads the events of a stream in the
order of the table (`getEvents_eq`).
-/

/-- Rows in increasing order of ids, versions counted from one in each stream. -/
structure EventsNumbered (events : List EventRow) : Prop where
  ids : events.Pairwise fun a b => a.id < b.id
  versions : ∀ streamId : Int, (eventsOf streamId events).map EventRow.version =
    upTo (eventsOf streamId events).length

theorem eventsNumbered_nil : EventsNumbered [] where
  ids := List.Pairwise.nil
  versions := fun _ => rfl

theorem mem_eventsOf {streamId : Int} {events : List EventRow} {row : EventRow} :
    row ∈ eventsOf streamId events ↔ row ∈ events ∧ row.streamId = streamId := by
  simp [eventsOf]

theorem eventsOf_append (streamId : Int) (events : List EventRow) (row : EventRow) :
    eventsOf streamId (events ++ [row]) =
      eventsOf streamId events ++ if row.streamId = streamId then [row] else [] := by
  by_cases h : row.streamId = streamId <;> simp [eventsOf, h]

/-- Deleting the events of one stream empties it and leaves the others. -/
theorem eventsOf_delete (streamId deleted : Int) (events : List EventRow) :
    eventsOf streamId (events.filter fun row => row.streamId ≠ deleted) =
      if streamId = deleted then [] else eventsOf streamId events := by
  by_cases h : streamId = deleted
  · subst h
    simp [eventsOf]
  · rw [if_neg h, eventsOf, List.filter_filter]
    apply List.filter_congr
    intro row _
    by_cases hRow : row.streamId = streamId
    · simp [hRow, h]
    · simp [hRow]

/-! ## The trigger -/

/-- `SELECT version .. ORDER BY version DESC LIMIT 1` over rows numbered from
one: the number of rows, and `NULL` when there is none. -/
theorem lastVersion_of_numbered {rows : List EventRow}
    (hRows : rows.map EventRow.version = upTo rows.length) :
    (Sql.orderDescLimitOne EventRow.version rows).map EventRow.version =
      if rows.length = 0 then none else some (rows.length : Int) := by
  unfold Sql.orderDescLimitOne
  cases hLast : rows.maxOn? EventRow.version with
  | none =>
      have hNil : rows = [] := by
        by_contra hSome
        simpa [hLast] using List.isSome_maxOn?_iff (f := EventRow.version).mpr hSome
      subst hNil
      rfl
  | some last =>
      have hMem : last ∈ rows := List.maxOn?_mem hLast
      have hPos : rows.length ≠ 0 := by
        intro h
        rw [List.length_eq_zero_iff] at h
        subst h
        simp at hMem
      have hLe : last.version ≤ rows.length := by
        have hVersion := List.mem_map_of_mem (f := EventRow.version) hMem
        rw [hRows, mem_upTo] at hVersion
        exact hVersion.2
      -- The maximum is at most `n` as a version, and at least `n` as `n` is one.
      have hTop : (rows.length : Int) ∈ rows.map EventRow.version := by
        rw [hRows, mem_upTo]
        omega
      obtain ⟨top, hTopMem, hTopVersion⟩ := List.mem_map.mp hTop
      have hGe : top.version ≤ last.version := by
        simpa [hLast] using List.le_apply_get_maxOn?_of_mem (f := EventRow.version) hTopMem
      rw [if_neg hPos, Option.map_some, Option.some.injEq]
      omega

/-- The trigger lets a row through exactly when its version is the next one of
its stream.  On an empty stream the second condition is `NULL` and only the
first one speaks; on any other the first one is false. -/
theorem verValid_eq_none_iff {events : List EventRow} (hNumbered : EventsNumbered events)
    (new : EventRow) :
    verValid events new = none ↔
      new.version = (eventsOf new.streamId events).length + 1 := by
  have hLast := lastVersion_of_numbered (hNumbered.versions new.streamId)
  unfold verValid
  simp only [hLast, Sql.searchedCase_eq_none_iff, List.forall_mem_cons, ne_eq,
    Sql.conj_eq_true_iff, Sql.equal_eq_true_iff, Sql.notEqual_eq_true_iff,
    Sql.minus_some, List.not_mem_nil, false_implies, implies_true, and_true]
  by_cases hEmpty : (eventsOf new.streamId events).length = 0
  -- The second condition is `NULL` here and is passed over.
  · simp only [hEmpty, if_true, Sql.notEqual_null_left]
    simp
  · simp only [hEmpty, if_false, Sql.notEqual_eq_true_iff]
    omega

/-- What it takes for a row to be stored. -/
theorem insertError_eq_none_iff {c : Connection} (hReady : c.Ready)
    (hNumbered : EventsNumbered c.database.events) (row : EventRow) :
    insertError c row = none ↔
      row.version = (eventsOf row.streamId c.database.events).length + 1 ∧
        (c.foreignKeys = true → ∃ s ∈ c.database.streams, s.id = row.streamId) := by
  have hTrigger : c.database.schema.verValid = true := by rw [hReady.schema]; rfl
  have hIff := verValid_eq_none_iff hNumbered row
  unfold insertError
  rw [hTrigger, if_pos rfl]
  cases hRaised : verValid c.database.events row with
  | some message =>
      have hVersion : row.version ≠ (eventsOf row.streamId c.database.events).length + 1 := by
        intro h
        rw [← hIff, hRaised] at h
        simp at h
      simp [hVersion]
  | none =>
      have hVersion := hIff.mp hRaised
      -- The unique constraint never speaks after the trigger: the new version is
      -- larger than those present.
      have hUnique : (c.database.events.any fun old =>
          old.streamId = row.streamId && old.version = row.version) = false := by
        rw [List.any_eq_false]
        intro old hOld hSame
        simp only [Bool.and_eq_true, decide_eq_true_eq] at hSame
        have hMem : old.version ∈
            (eventsOf row.streamId c.database.events).map EventRow.version :=
          List.mem_map_of_mem (mem_eventsOf.mpr ⟨hOld, hSame.1⟩)
        rw [hNumbered.versions, mem_upTo] at hMem
        omega
      simp only [hUnique, Bool.false_eq_true, if_false]
      simp only [hVersion, true_and]
      by_cases hKeys : c.foreignKeys = true
      · simp [hKeys]
      · simp [hKeys]

/-- In rows numbered in the order of their ids, the larger version has the larger
id. -/
theorem EventsNumbered.id_lt_of_version_lt {events : List EventRow}
    (hNumbered : EventsNumbered events) {a b : EventRow} (hA : a ∈ events)
    (hB : b ∈ events) (hStream : a.streamId = b.streamId)
    (hVersion : a.version < b.version) : a.id < b.id := by
  have hMemA : a ∈ eventsOf b.streamId events := mem_eventsOf.mpr ⟨hA, hStream⟩
  have hMemB : b ∈ eventsOf b.streamId events := mem_eventsOf.mpr ⟨hB, rfl⟩
  have hVersions : (eventsOf b.streamId events).Pairwise
      fun a b => a.version < b.version := by
    rw [← List.pairwise_map, hNumbered.versions]
    exact pairwise_upTo _
  have hIds : (eventsOf b.streamId events).Pairwise fun a b => a.id < b.id :=
    hNumbered.ids.filter _
  have hOrdered : (eventsOf b.streamId events).Pairwise fun a b =>
      (a.version < b.version → a.id < b.id) ∧ (b.version < a.version → b.id < a.id) :=
    (hIds.and hVersions).imp fun h => ⟨fun _ => h.1, fun h' => by omega⟩
  have hSymm : Std.Symm fun a b : EventRow =>
      (a.version < b.version → a.id < b.id) ∧ (b.version < a.version → b.id < a.id) :=
    ⟨fun _ _ h => ⟨h.2, h.1⟩⟩
  have hNe : a ≠ b := by
    rintro rfl
    omega
  exact (hOrdered.forall hMemA hMemB hNe).1 hVersion

/-! ## Reading a stream -/

/-- What holds of the tables between two requests. -/
structure StoreInvariant (c : Connection) : Prop where
  ready : c.Ready
  streamIds : c.database.streams.Pairwise fun a b => a.id < b.id
  numbered : EventsNumbered c.database.events

/-- The index visits the events of one stream in the order of the table. -/
theorem filter_scan_eventsOf {events : List EventRow} (hNumbered : EventsNumbered events)
    (order : Sql.ScanOrder) (streamId : Int) :
    (Sql.scan order EventRow.indexKey events).filter
        (fun row => row.streamId = streamId) = eventsOf streamId events := by
  refine Sql.filter_scan order _ _ events ?_
  have hVersions : (eventsOf streamId events).Pairwise fun a b => a.version < b.version := by
    rw [← List.pairwise_map, hNumbered.versions]
    exact pairwise_upTo _
  refine hVersions.imp_of_mem ?_
  intro a b hA hB hLt
  rw [EventRow.indexKey, EventRow.indexKey, (mem_eventsOf.mp hA).2, (mem_eventsOf.mp hB).2,
    Prod.Lex.toLex_le_toLex]
  exact Or.inr ⟨rfl, hLt.le⟩

/-- A pair of the join is an event and its stream. -/
theorem mem_joinEventsStreams {plan : Plan} {db : Database}
    {pair : EventRow × StreamRow}
    (hPair : pair ∈ joinEventsStreams plan db) :
    pair.1 ∈ db.events ∧ pair.2 ∈ db.streams ∧ pair.2.id = pair.1.streamId := by
  obtain ⟨e, s⟩ := pair
  have hScan : ∀ e, e ∈ Sql.scan plan.events EventRow.indexKey db.events → e ∈ db.events :=
    fun e hE => (Sql.scan_perm _ _ _).mem_iff.mp hE
  unfold joinEventsStreams at hPair
  cases hJoin : plan.join with
  | streamsOuter =>
      rw [hJoin] at hPair
      obtain ⟨⟨s', e'⟩, hMem, hSwap⟩ := List.mem_map.mp hPair
      obtain ⟨rfl, rfl⟩ := Prod.mk.inj hSwap
      obtain ⟨hS, hE, hOn⟩ := Sql.mem_nestedLoop.mp hMem
      exact ⟨hScan _ hE, hS, by simpa using hOn⟩
  | eventsOuter =>
      rw [hJoin] at hPair
      obtain ⟨hE, hS, hOn⟩ := Sql.mem_nestedLoop.mp hPair
      exact ⟨hScan _ hE, hS, by simpa using hOn⟩

/-- The rows that the join finds for one stream id, by the streams that have it:
with the streams outside, the events once for each of them; with the events
outside, each event as often as there are such streams. -/
theorem joinEventsStreams_found (plan : Plan) {db : Database}
    (hNumbered : EventsNumbered db.events) (streamId : Int) :
    ((joinEventsStreams plan db).filter fun row => row.1.streamId = streamId).map Prod.fst =
      match plan.join with
      | .streamsOuter => (db.streams.filter fun s => s.id = streamId).flatMap
          fun _ => eventsOf streamId db.events
      | .eventsOuter => (eventsOf streamId db.events).flatMap
          fun e => (db.streams.filter fun s => s.id = streamId).map fun _ => e := by
  have hScan := filter_scan_eventsOf hNumbered plan.events streamId
  unfold joinEventsStreams
  cases plan.join with
  | streamsOuter =>
      have hInner := Sql.filter_nestedLoop_inner
        (fun (s : StreamRow) (e : EventRow) => s.id == e.streamId)
        (fun e => e.streamId = streamId) db.streams
        (Sql.scan plan.events EventRow.indexKey db.events)
      have hOn : ∀ s ∈ db.streams, ∀ e ∈ eventsOf streamId db.events,
          (s.id == e.streamId) = decide (s.id = streamId) := by
        intro s _ e hE
        rw [(mem_eventsOf.mp hE).2]
        rfl
      rw [hScan, Sql.nestedLoop_of_outer hOn] at hInner
      simp only [List.filter_map, Function.comp_def, Prod.fst_swap, hInner,
        List.map_map, List.map_flatMap, List.map_id']
  | eventsOuter =>
      have hOuter := Sql.filter_nestedLoop_outer
        (fun (e : EventRow) (s : StreamRow) => s.id == e.streamId)
        (fun e => e.streamId = streamId)
        (Sql.scan plan.events EventRow.indexKey db.events) db.streams
      have hMatches : ∀ e ∈ eventsOf streamId db.events,
          db.streams.filter (fun s => s.id == e.streamId) =
            db.streams.filter fun s => s.id = streamId := by
        intro e hE
        rw [(mem_eventsOf.mp hE).2]
        rfl
      rw [hScan, Sql.nestedLoop_of_matches hMatches] at hOuter
      simp only [hOuter, List.map_flatMap, List.map_map, Function.comp_def]

/-- The rows that the join finds for one stream id: the events of the stream if
there is one, nothing otherwise, for every plan. -/
theorem joinEventsStreams_streamId (plan : Plan) {db : Database}
    (hStreams : db.streams.Pairwise fun a b => a.id < b.id)
    (hNumbered : EventsNumbered db.events) (streamId : Int) :
    ((joinEventsStreams plan db).filter fun row => row.1.streamId = streamId).map Prod.fst =
      if ∃ s ∈ db.streams, s.id = streamId then eventsOf streamId db.events else [] := by
  rw [joinEventsStreams_found plan hNumbered]
  by_cases hExists : ∃ s ∈ db.streams, s.id = streamId
  · rw [if_pos hExists]
    obtain ⟨s, hMem, rfl⟩ := hExists
    rw [Sql.filter_key_of_mem hStreams hMem]
    cases plan.join <;> simp
  · rw [if_neg hExists]
    have hNone : (db.streams.filter fun s => s.id = streamId) = [] := by
      rw [List.filter_eq_nil_iff]
      intro s hMem
      simpa using fun h => hExists ⟨s, hMem, h⟩
    rw [hNone]
    cases plan.join <;> simp

/-- Asked by the id of the stream instead, the join finds the same rows. -/
theorem joinEventsStreams_id (plan : Plan) (db : Database) (streamId : Int) :
    ((joinEventsStreams plan db).filter fun row => row.2.id = streamId) =
      (joinEventsStreams plan db).filter fun row => row.1.streamId = streamId := by
  apply List.filter_congr
  intro pair hPair
  rw [(mem_joinEventsStreams hPair).2.2]

/-- `getLastEvent` finds the newest row of an existing stream. -/
theorem getLastEvent_eq (plan : Plan) (streamId : Int32) {c : Connection}
    (hInv : StoreInvariant c) (hExists : ∃ s ∈ c.database.streams, s.id = streamId.toInt) :
    getLastEvent plan streamId c = .returned
      ((Sql.orderDescLimitOne EventRow.version
        (eventsOf streamId.toInt c.database.events)).map
          fun row => { row.toEvent with streamId := streamId }) c := by
  have hRows := joinEventsStreams_streamId plan hInv.streamIds hInv.numbered streamId.toInt
  rw [if_pos hExists, ← joinEventsStreams_id] at hRows
  rw [getLastEvent, Prog.bind_of_returned (queryEvents_apply plan _ hInv.ready), hRows]
  cases Sql.orderDescLimitOne EventRow.version
    (eventsOf streamId.toInt c.database.events) <;> rfl

/-- `getEvents(int)` returns the events of an existing stream in the order of the
table, and nothing for a missing one, whatever the plan. -/
theorem getEvents_eq (plan : Plan) (streamId : Int32) {c : Connection}
    (hInv : StoreInvariant c) :
    getEvents plan streamId c = .returned
      ((if ∃ s ∈ c.database.streams, s.id = streamId.toInt
        then eventsOf streamId.toInt c.database.events else []).map EventRow.toEvent) c := by
  rw [getEvents_apply plan streamId hInv.ready,
    joinEventsStreams_streamId plan hInv.streamIds hInv.numbered]

end Db
end Yess

import Yess.Handler.History

namespace Yess
namespace ActionHandler

open Foundation Db VersionedLog

/-!
# The version of a stream

`streams.version` is written when the stream is created and by no other statement,
so that every reader reports the version 0 for a stream, however many events it
has (`stream_version_stays_zero`).  The version that the next push needs is the one
after that of the last event.
-/

/-- The version of the last event, 0 where there is none. -/
def lastVersion (last : Option Event) : Int :=
  match last with
  | none => 0
  | some event => event.version.toInt

/-- All readers report the version of its last event for each stream. -/
def VersionsAgree (plan : Plan) (c : Connection) : Prop :=
  ∀ s ∈ c.database.streams, ∀ i : Int32, i.toInt = s.id → ∀ last,
    getLastEvent plan i c = .returned last c →
      (∀ stream, getStream i c = .returned (some stream) c →
        stream.version.toInt = lastVersion last) ∧
      (∀ streams, getAllStreams c = .returned streams c →
        ∀ stream ∈ streams, stream.id = i → stream.version.toInt = lastVersion last) ∧
      ∀ streams, getStreamsByType s.type c = .returned streams c →
        ∀ stream ∈ streams, stream.id = i → stream.version.toInt = lastVersion last

/-- What the readers report for the streams there are. -/
structure ReportsZero (c : Connection) : Prop where
  all : ∃ streams, getAllStreams c = .returned streams c ∧
    ∀ stream ∈ streams, stream.version = 0
  byType : ∀ type, ∃ streams, getStreamsByType type c = .returned streams c ∧
    ∀ stream ∈ streams, stream.version = 0
  get : ∀ i, ∃ stream, getStream i c = .returned stream c ∧
    ∀ found ∈ stream, found.version = 0

/-- The last event of the stream tells how far the stream has come: it has one
exactly when the stream has events, its version is their number, and the version
after it is the one that a push needs. -/
def LastEventCounts (plan : Plan) (c : Connection) (i : Int32) : Prop :=
  ∃ last events, getLastEvent plan i c = .returned last c ∧
    getEventsByStreamId plan i c = .returned events c ∧
    lastVersion last = events.length ∧ (last = none ↔ events = []) ∧
    ∀ j event, event.streamId = i →
      ((∃ c', pushEvent j event c = .returned () c') ↔
        event.version.toInt = lastVersion last + 1)

variable {c : Connection}

theorem toStream_version (hInv : HistoryInvariant c) {row : StreamRow}
    (hRow : row ∈ c.database.streams) : row.toStream.version = 0 := by
  show getInt row.version = 0
  rw [hInv.streamVersions row hRow]
  rfl

theorem reportsZero (hInv : HistoryInvariant c) : ReportsZero c where
  all := by
    refine ⟨_, all_apply hInv.store.ready, ?_⟩
    intro stream hStream
    obtain ⟨row, hRow, rfl⟩ := List.mem_map.mp hStream
    exact toStream_version hInv hRow
  byType := by
    intro type
    refine ⟨_, byType_apply type hInv.store.ready, ?_⟩
    intro stream hStream
    obtain ⟨row, hRow, rfl⟩ := List.mem_map.mp hStream
    exact toStream_version hInv (List.mem_of_mem_filter hRow)
  get := by
    intro i
    refine ⟨_, Db.get_apply i hInv.store.ready, ?_⟩
    intro stream hStream
    obtain ⟨row, hFound, rfl⟩ := Option.mem_map.mp hStream
    exact toStream_version hInv (List.mem_of_find?_eq_some hFound)

/-- The version of the newest row of a numbered stream. -/
theorem lastVersion_newest (hInv : HistoryInvariant c) (i : Int32) :
    lastVersion ((Sql.orderDescLimitOne EventRow.version
        (eventsOf i.toInt c.database.events)).map
          fun row => { row.toEvent with streamId := i }) =
      (eventsOf i.toInt c.database.events).length := by
  have hLast := lastVersion_of_numbered (hInv.store.numbered.versions i.toInt)
  cases hNewest : Sql.orderDescLimitOne EventRow.version
      (eventsOf i.toInt c.database.events) with
  | none =>
      by_cases hEmpty : (eventsOf i.toInt c.database.events).length = 0
      · rw [hEmpty]
        rfl
      · rw [hNewest, if_neg hEmpty] at hLast
        simp at hLast
  | some row =>
      have hMem : row ∈ eventsOf i.toInt c.database.events := List.maxOn?_mem hNewest
      have hPos : (eventsOf i.toInt c.database.events).length ≠ 0 :=
        (List.length_pos_of_mem hMem).ne'
      rw [hNewest, if_neg hPos, Option.map_some, Option.some.injEq] at hLast
      obtain ⟨_, version, -, hVersion⟩ := hInv.eventInts row (mem_eventsOf.mp hMem).1
      show (getInt row.version).toInt = _
      rw [← hLast, hVersion, getInt, Int32.ofInt_toInt]

theorem lastEventCounts (hInv : HistoryInvariant c) (plan : Plan) {i : Int32}
    (hExists : ∃ s ∈ c.database.streams, s.id = i.toInt) : LastEventCounts plan c i := by
  have hVersion := lastVersion_newest hInv i
  have hEvents := getEvents_eq plan i hInv.store
  rw [if_pos hExists] at hEvents
  refine ⟨_, _, getLastEvent_eq plan i hInv.store hExists, hEvents, ?_, ?_, ?_⟩
  · rw [hVersion, List.length_map]
  · rw [Option.map_eq_none_iff, List.map_eq_nil_iff, Sql.orderDescLimitOne_eq_none_iff]
  · intro j event hStream
    have hRow : (newEventRow c.database event).streamId = i.toInt := by rw [← hStream]; rfl
    rw [pushEvent_returned_iff j event hInv.store.ready,
      insertError_eq_none_iff hInv.store.ready hInv.store.numbered, hRow, hVersion]
    exact and_iff_left fun _ => hExists

/-- In every state that creates, deletes, pushes and restarts lead to, every reader
reports the version 0 for every stream.  This is the version of the last event
exactly when the stream has no events; otherwise the last event has the number of
events as its version, and the next version that a push needs is the one after
it. -/
theorem stream_version_stays_zero (hReachable : Reachable c) (plan : Plan) :
    ReportsZero c ∧
      ∀ s ∈ c.database.streams, ∀ i : Int32, i.toInt = s.id → LastEventCounts plan c i := by
  have hInv := hReachable.invariant
  refine ⟨reportsZero hInv, ?_⟩
  intro s hMem i hId
  exact lastEventCounts hInv plan ⟨s, hMem, hId.symm⟩

theorem stream_version_stays_zero_one_event :
    ReportsZero oneEventConnection ∧
      ∀ s ∈ oneEventConnection.database.streams, ∀ i : Int32, i.toInt = s.id →
        LastEventCounts ⟨.eventsOuter, .index⟩ oneEventConnection i :=
  stream_version_stays_zero oneEventConnection_reachable _

/-- A stream is created and its first event pushed: the stream is reported with the
version 0, its last event has the version 1, and a push of version 1 is refused. -/
theorem stream_version_lags :
    Reachable oneEventConnection ∧
      getStream 1 oneEventConnection =
        .returned (some ⟨1, "User", 0⟩) oneEventConnection ∧
      getLastEvent ⟨.streamsOuter, .rowid⟩ 1 oneEventConnection =
        .returned (some ⟨1, 1, "UserCreated", "{}", 1⟩) oneEventConnection ∧
      ¬VersionsAgree ⟨.streamsOuter, .rowid⟩ oneEventConnection ∧
      pushEvent 1 ⟨0, 1, "UserRenamed", "{}", 1⟩ oneEventConnection =
        .threw (.runtimeError "DB ERROR: Event version mismatch.") oneEventConnection := by
  refine ⟨oneEventConnection_reachable, rfl, rfl, ?_, rfl⟩
  intro hAgree
  have hGet := (hAgree ⟨1, "User", 0⟩ (by decide) 1 rfl _ rfl).1 ⟨1, "User", 0⟩ rfl
  revert hGet
  decide

end ActionHandler
end Yess

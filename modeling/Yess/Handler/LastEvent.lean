import Yess.Handler.StreamVersion

namespace Yess
namespace ActionHandler

open Foundation Db VersionedLog

/-!
# The last event of a stream

Three texts of SQL speak of the last event of a stream: the trigger, which counts the
rows and takes the largest version among them, `getLastEvent`, which takes the first
row of a join in descending order, and `getEvents`, which names no order.  In every
state that comes about they mean the same event, since the rows of a stream are
numbered in the order in which they were stored.
-/

/-- The acceptance rule, the last event and the listing agree on the stream: the last
event is the last one listed, an event is stored exactly when its version is the next
one, and an event that is not stored changes nothing.  The two queries may run by
different plans. -/
structure LastEventAgrees (plan plan' : Plan) (c : Connection) (i : Int32)
    (events : List Event) : Prop where
  listed : getEvents plan i c = .returned events c
  last : getLastEvent plan' i c = .returned events.getLast? c
  last_none_iff : getLastEvent plan' i c = .returned none c ↔ events = []
  accepted_iff : ∀ event : Event, event.streamId = i →
    ((∃ c', attachEvent event c = .returned () c') ↔
      event.version.toInt = 1 + lastVersion events.getLast?)
  refused : ∀ event : Event, event.streamId = i →
    (¬∃ c', attachEvent event c = .returned () c') → ∃ error, attachEvent event c = .threw error c

variable {c : Connection}

/-- An event is stored, or nothing is changed. -/
theorem attachEvent_cases (event : Event) (hReady : c.Ready) :
    insertError c (newEventRow c.database event) = none ∧
        (∃ c', attachEvent event c = .returned () c') ∨
      insertError c (newEventRow c.database event) ≠ none ∧
        ∃ error, attachEvent event c = .threw error c := by
  have hAttach := attachEvent_apply event hReady
  cases hError : insertError c (newEventRow c.database event) with
  | none =>
      rw [hError] at hAttach
      exact Or.inl ⟨rfl, _, hAttach⟩
  | some error =>
      rw [hError] at hAttach
      exact Or.inr ⟨by simp, _, hAttach⟩

theorem attachEvent_returned_iff (event : Event) (hReady : c.Ready) :
    (∃ c', attachEvent event c = .returned () c') ↔
      insertError c (newEventRow c.database event) = none := by
  rcases attachEvent_cases event hReady with ⟨hNone, hReturned⟩ | ⟨hSome, error, hThrew⟩
  · exact iff_of_true hReturned hNone
  · refine iff_of_false ?_ hSome
    rintro ⟨c', hReturned⟩
    rw [hThrew] at hReturned
    simp at hReturned

/-- The versions of one stream increase along the table. -/
theorem eventsOf_pairwise_version (hInv : StoreInvariant c) (streamId : Int) :
    (eventsOf streamId c.database.events).Pairwise fun a b => a.version < b.version := by
  rw [← List.pairwise_map, hInv.numbered.versions]
  exact pairwise_upTo _

/-- `getLastEvent` reads the last row that `getEvents` lists.  The stream id of the one
is its argument, that of the other the column. -/
theorem map_getLast?_toEvent (i : Int32) (events : List EventRow) :
    (eventsOf i.toInt events).getLast?.map (fun row => { row.toEvent with streamId := i }) =
      ((eventsOf i.toInt events).map EventRow.toEvent).getLast? := by
  rw [List.getLast?_map]
  apply Option.map_congr
  intro row hRow
  have hStream := (mem_eventsOf.mp (List.mem_of_getLast? hRow)).2
  have hSame : getInt row.streamId = i := by rw [hStream, getInt, Int32.ofInt_toInt]
  show ({ row.toEvent with streamId := i } : Event) = row.toEvent
  rw [EventRow.toEvent, hSame]

/-- In every state that requests and restarts lead to, for every existing stream:
`getLastEvent` returns the last event that `getEvents` returns, and none exactly when
that returns no event; an event is stored exactly when its version is one more than the
version of the last event; and an event that is not stored changes nothing. -/
theorem last_event_agrees (hReachable : Reachable c) (plan plan' : Plan) {i : Int32}
    (hExists : ∃ s ∈ c.database.streams, s.id = i.toInt) :
    ∃ events, LastEventAgrees plan plan' c i events := by
  have hInv := hReachable.invariant
  have hEvents := getEvents_eq plan i hInv.store
  have hLast := getLastEvent_eq plan' i hInv.store hExists
  have hVersion := lastVersion_newest hInv i
  rw [if_pos hExists] at hEvents
  rw [Sql.orderDescLimitOne_eq_getLast? (eventsOf_pairwise_version hInv.store i.toInt),
    map_getLast?_toEvent] at hLast hVersion
  refine ⟨_, hEvents, hLast, ?_, ?_, ?_⟩
  · rw [hLast, ← List.getLast?_eq_none_iff, Outcome.returned.injEq, and_iff_left rfl]
  · intro event hStream
    have hRow : (newEventRow c.database event).streamId = i.toInt := by rw [← hStream]; rfl
    rw [attachEvent_returned_iff event hInv.store.ready,
      insertError_eq_none_iff hInv.store.ready hInv.store.numbered, hRow, hVersion, add_comm]
    exact and_iff_left fun _ => hExists
  · intro event hStream hNot
    rcases attachEvent_cases event hInv.store.ready with ⟨-, hReturned⟩ | ⟨-, hThrew⟩
    · exact absurd hReturned hNot
    · exact hThrew

theorem last_event_agrees_one_event :
    ∃ events, LastEventAgrees ⟨.streamsOuter, .rowid⟩ ⟨.eventsOuter, .index⟩
      oneEventConnection 1 events :=
  last_event_agrees oneEventConnection_reachable _ _ ⟨⟨1, "User", 0⟩, by decide, rfl⟩

end ActionHandler
end Yess

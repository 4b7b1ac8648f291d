import Yess.Db.Refusals
import Yess.Handler.StreamLog
import Yess.Handler.StreamReads

namespace Yess
namespace ActionHandler

open Foundation Db VersionedLog

/-!
# How many events a stream holds

The version of an event is an `int`, and a stream takes the versions `1, 2, 3, ...`.
After the largest `int` there is no next one: the counter of a client wraps, and the
stream takes nothing any more.  Of any number of pushes in a row a stream therefore takes
exactly as many as there is room for (`batch_fills`).
-/

/-- The largest version. -/
def capacity : Nat := 2 ^ 31 - 1

/-- Events for one stream, with the versions that a client counts in an `int` from
`version` on. -/
def numberedEvents (streamId : Int32) (version : Int) : List (String × String) → List Event
  | [] => []
  | (type, payload) :: entries =>
      ⟨0, streamId, type, payload, Int32.ofInt version⟩ ::
        numberedEvents streamId (version + 1) entries

/-- The pushes of these events, one after the other. -/
def batch (streamId : Int32) (events : List Event) : List StoreRequest :=
  events.map (.pushEvent streamId)

/-- What a full stream answers. -/
def fullReply : Except Exn StoreReply :=
  .error (.runtimeError "DB ERROR: Event version mismatch.")

variable {plan : Plan} {c c' : Connection} {entry : StoreEntry} {streamId : Int32}

/-! ## One push -/

theorem toInt_le_capacity (version : Int32) : version.toInt ≤ capacity := by
  have hLt := version.toInt_lt
  unfold capacity
  omega

theorem toInt_ofInt_of_le {n : Nat} (hLe : n ≤ capacity) : (Int32.ofInt n).toInt = n := by
  have hRange : (n : Int) < 2 ^ 31 := by
    unfold capacity at hLe
    omega
  exact Int32.toInt_ofInt_of_le (by omega) hRange

/-- The versions of a stream are `int`s, so that it holds no more events than there are of
them. -/
theorem rows_le_capacity (hInv : HistoryInvariant c) (streamId : Int) :
    (eventsOf streamId c.database.events).length ≤ capacity := by
  by_cases hEmpty : (eventsOf streamId c.database.events).length = 0
  · omega
  · have hMem : ((eventsOf streamId c.database.events).length : Int) ∈
        (eventsOf streamId c.database.events).map EventRow.version := by
      rw [hInv.store.numbered.versions, mem_upTo]
      omega
    obtain ⟨row, hRow, hVersion⟩ := List.mem_map.mp hMem
    obtain ⟨-, version, -, hInt⟩ := hInv.eventInts row (mem_eventsOf.mp hRow).1
    have hLe := toInt_le_capacity version
    omega

/-- A push of the next version to a stream with room. -/
theorem push_of_room (hInv : StoreInvariant c)
    (hExists : ∃ s ∈ c.database.streams, s.id = streamId.toInt) {event : Event}
    (hStream : event.streamId = streamId)
    (hVersion : event.version.toInt = (eventsOf streamId.toInt c.database.events).length + 1)
    (hRequest : entry.request = .pushEvent streamId event) (hStep : StoreStep plan c entry c') :
    entry.reply = .ok .done ∧ c' = { c with database := { c.database with
      events := c.database.events ++ [newEventRow c.database event] } } := by
  obtain ⟨request, reply, created⟩ := entry
  obtain rfl : request = .pushEvent streamId event := hRequest
  have hAccepted : insertError c (newEventRow c.database event) = none := by
    rw [insertError_eq_none_iff hInv.ready hInv.numbered]
    subst hStream
    exact ⟨hVersion, fun _ => hExists⟩
  have hPush := pushEvent_apply streamId event hInv.ready
  rw [hAccepted] at hPush
  obtain ⟨hReply, hState, -⟩ := hStep.eq_of_returned (Prog.bind_of_returned hPush)
  exact ⟨hReply, hState⟩

/-- A full stream takes no version. -/
theorem push_of_full (hInv : StoreInvariant c) {event : Event}
    (hStream : event.streamId = streamId)
    (hFull : (eventsOf streamId.toInt c.database.events).length = capacity)
    (hRequest : entry.request = .pushEvent streamId event) (hStep : StoreStep plan c entry c') :
    entry.reply = fullReply ∧ c' = c := by
  obtain ⟨request, reply, created⟩ := entry
  obtain rfl : request = .pushEvent streamId event := hRequest
  have hRefused : insertError c (newEventRow c.database event) =
      some (.raised "Event version mismatch.") := by
    have hLe := toInt_le_capacity event.version
    rw [insertError_eq_refusal hInv.ready hInv.numbered, refusal]
    subst hStream
    show (if event.version.toInt = (eventsOf event.streamId.toInt c.database.events).length + 1
      then _ else if (eventsOf event.streamId.toInt c.database.events).length = 0
        then _ else _) = _
    rw [hFull, if_neg (by omega), if_neg (by decide)]
  have hPush := pushEvent_apply streamId event hInv.ready
  rw [hRefused] at hPush
  obtain ⟨hReply, hState, -⟩ := hStep.eq_of_threw (Prog.bind_of_threw hPush)
  exact ⟨hReply, hState⟩

theorem eventsOf_pushed (db : Database) (event : Event) :
    eventsOf event.streamId.toInt (db.events ++ [newEventRow db event]) =
      eventsOf event.streamId.toInt db.events ++ [newEventRow db event] := by
  have hStream : (newEventRow db event).streamId = event.streamId.toInt := rfl
  rw [eventsOf_append, if_pos hStream]

/-! ## Many pushes -/

theorem length_numberedEvents (version : Int) (entries : List (String × String)) :
    (numberedEvents streamId version entries).length = entries.length := by
  induction entries generalizing version with
  | nil => rfl
  | cons entry entries ih => rw [numberedEvents, List.length_cons, ih, List.length_cons]

/-- A full stream stays as it is. -/
theorem batch_of_full {events : List Event} {labels : List StoreEntry} (hInv : StoreInvariant c)
    (hStreams : ∀ event ∈ events, event.streamId = streamId)
    (hFull : (eventsOf streamId.toInt c.database.events).length = capacity)
    (hRequests : labels.map StoreEntry.request = batch streamId events)
    (hRun : Run (StoreStep plan) c labels c') :
    c' = c ∧ labels.map StoreEntry.reply = List.replicate events.length fullReply := by
  induction events generalizing labels with
  | nil =>
      obtain rfl := List.map_eq_nil_iff.mp hRequests
      exact ⟨hRun.eq_of_nil, rfl⟩
  | cons event events ih =>
      obtain ⟨label, labels, rfl, hRequest, hRequests⟩ := List.map_eq_cons_iff.mp hRequests
      obtain ⟨c₁, hStep, hRest⟩ := hRun.exists_of_cons
      obtain ⟨hReply, rfl⟩ := push_of_full hInv (hStreams event List.mem_cons_self) hFull hRequest
        hStep
      obtain ⟨rfl, hReplies⟩ := ih (fun event hMem => hStreams event (List.mem_cons_of_mem _ hMem))
        hRequests hRest
      refine ⟨rfl, ?_⟩
      rw [List.map_cons, hReply, hReplies, List.length_cons, List.replicate_succ]

theorem streamId_numberedEvents {version : Int} {entries : List (String × String)} :
    ∀ event ∈ numberedEvents streamId version entries, event.streamId = streamId := by
  induction entries generalizing version with
  | nil => simp [numberedEvents]
  | cons entry entries ih =>
      intro event hMem
      rcases List.mem_cons.mp hMem with rfl | hRest
      · rfl
      · exact ih event hRest

/-- A batch on a stream with `n` events: the stream takes what it has room for. -/
structure Filled (streamId : Int32) (n : Nat) (events : List Event) (labels : List StoreEntry)
    (c c' : Connection) : Prop where
  store : StoreInvariant c'
  streams : c'.database.streams = c.database.streams
  stored : ((eventsOf streamId.toInt c'.database.events).map fun row => pushedOf row.toEvent) =
    ((eventsOf streamId.toInt c.database.events).map fun row => pushedOf row.toEvent) ++
      (events.map pushedOf).take (capacity - n)
  replies : labels.map StoreEntry.reply =
    List.replicate (min events.length (capacity - n)) (.ok .done) ++
      List.replicate (events.length - (capacity - n)) fullReply

theorem filled_of_run {entries : List (String × String)} {labels : List StoreEntry} {n : Nat}
    (hInv : StoreInvariant c) (hExists : ∃ s ∈ c.database.streams, s.id = streamId.toInt)
    (hLength : (eventsOf streamId.toInt c.database.events).length = n) (hLe : n ≤ capacity)
    (hRequests : labels.map StoreEntry.request =
      batch streamId (numberedEvents streamId (n + 1) entries))
    (hRun : Run (StoreStep plan) c labels c') :
    Filled streamId n (numberedEvents streamId (n + 1) entries) labels c c' := by
  induction entries generalizing c labels n with
  | nil =>
      obtain rfl := List.map_eq_nil_iff.mp hRequests
      obtain rfl := hRun.eq_of_nil
      exact ⟨hInv, rfl, by simp [numberedEvents], by simp [numberedEvents]⟩
  | cons entry entries ih =>
      by_cases hRoom : n < capacity
      · obtain ⟨label, labels, rfl, hRequest, hRequests⟩ := List.map_eq_cons_iff.mp hRequests
        obtain ⟨c₁, hStep, hRest⟩ := hRun.exists_of_cons
        have hInv₁ := (storeStep_effect hInv.ready hStep).invariant hInv
        have hVersion : (Int32.ofInt ((n : Int) + 1)).toInt = n + 1 := by
          have hNext := @toInt_ofInt_of_le (n + 1) hRoom
          push_cast at hNext
          exact hNext
        obtain ⟨hReply, rfl⟩ := push_of_room hInv hExists rfl (by rw [hLength]; exact hVersion)
          hRequest hStep
        have hRows := eventsOf_pushed c.database
          ⟨0, streamId, entry.1, entry.2, Int32.ofInt (n + 1)⟩
        have hLength₁ := congrArg List.length hRows
        rw [List.length_append, hLength, List.length_singleton] at hLength₁
        have hFilled := ih hInv₁ hExists hLength₁ hRoom (by rw [Nat.cast_succ]; exact hRequests)
          hRest
        rw [Nat.cast_succ] at hFilled
        have hLeft : capacity - n = capacity - (n + 1) + 1 := by omega
        refine ⟨hFilled.store, hFilled.streams, ?_, ?_⟩
        · rw [hFilled.stored, hRows, numberedEvents, hLeft]
          simp [pushedOf_newEventRow]
        · rw [List.map_cons, hReply, hFilled.replies, numberedEvents, hLeft, List.length_cons,
            Nat.add_min_add_right, List.replicate_succ, Nat.add_sub_add_right]
          rfl
      -- A full stream takes nothing of the rest.
      · obtain rfl : n = capacity := by omega
        obtain ⟨rfl, hReplies⟩ := batch_of_full hInv streamId_numberedEvents hLength hRequests hRun
        refine ⟨hInv, rfl, by simp, ?_⟩
        rw [hReplies]
        simp

/-- For every reachable store, every existing stream and every list of entries, of any
length: of the pushes of the entries one after the other, with the versions after the last
one counted in an `int`, exactly the first ones up to the largest version are acknowledged
and stored, in their order, and all others are refused. -/
theorem batch_fills (hReachable : Reachable c)
    (hExists : ∃ s ∈ c.database.streams, s.id = streamId.toInt) {before : List Event}
    {entries : List (String × String)} {labels : List StoreEntry} (plan' : Plan)
    (hBefore : getEventsByStreamId plan' streamId c = .returned before c)
    (hRequests : labels.map StoreEntry.request =
      batch streamId (numberedEvents streamId (before.length + 1) entries))
    (hRun : Run (StoreStep plan) c labels c') :
    before.length ≤ capacity ∧
      (∃ after, getEventsByStreamId plan' streamId c' = .returned after c' ∧
        after.map pushedOf = before.map pushedOf ++
          ((numberedEvents streamId (before.length + 1) entries).map pushedOf).take
            (capacity - before.length)) ∧
      labels.map StoreEntry.reply =
        List.replicate (min entries.length (capacity - before.length)) (.ok .done) ++
          List.replicate (entries.length - (capacity - before.length)) fullReply := by
  have hInv := hReachable.invariant
  rw [getEventsByStreamId, getEvents_eq plan' streamId hInv.store, if_pos hExists,
    Outcome.returned.injEq] at hBefore
  obtain ⟨rfl, -⟩ := hBefore
  rw [List.length_map] at hRequests ⊢
  have hLe := rows_le_capacity hInv streamId.toInt
  have hFilled := filled_of_run hInv.store hExists rfl hLe hRequests hRun
  refine ⟨hLe, ?_, ?_⟩
  · refine ⟨_, getEvents_eq plan' streamId hFilled.store, ?_⟩
    rw [hFilled.streams, if_pos hExists, List.map_map, List.map_map]
    exact hFilled.stored
  · rw [hFilled.replies, length_numberedEvents]

def thirdPush : StoreEntry :=
  ⟨.pushEvent 1 ⟨0, 1, "UserMoved", "{}", 3⟩, .ok .done, none⟩

def threeEventsConnection : Connection := { twoEventsConnection with
  database := { twoEventsConnection.database with
    events := [⟨1, 1, "UserCreated", "{}", 1⟩, ⟨2, 1, "UserRenamed", "{}", 2⟩,
      ⟨3, 1, "UserMoved", "{}", 3⟩] } }

/-- Two entries after the first event. -/
theorem batch_fills_two :
    1 ≤ capacity ∧
      (∃ after, getEventsByStreamId ⟨.streamsOuter, .rowid⟩ 1 threeEventsConnection =
          .returned after threeEventsConnection ∧
        after.map pushedOf = [⟨1, "UserCreated", "{}", 1⟩] ++
          ([⟨1, "UserRenamed", "{}", 2⟩, ⟨1, "UserMoved", "{}", 3⟩] : List Pushed).take
            (capacity - 1)) ∧
      [Except.ok StoreReply.done, .ok .done] =
        List.replicate (min 2 (capacity - 1)) (.ok .done) ++
          List.replicate (2 - (capacity - 1)) fullReply := by
  have hRead : getEventsByStreamId ⟨.streamsOuter, .rowid⟩ 1 oneEventConnection =
      .returned [⟨1, 1, "UserCreated", "{}", 1⟩] oneEventConnection := rfl
  have hStream : ∃ s ∈ oneEventConnection.database.streams, s.id = (1 : Int32).toInt :=
    ⟨⟨1, "User", 0⟩, by decide, rfl⟩
  have hSecond : StoreStep ⟨.streamsOuter, .rowid⟩ oneEventConnection secondPush
      twoEventsConnection := ⟨rfl, rfl, rfl⟩
  have hThird : StoreStep ⟨.streamsOuter, .rowid⟩ twoEventsConnection thirdPush
      threeEventsConnection := ⟨rfl, rfl, rfl⟩
  have hRequests : [secondPush, thirdPush].map StoreEntry.request =
      batch 1 (numberedEvents 1 (1 + 1) [("UserRenamed", "{}"), ("UserMoved", "{}")]) := rfl
  exact batch_fills oneEventConnection_reachable hStream ⟨.streamsOuter, .rowid⟩ hRead hRequests
    ((Run.single hSecond).tail hThird)

end ActionHandler
end Yess

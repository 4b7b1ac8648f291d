import Yess.GrpcService
import Yess.Handler.History
import Yess.Handler.StreamLog

namespace Yess
namespace GrpcService

open Foundation Db VersionedLog ActionHandler

/-!
# Which stream a push touches

A `PushEventReq` names a stream twice, in the request and in the event that it
embeds.  The handler passes the first on and never reads it; the row is stored
under the second.  `pushEvent_touches_addressed_iff` says for which requests this
makes no difference.
-/

/-- The list of the addressed stream is its former list, followed by the event. -/
def AppendsToAddressed (request : PushEventReq) (db db' : Database) : Prop :=
  ∃ log, logOf db request.streamId.toInt = some log ∧
    logOf db' request.streamId.toInt = some (log ++
      [⟨request.streamId, request.toEvent.type, request.toEvent.payload,
        request.toEvent.version⟩])

/-- Beside the addressed stream no list of events is changed, and a push that is
reported as done has appended its event to the list of the addressed stream. -/
structure TouchesAddressed (request : PushEventReq) (reply : PushEventResp)
    (db db' : Database) : Prop where
  others : ∀ streamId : Int, streamId ≠ request.streamId.toInt →
    logOf db' streamId = logOf db streamId
  appended : reply.status.status = 0 → AppendsToAddressed request db db'

/-- An event that the store takes is meant for the stream that the request
addresses, and there is such a stream. -/
def AddressesItsEvent (c : Connection) (request : PushEventReq) : Prop :=
  EventFits c request.toEvent →
    request.toEvent.streamId = request.streamId ∧
      ∃ s ∈ c.database.streams, s.id = request.streamId.toInt

variable {c : Connection} {request : PushEventReq}

/-- An event that fits is stored. -/
theorem pushEvent_of_fits (hInv : StoreInvariant c) (hFits : EventFits c request.toEvent) :
    pushEvent request c = .returned ⟨⟨0, "OK"⟩⟩ { c with database := { c.database with
      events := c.database.events ++ [newEventRow c.database request.toEvent] } } := by
  rw [pushEvent_apply request hInv.ready, (insertError_newEventRow_iff hInv _).mpr hFits]

/-- One that does not is refused, and nothing is changed. -/
theorem pushEvent_of_not_fits (hInv : StoreInvariant c)
    (hFits : ¬EventFits c request.toEvent) :
    ∃ msg, pushEvent request c = .returned ⟨⟨1, msg⟩⟩ c := by
  have hApply := pushEvent_apply request hInv.ready
  cases hError : insertError c (newEventRow c.database request.toEvent) with
  | none => exact absurd ((insertError_newEventRow_iff hInv _).mp hError) hFits
  | some error =>
      rw [hError] at hApply
      exact ⟨_, hApply⟩

/-- A row under an id that no stream has is in no list. -/
theorem logOf_pushed_orphan {db : Database} {row : EventRow}
    (hMissing : ¬∃ s ∈ db.streams, s.id = row.streamId) :
    logOf { db with events := db.events ++ [row] } = logOf db := by
  funext streamId
  by_cases h : row.streamId = streamId
  · subst h
    rw [logOf, logOf, if_neg hMissing, if_neg hMissing]
  · simp [logOf, eventsOf_append, h]

/-- A stored row leaves the lists of all streams but its own. -/
theorem logOf_pushed_other {db : Database} {row : EventRow} {streamId : Int}
    (hOther : streamId ≠ row.streamId) :
    logOf { db with events := db.events ++ [row] } streamId = logOf db streamId := by
  by_cases hExists : ∃ s ∈ db.streams, s.id = row.streamId
  · rw [logOf_pushed hExists, Function.update_of_ne hOther]
  · rw [logOf_pushed_orphan hExists]

/-- An event meant for the addressed stream is appended to its list. -/
theorem appendsToAddressed (hStream : request.toEvent.streamId = request.streamId)
    (hExists : ∃ s ∈ c.database.streams, s.id = request.streamId.toInt) :
    AppendsToAddressed request c.database { c.database with
      events := c.database.events ++ [newEventRow c.database request.toEvent] } := by
  have hRow : (newEventRow c.database request.toEvent).streamId = request.streamId.toInt := by
    rw [← hStream]
    rfl
  have hPushed : pushedOf (newEventRow c.database request.toEvent).toEvent =
      ⟨request.streamId, request.toEvent.type, request.toEvent.payload,
        request.toEvent.version⟩ := by
    rw [pushedOf_newEventRow, pushedOf, hStream]
  refine ⟨_, if_pos hExists, ?_⟩
  rw [logOf_pushed (by rwa [hRow]), hRow, Function.update_self, hPushed]

/-- An event that is appended to the list of the addressed stream was meant for
it. -/
theorem AppendsToAddressed.addresses
    (hAppends : AppendsToAddressed request c.database { c.database with
      events := c.database.events ++ [newEventRow c.database request.toEvent] }) :
    request.toEvent.streamId = request.streamId ∧
      ∃ s ∈ c.database.streams, s.id = request.streamId.toInt := by
  obtain ⟨log, hLog, hLog'⟩ := hAppends
  constructor
  · by_contra hOther
    have hNe : request.streamId.toInt ≠
        (newEventRow c.database request.toEvent).streamId := fun h =>
      hOther (Int32.toInt_inj.mp h).symm
    -- The list is the one before the push and one entry longer than it.
    rw [logOf_pushed_other hNe, hLog, Option.some.injEq] at hLog'
    have hLength := congrArg List.length hLog'
    simp at hLength
  · by_contra hMissing
    rw [logOf, if_neg hMissing] at hLog
    simp at hLog

/-- For every store that can come about and every request: the push touches the
addressed stream only, and appends to it when it replies 0, exactly when an event
that the store takes is embedded under the id of the addressed stream and a stream
has this id. -/
theorem pushEvent_touches_addressed_iff (hReachable : Reachable c) (request : PushEventReq) :
    (∃ reply c', pushEvent request c = .returned reply c' ∧
      TouchesAddressed request reply c.database c'.database) ↔
      AddressesItsEvent c request := by
  have hInv := hReachable.invariant.store
  by_cases hFits : EventFits c request.toEvent
  · have hPush := pushEvent_of_fits hInv hFits
    constructor
    · rintro ⟨reply, c', hPush', hTouches⟩ -
      rw [hPush, Outcome.returned.injEq] at hPush'
      obtain ⟨rfl, rfl⟩ := hPush'
      exact (hTouches.appended rfl).addresses
    · intro hAddresses
      obtain ⟨hStream, hExists⟩ := hAddresses hFits
      refine ⟨_, _, hPush, ?_, fun _ => appendsToAddressed hStream hExists⟩
      intro streamId hOther
      apply logOf_pushed_other
      show streamId ≠ request.toEvent.streamId.toInt
      rwa [hStream]
  · obtain ⟨msg, hPush⟩ := pushEvent_of_not_fits hInv hFits
    refine iff_of_true ⟨_, _, hPush, fun _ _ => rfl, ?_⟩ fun h => absurd h hFits
    intro hOne
    simp at hOne

theorem pushEvent_touches_addressed_second :
    ∃ reply c', pushEvent ⟨1, some ⟨0, 1, "UserRenamed", "{}", 2⟩⟩ oneEventConnection =
        .returned reply c' ∧
      TouchesAddressed ⟨1, some ⟨0, 1, "UserRenamed", "{}", 2⟩⟩ reply
        oneEventConnection.database c'.database := by
  refine (pushEvent_touches_addressed_iff oneEventConnection_reachable _).mpr ?_
  intro _
  exact ⟨rfl, ⟨1, "User", 0⟩, by decide, rfl⟩

/-- A push addressed to stream 2, which does not exist, that embeds an event for
stream 1: the reply is 0, and the event is in the list of stream 1. -/
theorem pushEvent_touches_other :
    Reachable oneEventConnection ∧
      ∃ c', pushEvent ⟨2, some ⟨0, 1, "UserRenamed", "{}", 2⟩⟩ oneEventConnection =
          .returned ⟨⟨0, "OK"⟩⟩ c' ∧
        logOf c'.database 1 = some [⟨1, "UserCreated", "{}", 1⟩, ⟨1, "UserRenamed", "{}", 2⟩] ∧
        logOf oneEventConnection.database 1 = some [⟨1, "UserCreated", "{}", 1⟩] ∧
        ¬TouchesAddressed ⟨2, some ⟨0, 1, "UserRenamed", "{}", 2⟩⟩ ⟨⟨0, "OK"⟩⟩
          oneEventConnection.database c'.database := by
  refine ⟨oneEventConnection_reachable, _, rfl, by decide, by decide, ?_⟩
  intro hTouches
  have hSame := hTouches.others 1 (by decide)
  revert hSame
  decide

end GrpcService
end Yess

import Yess.Handler.Replies

namespace Yess
namespace ActionHandler

open Foundation Db Ext

/-!
# Pushing and reading through `handle`

A push request with a JSON value as its payload, as in the request files of the tests,
should be read back with this value.  It never is: `handle` takes the payload for a
string, so that it throws on every other value; and a string is stored as it is and
parsed by the read, which does not give the string back (`push_never_round_trips`).
-/

/-- The push request of the test files: the payload is a JSON value. -/
def pushRequest (streamId : Int32) (type : String) (payload : Json) (version : Int32) :
    List (String × Json) :=
  [("action", .string "PushEvent"), ("payload", payload), ("streamId", .integer streamId.toInt),
    ("type", .string type), ("version", .integer version.toInt)]

def readRequest (streamId : Int32) : List (String × Json) :=
  [("action", .string "GetEventsByStreamId"), ("id", .integer streamId.toInt)]

/-- The field `data` of the body of a response. -/
def responseData (J : JsonLib) (response : Response) : Option (List Json) :=
  match J.parse response.message with
  | some (.object members) =>
      match findMember "data" members with
      | some (.array data) => some data
      | _ => none
  | _ => none

/-- The members of an event in a reply, as they were sent. -/
structure EventSent (streamId : Int32) (type : String) (payload : Json) (version : Int32)
    (members : List (String × Json)) : Prop where
  streamId_eq : findMember "streamId" members = some (.integer streamId.toInt)
  type_eq : findMember "type" members = some (.string type)
  version_eq : findMember "version" members = some (.integer version.toInt)
  payload_eq : findMember "payload" members = some payload

/-- The push is answered by `OK`, and so is the read that follows, with the data from
before the push and one object for the event that was sent. -/
def RoundTrips (J : JsonLib) (plan plan' : Plan) (c : Connection) (streamId : Int32)
    (type : String) (payload : Json) (version : Int32) : Prop :=
  ∃ pushed c' former read c'' data members,
    handle J plan (.object (pushRequest streamId type payload version)) c =
        .returned pushed c' ∧
      pushed.status = some .ok ∧
      handle J plan (.object (readRequest streamId)) c = .returned former c ∧
      responseData J former = some data ∧
      handle J plan' (.object (readRequest streamId)) c' = .returned read c'' ∧
      read.status = some .ok ∧
      responseData J read = some (data ++ [.object members]) ∧
      EventSent streamId type payload version members

variable {J : JsonLib} {plan plan' : Plan} {c c' : Connection} {streamId version : Int32}
  {type : String}

theorem readRequest_requests (streamId : Int32) :
    Requests (readRequest streamId) .getEventsByStreamId :=
  ⟨rfl, streamId.toInt, rfl⟩

/-! ## The read -/

theorem responseData_dataReply (hConforms : J.Conforms) {data : List Json}
    (hData : Json.allWellFormed data = true) :
    responseData J ⟨some .ok, J.dump (dataReply data).2⟩ = some data := by
  have hParse := hConforms.parse_dump (dataReply data).2 (by rw [dataReply_wellFormed, hData])
  simp only [responseData, hParse]
  rfl

/-- A read with the status `OK` has read every event of the stream. -/
theorem responseData_of_read (hConforms : J.Conforms) (hInv : StoreInvariant c)
    {response : Response}
    (hRead : handle J plan (.object (readRequest streamId)) c = .returned response c')
    (hStatus : response.status = some .ok) :
    (∀ event ∈ streamEvents c.database streamId, PayloadReadable J event = true) ∧
      responseData J response = some (eventValues J (streamEvents c.database streamId)) := by
  have hAction : (runAction J plan (.object (readRequest streamId)) .getEventsByStreamId :
      FrontProg Connection Reply) = eventsReply J (getEvents plan streamId) := by
    have hId : findMember "id" (readRequest streamId) = some (.integer streamId.toInt) := rfl
    rw [runAction, jsonAt_of_member hId, pure_bind, jsonInt, pure_bind, Int32.ofInt_toInt]
  have hRows : getEvents plan streamId c = .returned (streamEvents c.database streamId) c :=
    getEvents_eq plan streamId hInv
  generalize streamEvents c.database streamId = events at hRows
  have hReply := eventsReply_apply (J := J) hRows
  rw [← hAction] at hReply
  cases hFirst : firstUnreadable J events with
  | none =>
      have hReadable := firstUnreadable_eq_none_iff.mp hFirst
      simp only [hFirst] at hReply
      rw [handle_of_reply (readRequest_requests streamId) hReply] at hRead
      by_cases hUtf8 : (dataReply (eventValues J events)).2.isUtf8 = true
      · rw [if_pos hUtf8, Outcome.returned.injEq] at hRead
        rw [dataReply_isUtf8, eventValues_allUtf8_iff hConforms hReadable] at hUtf8
        refine ⟨hReadable, ?_⟩
        rw [← hRead.1]
        exact responseData_dataReply hConforms (eventValues_wellFormed hConforms hReadable hUtf8)
      · rw [if_neg hUtf8] at hRead
        simp at hRead
  | some event =>
      simp only [hFirst] at hReply
      rw [handle_of_reply (readRequest_requests streamId) hReply] at hRead
      split_ifs at hRead
      rw [Outcome.returned.injEq] at hRead
      rw [← hRead.1] at hStatus
      simp [errorReply] at hStatus

/-! ## The push -/

/-- A payload that is no string is refused by an exception. -/
theorem push_of_not_string {payload : Json} (hPayload : ∀ text, payload ≠ .string text) :
    handle J plan (.object (pushRequest streamId type payload version)) c =
      .threw (.json (J.typeError "string" payload)) c := by
  have hPush : isPushEvent (.object (pushRequest streamId type payload version)) :=
    ⟨_, rfl, rfl⟩
  have hThrows : (jsonString J payload : FrontProg Connection String) =
      throwJson (J.typeError "string" payload) := by
    cases payload with
    | string text => exact absurd rfl (hPayload text)
    | _ => rfl
  have hEvent : (pushedEvent J (.object (pushRequest streamId type payload version)) :
      FrontProg Connection Event) = (do
        let payload ← jsonString J payload
        pure ⟨0, Int32.ofInt streamId.toInt, type, payload, Int32.ofInt version.toInt⟩) := rfl
  rw [handle_pushEvent J hPush, hEvent, hThrows]
  rfl

/-- A string is stored as it is, or nothing is. -/
theorem push_of_string (hReady : c.Ready) {text : String} {response : Response}
    (hPushed : handle J plan (.object (pushRequest streamId type (.string text) version)) c =
      .returned response c') :
    insertError c (newEventRow c.database ⟨0, streamId, type, text, version⟩) = none ∧
      c' = { c with database := { c.database with
        events := c.database.events ++
          [newEventRow c.database ⟨0, streamId, type, text, version⟩] } } := by
  have hPush : isPushEvent (.object (pushRequest streamId type (.string text) version)) :=
    ⟨_, rfl, rfl⟩
  have hEvent : (pushedEvent J (.object (pushRequest streamId type (.string text) version)) :
      FrontProg Connection Event) =
        pure ⟨0, Int32.ofInt streamId.toInt, type, text, Int32.ofInt version.toInt⟩ := rfl
  rw [Int32.ofInt_toInt, Int32.ofInt_toInt] at hEvent
  rw [handle_pushEvent J hPush, hEvent, pure_bind] at hPushed
  have hApply := pushEvent_apply streamId ⟨0, streamId, type, text, version⟩ hReady
  cases hError : insertError c (newEventRow c.database ⟨0, streamId, type, text, version⟩) with
  | none =>
      simp only [hError] at hApply
      rw [Prog.bind_of_returned (call_of_returned hApply), Prog.pure_apply,
        Outcome.returned.injEq] at hPushed
      exact ⟨rfl, hPushed.2.symm⟩
  | some error =>
      simp only [hError] at hApply
      rw [Prog.bind_of_threw (call_of_threw hApply)] at hPushed
      simp at hPushed

/-- The events of the stream after the push. -/
theorem streamEvents_append {db : Database} (hExists : ∃ s ∈ db.streams, s.id = streamId.toInt)
    (event : Event) (hStream : event.streamId = streamId) :
    streamEvents { db with events := db.events ++ [newEventRow db event] } streamId =
      streamEvents db streamId ++ [(newEventRow db event).toEvent] := by
  have hRow : (newEventRow db event).streamId = streamId.toInt := by rw [← hStream]; rfl
  unfold streamEvents
  rw [if_pos hExists, if_pos hExists, eventsOf_append, if_pos hRow, List.map_append]
  rfl

/-- On every store that comes about, for every existing stream, every type, every version
and every JSON value as payload: the push and the read that follows do not give the value
back. -/
theorem push_never_round_trips (hReachable : Reachable c) (hConforms : J.Conforms)
    (hQuotes : J.QuotesStrings) (plan plan' : Plan)
    (hExists : ∃ s ∈ c.database.streams, s.id = streamId.toInt) (type : String)
    (payload : Json) (version : Int32) :
    ¬RoundTrips J plan plan' c streamId type payload version := by
  rintro ⟨pushed, c', former, read, c'', data, members, hPushed, -, -, -, hRead, hStatus, hData,
    hSent⟩
  by_cases hString : ∃ text, payload = .string text
  · obtain ⟨text, rfl⟩ := hString
    have hInv := hReachable.invariant.store
    obtain ⟨hAccepted, rfl⟩ := push_of_string hInv.ready hPushed
    have hInv' := (StoreEffect.pushed streamId _ hAccepted).invariant hInv
    obtain ⟨hReadable, hValues⟩ := responseData_of_read hConforms hInv' hRead hStatus
    rw [streamEvents_append hExists _ rfl] at hReadable hValues
    have hNew := hReadable _ (List.mem_append_right _ (List.mem_singleton.mpr rfl))
    have hParse := parse_eq_payloadValue hNew
    -- The last object has the value of the text as its payload, not the text.
    rw [hValues, Option.some.injEq, eventValues, List.map_append] at hData
    have hLast := congrArg List.getLast? hData
    simp only [List.map_cons, List.map_nil, List.getLast?_concat, Option.some.injEq, eventObject,
      Json.object.injEq] at hLast
    have hPayload := hSent.payload_eq
    rw [← hLast] at hPayload
    have hValue : payloadValue J (newEventRow c.database ⟨0, streamId, type, text, version⟩).toEvent =
        .string text := Option.some.inj hPayload
    rw [hValue] at hParse
    exact Nat.lt_irrefl _ (hQuotes text text hParse)
  · have hOther : ∀ text, payload ≠ .string text := fun text hSame => hString ⟨text, hSame⟩
    rw [push_of_not_string hOther] at hPushed
    simp at hPushed

/-- The text of an object is read back as the object. -/
theorem push_never_round_trips_object_text :
    ¬RoundTrips Compact.jsonLib sampleReadPlan sampleReadPlan oneEventConnection 1 "UserRenamed"
      (.string "{}") 2 :=
  push_never_round_trips oneEventConnection_reachable Compact.jsonText_conforms
    Compact.jsonText_quotesStrings _ _ ⟨⟨1, "User", 0⟩, by decide, rfl⟩ _ _ _

/-- The payload of the test file. -/
def filePayload : Json := .object [("dob", .integer 3001), ("username", .string "MZ/X")]

/-- A push as in the test file, with the next version of an existing stream in a store with
readable payloads: `handle` throws. -/
theorem push_requests_not_read_back :
    Reachable oneEventConnection ∧
      (∀ row ∈ oneEventConnection.database.events,
        (Compact.jsonLib.parse row.payload).isSome) ∧
      (∃ s ∈ oneEventConnection.database.streams, s.id = (1 : Int32).toInt) ∧
      (eventsOf 1 oneEventConnection.database.events).getLast?.map EventRow.version = some 1 ∧
      handle Compact.jsonLib sampleReadPlan
        (.object (pushRequest 1 "UserRenamed" filePayload 2)) oneEventConnection =
          .threw (.json "type must be string") oneEventConnection ∧
      ¬RoundTrips Compact.jsonLib sampleReadPlan sampleReadPlan oneEventConnection 1
        "UserRenamed" filePayload 2 := by
  have hThrew : handle Compact.jsonLib sampleReadPlan
      (.object (pushRequest 1 "UserRenamed" filePayload 2)) oneEventConnection =
        .threw (.json "type must be string") oneEventConnection := by decide +kernel
  refine ⟨oneEventConnection_reachable, by decide +kernel, ⟨⟨1, "User", 0⟩, by decide, rfl⟩,
    by decide +kernel, hThrew, ?_⟩
  rintro ⟨pushed, c', former, read, c'', data, members, hPushed, -⟩
  rw [hThrew] at hPushed
  simp at hPushed

end ActionHandler
end Yess

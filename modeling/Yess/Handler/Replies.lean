import Yess.Handler.EntityValues
import Yess.Handler.History

namespace Yess
namespace ActionHandler

open Foundation Db Ext

/-!
# What `handle` answers

A request that names an action and has the fields that this action reads should be
answered by a response whose status and whose body say the same.  `handle_consistent_iff`
says when that is so.  A push that the store does not take ends in an exception, as do
reads of text that is no UTF-8, which cannot be printed; and `CreateProjection` is an
action for `action_from_str` but not for the `switch`, so that its status is never
assigned.
-/

/-! ## Requests -/

def HasString (members : List (String × Json)) (key : String) : Prop :=
  ∃ text, findMember key members = some (.string text)

def HasInteger (members : List (String × Json)) (key : String) : Prop :=
  ∃ n, findMember key members = some (.integer n)

/-- The fields that the action reads are there and have their types. -/
def FieldsTyped (members : List (String × Json)) : Action → Prop
  | .createStream => HasString members "type"
  | .pushEvent => HasString members "type" ∧ HasInteger members "streamId" ∧
      HasString members "payload" ∧ HasInteger members "version"
  | .getEventsByStreamId => HasInteger members "id"
  | .getEventsByStreamType => HasString members "type"
  | _ => True

/-- The object is a request for the action. -/
structure Requests (members : List (String × Json)) (action : Action) : Prop where
  action_eq : findMember "action" members = some (.string (actionToStr action))
  fields : FieldsTyped members action

/-! ## Answers -/

/-- The field `status` of a body. -/
def statusField : Json → Option Json
  | .object members => findMember "status" members
  | _ => none

/-- A response comes back; its status is assigned and is `OK` exactly when the body says
so; and with the status `Error` the store is as it was. -/
def AnswersConsistently (J : JsonLib) (c : Connection)
    (outcome : Outcome FrontExn Connection Response) : Prop :=
  ∃ response c' status body, outcome = .returned response c' ∧
    response.status = some status ∧ J.parse response.message = some body ∧
    (status = .ok ↔ statusField body = some (.string "OK")) ∧
    (status = .error → c' = c)

/-- The events can be listed in a reply: their types are UTF-8, or one of them cannot be
read and the report of the first such one is. -/
def EventsAnswerable (J : JsonLib) (events : List Event) : Prop :=
  match firstUnreadable J events with
  | none => ∀ event ∈ events, isUtf8 event.type = true
  | some event => isUtf8 (J.parseError event.payload) = true

/-- The events of the stream, if the stream exists. -/
def streamEvents (db : Database) (streamId : Int32) : List Event :=
  (if ∃ s ∈ db.streams, s.id = streamId.toInt then eventsOf streamId.toInt db.events
    else []).map EventRow.toEvent

/-- The events of all streams of the type, as the plan reads them. -/
def typeEvents (plan : Plan) (db : Database) (type : String) : List Event :=
  (((joinEventsStreams plan db).filter fun row => row.2.type = type).map Prod.fst).map
    EventRow.toEvent

/-- When the action is answered. -/
def Answerable (J : JsonLib) (plan : Plan) (c : Connection) (members : List (String × Json)) :
    Action → Prop
  | .getAllStreams => ∀ row ∈ c.database.streams, isUtf8 row.type = true
  | .pushEvent => ∀ type streamId payload version,
      findMember "type" members = some (.string type) →
      findMember "streamId" members = some (.integer streamId) →
      findMember "payload" members = some (.string payload) →
      findMember "version" members = some (.integer version) →
      EventFits c ⟨0, Int32.ofInt streamId, type, payload, Int32.ofInt version⟩
  | .getEventsByStreamId => ∀ id, findMember "id" members = some (.integer id) →
      EventsAnswerable J (streamEvents c.database (Int32.ofInt id))
  | .getEventsByStreamType => ∀ type, findMember "type" members = some (.string type) →
      EventsAnswerable J (typeEvents plan c.database type)
  | .createProjection => False
  | _ => True

/-! ## Bodies -/

theorem utf8Bytes_ascii_append {bytes : List Nat} (hAscii : ∀ byte ∈ bytes, byte ≤ 0x7f)
    (rest : List Nat) : utf8Bytes (bytes ++ rest) = utf8Bytes rest := by
  induction bytes with
  | nil => rfl
  | cons byte bytes ih =>
      rw [List.forall_mem_cons] at hAscii
      rw [List.cons_append, utf8Bytes.eq_def]
      simp only [if_pos hAscii.1]
      exact ih hAscii.2

theorem isUtf8_dbError (message : String) :
    isUtf8 ("DB ERROR: " ++ message) = isUtf8 message := by
  rw [isUtf8, isUtf8, String.toList_append, List.map_append]
  exact utf8Bytes_ascii_append (by decide) _

theorem statuses_isUtf8 : isUtf8 "OK" = true ∧ isUtf8 "Error" = true := by
  decide +kernel

theorem okReply_wellFormed : okReply.2.wellFormed = true := by
  decide +kernel

theorem dataReply_isUtf8 (data : List Json) :
    (dataReply data).2.isUtf8 = Json.allUtf8 data := by
  simp [dataReply, Json.isUtf8, Json.membersUtf8, keys_isUtf8, statuses_isUtf8]

theorem dataReply_wellFormed (data : List Json) :
    (dataReply data).2.wellFormed = Json.allWellFormed data := by
  have hSorted : keysSorted [("data", .array data), ("status", .string "OK")] = true := by
    simp only [keysSorted, List.map_cons, List.map_nil]
    decide +kernel
  simp [dataReply, Json.wellFormed, Json.membersWellFormed, hSorted, keys_isUtf8,
    statuses_isUtf8]

theorem errorReply_isUtf8 (message : String) :
    (errorReply message).2.isUtf8 = isUtf8 message := by
  simp [errorReply, Json.isUtf8, Json.membersUtf8, keys_isUtf8, statuses_isUtf8]

theorem errorReply_wellFormed (message : String) :
    (errorReply message).2.wellFormed = isUtf8 message := by
  have hSorted : keysSorted [("message", .string message), ("status", .string "Error")] =
      true := by
    simp only [keysSorted, List.map_cons, List.map_nil]
    decide +kernel
  simp [errorReply, Json.wellFormed, Json.membersWellFormed, hSorted, keys_isUtf8,
    statuses_isUtf8]

/-- The status of a reply and its body say the same, and the body can be printed once
its strings can. -/
structure ReplyConsistent (reply : Reply) (status : ResponseStatus) : Prop where
  assigned : reply.1 = some status
  agrees : status = .ok ↔ statusField reply.2 = some (.string "OK")
  printable : reply.2.isUtf8 = true → reply.2.wellFormed = true

theorem okReply_consistent : ReplyConsistent okReply .ok where
  assigned := rfl
  agrees := iff_of_true rfl rfl
  printable := fun _ => okReply_wellFormed

theorem dataReply_consistent {data : List Json}
    (hData : Json.allUtf8 data = true → Json.allWellFormed data = true) :
    ReplyConsistent (dataReply data) .ok where
  assigned := rfl
  agrees := by simp [dataReply, statusField, findMember]
  printable := by
    rw [dataReply_isUtf8, dataReply_wellFormed]
    exact hData

theorem errorReply_consistent (message : String) :
    ReplyConsistent (errorReply message) .error where
  assigned := rfl
  agrees := by simp [errorReply, statusField, findMember]
  printable := by
    rw [errorReply_isUtf8, errorReply_wellFormed]
    exact id

/-! ## From the reply to the answer -/

variable {J : JsonLib} {plan : Plan} {c c' : Connection} {members : List (String × Json)}
  {action : Action}

theorem actionFromStr_actionToStr (action : Action) :
    actionFromStr (actionToStr action) = .ok action := by
  cases action <;> decide +kernel

/-- Past its first lines `handle` runs the action and prints the body. -/
theorem handle_of_requests (hRequests : Requests members action) :
    handle J plan (.object members) = (do
      let reply ← runAction J plan (.object members) action
      let msg ← dumpJson J reply.2
      pure ⟨reply.1, msg⟩) := by
  have hAt : (jsonAt J (.object members) "action" : FrontProg Connection Json) =
      pure (.string (actionToStr action)) := by
    rw [jsonAt, hRequests.action_eq]
  rw [handle, hAt]
  simp only [pure_bind, jsonString, actionFromStr_actionToStr]
  rfl

/-- An action that returns a reply is answered by it, if the body can be printed. -/
theorem handle_of_reply (hRequests : Requests members action) {reply : Reply}
    (hReply : runAction J plan (.object members) action c = .returned reply c') :
    handle J plan (.object members) c =
      if reply.2.isUtf8 then .returned ⟨reply.1, J.dump reply.2⟩ c'
      else .threw (.json (J.dumpError reply.2)) c' := by
  rw [handle_of_requests hRequests, Prog.bind_of_returned hReply, dumpJson]
  by_cases hUtf8 : reply.2.isUtf8 = true
  · rw [if_pos hUtf8, if_pos hUtf8]
    rfl
  · rw [if_neg hUtf8, if_neg hUtf8]
    rfl

theorem consistent_iff_of_reply (hConforms : J.Conforms) (hRequests : Requests members action)
    {reply : Reply} {status : ResponseStatus}
    (hReply : runAction J plan (.object members) action c = .returned reply c')
    (hConsistent : ReplyConsistent reply status) (hSame : status = .error → c' = c) :
    AnswersConsistently J c (handle J plan (.object members) c) ↔ reply.2.isUtf8 = true := by
  rw [handle_of_reply hRequests hReply]
  by_cases hUtf8 : reply.2.isUtf8 = true
  · rw [if_pos hUtf8]
    exact iff_of_true ⟨_, c', status, reply.2, rfl, hConsistent.assigned,
      hConforms.parse_dump _ (hConsistent.printable hUtf8), hConsistent.agrees, hSame⟩ hUtf8
  · refine iff_of_false ?_ hUtf8
    rintro ⟨response, c'', -, -, hReturned, -⟩
    rw [if_neg hUtf8] at hReturned
    simp at hReturned

theorem not_consistent_of_threw (hRequests : Requests members action) {error : FrontExn}
    (hThrew : runAction J plan (.object members) action c = .threw error c') :
    ¬AnswersConsistently J c (handle J plan (.object members) c) := by
  rintro ⟨response, c'', -, -, hReturned, -⟩
  rw [handle_of_requests hRequests, Prog.bind_of_threw hThrew] at hReturned
  simp at hReturned

/-! ## The fields -/

theorem jsonAt_of_member {σ : Type} {key : String} {value : Json}
    (hMember : findMember key members = some value) :
    (jsonAt J (.object members) key : FrontProg σ Json) = pure value := by
  rw [jsonAt, hMember]

theorem pushedEvent_eq {σ : Type} {type payload : String} {streamId version : Int}
    (hType : findMember "type" members = some (.string type))
    (hStreamId : findMember "streamId" members = some (.integer streamId))
    (hPayload : findMember "payload" members = some (.string payload))
    (hVersion : findMember "version" members = some (.integer version)) :
    (pushedEvent J (.object members) : FrontProg σ Event) =
      pure ⟨0, Int32.ofInt streamId, type, payload, Int32.ofInt version⟩ := by
  simp only [pushedEvent, jsonAt_of_member hType, jsonAt_of_member hStreamId,
    jsonAt_of_member hPayload, jsonAt_of_member hVersion, pure_bind, jsonString, jsonInt]

/-! ## Reads of events -/

theorem eventsReply_apply {read : DbProg (List Event)} {events : List Event}
    (hRead : read c = .returned events c) :
    eventsReply J read c = .returned
      (match firstUnreadable J events with
        | none => dataReply (eventValues J events)
        | some event => errorReply ("DB ERROR: " ++ J.parseError event.payload)) c := by
  have hBlock : (do
      let events ← call read
      let arr ← events.mapM (Event.json J)
      pure (dataReply arr) : FrontProg Connection Reply) c = (do
        let arr ← events.mapM (Event.json J)
        pure (dataReply arr) : FrontProg Connection Reply) c :=
    Prog.bind_of_returned (call_of_returned hRead)
  rw [mapM_json] at hBlock
  cases hFirst : firstUnreadable J events with
  | none =>
      rw [hFirst] at hBlock
      exact Prog.tryCatch_of_returned hBlock
  | some event =>
      rw [hFirst] at hBlock
      exact Prog.tryCatch_of_threw hBlock

theorem consistent_iff_of_events (hConforms : J.Conforms) (hRequests : Requests members action)
    {read : DbProg (List Event)} {events : List Event} (hRead : read c = .returned events c)
    (hAction : (runAction J plan (.object members) action : FrontProg Connection Reply) =
      eventsReply J read) :
    AnswersConsistently J c (handle J plan (.object members) c) ↔ EventsAnswerable J events := by
  have hReply := eventsReply_apply (J := J) hRead
  rw [← hAction] at hReply
  unfold EventsAnswerable
  cases hFirst : firstUnreadable J events with
  | none =>
      have hReadable := firstUnreadable_eq_none_iff.mp hFirst
      have hTypes := eventValues_allUtf8_iff hConforms hReadable
      simp only [hFirst] at hReply
      have hData := dataReply_consistent fun hUtf8 =>
        eventValues_wellFormed hConforms hReadable (hTypes.mp hUtf8)
      refine (consistent_iff_of_reply hConforms hRequests hReply hData (by simp)).trans ?_
      rw [dataReply_isUtf8]
      exact hTypes
  | some event =>
      simp only [hFirst] at hReply
      refine (consistent_iff_of_reply hConforms hRequests hReply (errorReply_consistent _)
        fun _ => rfl).trans ?_
      rw [errorReply_isUtf8, isUtf8_dbError]

/-! ## The actions -/

/-- An action that is not implemented, and says so. -/
theorem consistent_of_error (hConforms : J.Conforms) (hRequests : Requests members action)
    {message : String} (hMessage : isUtf8 message = true)
    (hAction : (runAction J plan (.object members) action : FrontProg Connection Reply) =
      pure (errorReply message)) :
    AnswersConsistently J c (handle J plan (.object members) c) := by
  have hReply : runAction J plan (.object members) action c =
      .returned (errorReply message) c := by
    rw [hAction]
    rfl
  apply (consistent_iff_of_reply hConforms hRequests hReply (errorReply_consistent _)
    fun _ => rfl).mpr
  rw [errorReply_isUtf8, hMessage]

theorem createStream_consistent (hConforms : J.Conforms)
    (hRequests : Requests members .createStream) (hReady : c.Ready) :
    AnswersConsistently J c (handle J plan (.object members) c) := by
  obtain ⟨type, hType⟩ := hRequests.fields
  have hReply : runAction J plan (.object members) .createStream c = (do
      call (saveStream ⟨0, type, 0⟩)
      pure okReply : FrontProg Connection Reply) c := by
    rw [runAction, jsonAt_of_member hType]
    rfl
  have hCreate : saveStream ⟨0, type, 0⟩ c = .returned () _ := create_apply ⟨0, type, 0⟩ hReady
  rw [Prog.bind_of_returned (call_of_returned hCreate), Prog.pure_apply] at hReply
  exact (consistent_iff_of_reply hConforms hRequests hReply okReply_consistent (by simp)).mpr
    okReply_isUtf8

theorem getAllStreams_consistent_iff (hConforms : J.Conforms)
    (hRequests : Requests members .getAllStreams) (hReady : c.Ready) :
    AnswersConsistently J c (handle J plan (.object members) c) ↔
      ∀ row ∈ c.database.streams, isUtf8 row.type = true := by
  have hReply : runAction J plan (.object members) .getAllStreams c = .returned
      (dataReply ((c.database.streams.map StreamRow.toStream).map Stream.json)) c := by
    rw [runAction, Prog.bind_of_returned (call_of_returned (all_apply hReady))]
    rfl
  have hUtf8 : Json.allUtf8 ((c.database.streams.map StreamRow.toStream).map Stream.json) =
      true ↔ ∀ row ∈ c.database.streams, isUtf8 row.type = true := by
    rw [Json.allUtf8_iff]
    simp only [List.forall_mem_map, stream_json_isUtf8]
    rfl
  have hWellFormed : Json.allWellFormed
      ((c.database.streams.map StreamRow.toStream).map Stream.json) = true ↔
        ∀ row ∈ c.database.streams, isUtf8 row.type = true := by
    rw [Json.allWellFormed_iff]
    simp only [List.forall_mem_map, stream_json_wellFormed]
    rfl
  have hData := dataReply_consistent (hUtf8.trans hWellFormed.symm).mp
  refine (consistent_iff_of_reply hConforms hRequests hReply hData (by simp)).trans ?_
  rw [dataReply_isUtf8, hUtf8]

/-- With the fields at hand, a push is answered when the store takes the event. -/
theorem answerable_push_iff {type payload : String} {streamId version : Int}
    (hType : findMember "type" members = some (.string type))
    (hStreamId : findMember "streamId" members = some (.integer streamId))
    (hPayload : findMember "payload" members = some (.string payload))
    (hVersion : findMember "version" members = some (.integer version)) :
    Answerable J plan c members .pushEvent ↔
      EventFits c ⟨0, Int32.ofInt streamId, type, payload, Int32.ofInt version⟩ := by
  constructor
  · intro hAll
    exact hAll type streamId payload version hType hStreamId hPayload hVersion
  · intro hFits type' streamId' payload' version' hType' hStreamId' hPayload' hVersion'
    obtain rfl : type = type' := by simpa [hType] using hType'
    obtain rfl : streamId = streamId' := by simpa [hStreamId] using hStreamId'
    obtain rfl : payload = payload' := by simpa [hPayload] using hPayload'
    obtain rfl : version = version' := by simpa [hVersion] using hVersion'
    exact hFits

theorem pushEvent_consistent_iff (hConforms : J.Conforms)
    (hRequests : Requests members .pushEvent) (hInv : StoreInvariant c) :
    AnswersConsistently J c (handle J plan (.object members) c) ↔
      Answerable J plan c members .pushEvent := by
  obtain ⟨⟨type, hType⟩, ⟨streamId, hStreamId⟩, ⟨payload, hPayload⟩, version, hVersion⟩ :=
    hRequests.fields
  have hEvent := @pushedEvent_eq J members Connection type payload streamId version hType hStreamId
    hPayload hVersion
  rw [answerable_push_iff hType hStreamId hPayload hVersion, ← insertError_newEventRow_iff hInv]
  generalize (⟨0, Int32.ofInt streamId, type, payload, Int32.ofInt version⟩ : Event) = event
    at hEvent ⊢
  have hAction : runAction J plan (.object members) .pushEvent c = (do
      call (pushEvent event.streamId event)
      pure okReply : FrontProg Connection Reply) c := by
    rw [runAction, hEvent]
    rfl
  have hPush := pushEvent_apply event.streamId event hInv.ready
  cases hError : insertError c (newEventRow c.database event) with
  | none =>
      simp only [hError] at hPush
      rw [Prog.bind_of_returned (call_of_returned hPush)] at hAction
      have hAnswer := consistent_iff_of_reply hConforms hRequests hAction okReply_consistent
        (by simp)
      exact iff_of_true (hAnswer.mpr okReply_isUtf8) rfl
  | some error =>
      simp only [hError] at hPush
      rw [Prog.bind_of_threw (call_of_threw hPush)] at hAction
      exact iff_of_false (not_consistent_of_threw hRequests hAction) (by simp)

theorem getEventsByStreamId_consistent_iff (hConforms : J.Conforms)
    (hRequests : Requests members .getEventsByStreamId) (hInv : StoreInvariant c) :
    AnswersConsistently J c (handle J plan (.object members) c) ↔
      Answerable J plan c members .getEventsByStreamId := by
  obtain ⟨id, hId⟩ := hRequests.fields
  have hAction : (runAction J plan (.object members) .getEventsByStreamId :
      FrontProg Connection Reply) = eventsReply J (getEvents plan (Int32.ofInt id)) := by
    rw [runAction, jsonAt_of_member hId]
    rfl
  refine (consistent_iff_of_events hConforms hRequests
    (getEvents_eq plan (Int32.ofInt id) hInv) hAction).trans ?_
  constructor
  · intro hEvents id' hId'
    obtain rfl : id = id' := by simpa [hId] using hId'
    exact hEvents
  · intro hAll
    exact hAll id hId

theorem getEventsByStreamType_consistent_iff (hConforms : J.Conforms)
    (hRequests : Requests members .getEventsByStreamType) (hReady : c.Ready) :
    AnswersConsistently J c (handle J plan (.object members) c) ↔
      Answerable J plan c members .getEventsByStreamType := by
  obtain ⟨type, hType⟩ := hRequests.fields
  have hAction : (runAction J plan (.object members) .getEventsByStreamType :
      FrontProg Connection Reply) = eventsReply J (getEventsByType plan type) := by
    rw [runAction, jsonAt_of_member hType]
    rfl
  refine (consistent_iff_of_events hConforms hRequests
    (getEventsByType_apply plan type hReady) hAction).trans ?_
  constructor
  · intro hEvents type' hType'
    obtain rfl : type = type' := by simpa [hType] using hType'
    exact hEvents
  · intro hAll
    exact hAll type hType

/-- The status is not assigned. -/
theorem createProjection_not_consistent (hRequests : Requests members .createProjection) :
    ¬AnswersConsistently J c (handle J plan (.object members) c) := by
  rintro ⟨response, c', status, body, hReturned, hStatus, -⟩
  have hReply : runAction J plan (.object members) .createProjection c =
      .returned (none, .null) c := rfl
  have hNull : Json.null.isUtf8 = true := rfl
  simp only [handle_of_reply hRequests hReply, if_pos hNull, Outcome.returned.injEq] at hReturned
  rw [← hReturned.1] at hStatus
  simp at hStatus

/-- On every store that comes about and for every request that names one of the nine
actions and has the fields that this action reads, with their types: the answer is
consistent exactly when the action is not `CreateProjection`, a pushed event is one that
the store takes, and the text that goes into the reply is valid UTF-8. -/
theorem handle_consistent_iff (hReachable : Reachable c) (hConforms : J.Conforms) (plan : Plan)
    (hRequests : Requests members action) :
    AnswersConsistently J c (handle J plan (.object members) c) ↔
      Answerable J plan c members action := by
  have hInv := hReachable.invariant.store
  cases action with
  | createStream =>
      exact iff_of_true (createStream_consistent hConforms hRequests hInv.ready) trivial
  | getAllStreams => exact getAllStreams_consistent_iff hConforms hRequests hInv.ready
  | getStreamsByType =>
      exact iff_of_true (consistent_of_error hConforms hRequests (by decide +kernel) rfl) trivial
  | getStream =>
      exact iff_of_true (consistent_of_error hConforms hRequests (by decide +kernel) rfl) trivial
  | pushEvent => exact pushEvent_consistent_iff hConforms hRequests hInv
  | getEventsByStreamId => exact getEventsByStreamId_consistent_iff hConforms hRequests hInv
  | getEventsByStreamType =>
      exact getEventsByStreamType_consistent_iff hConforms hRequests hInv.ready
  | createProjection => exact iff_of_false (createProjection_not_consistent hRequests) id
  | none =>
      exact iff_of_true (consistent_of_error hConforms hRequests (by decide +kernel) rfl) trivial

/-! ## An answer, and two requests without one -/

def sampleReadPlan : Plan := ⟨.streamsOuter, .rowid⟩

def getEventsRequest : List (String × Json) :=
  [("action", .string "GetEventsByStreamId"), ("id", .integer 1)]

theorem getEventsRequest_requests : Requests getEventsRequest .getEventsByStreamId :=
  ⟨rfl, 1, rfl⟩

theorem handle_consistent_get_events :
    AnswersConsistently Compact.jsonLib oneEventConnection
      (handle Compact.jsonLib sampleReadPlan (.object getEventsRequest) oneEventConnection) := by
  refine (handle_consistent_iff oneEventConnection_reachable Compact.jsonText_conforms
    sampleReadPlan getEventsRequest_requests).mpr ?_
  intro id hId
  obtain rfl : id = 1 := by
    simpa [getEventsRequest, findMember, eq_comm] using hId
  show EventsAnswerable Compact.jsonLib [⟨1, 1, "UserCreated", "{}", 1⟩]
  have hNone : firstUnreadable Compact.jsonLib [⟨1, 1, "UserCreated", "{}", 1⟩] = none := by
    decide +kernel
  rw [EventsAnswerable, hNone]
  decide +kernel

def createProjectionRequest : List (String × Json) := [("action", .string "CreateProjection")]

/-- A push with the version of the event that is there already. -/
def stalePushRequest : List (String × Json) :=
  [("action", .string "PushEvent"), ("payload", .string "{}"), ("streamId", .integer 1),
    ("type", .string "UserCreated"), ("version", .integer 1)]

/-- `CreateProjection` is answered without a status, and a stale push by an exception. -/
theorem inconsistent_answers :
    Reachable oneEventConnection ∧
      (Requests createProjectionRequest .createProjection ∧
        handle Compact.jsonLib sampleReadPlan (.object createProjectionRequest)
          oneEventConnection = .returned ⟨none, "null"⟩ oneEventConnection ∧
        ¬AnswersConsistently Compact.jsonLib oneEventConnection
          (handle Compact.jsonLib sampleReadPlan (.object createProjectionRequest)
            oneEventConnection)) ∧
      Requests stalePushRequest .pushEvent ∧
        handle Compact.jsonLib sampleReadPlan (.object stalePushRequest) oneEventConnection =
          .threw (.std (.runtimeError "DB ERROR: Event version mismatch.")) oneEventConnection ∧
        ¬AnswersConsistently Compact.jsonLib oneEventConnection
          (handle Compact.jsonLib sampleReadPlan (.object stalePushRequest)
            oneEventConnection) := by
  have hProjection : handle Compact.jsonLib sampleReadPlan (.object createProjectionRequest)
      oneEventConnection = .returned ⟨none, "null"⟩ oneEventConnection := by decide +kernel
  have hStale : handle Compact.jsonLib sampleReadPlan (.object stalePushRequest)
      oneEventConnection =
        .threw (.std (.runtimeError "DB ERROR: Event version mismatch.")) oneEventConnection := by
    decide +kernel
  refine ⟨oneEventConnection_reachable, ⟨⟨rfl, trivial⟩, hProjection, ?_⟩,
    ⟨rfl, ⟨_, rfl⟩, ⟨_, rfl⟩, ⟨_, rfl⟩, ⟨_, rfl⟩⟩, hStale, ?_⟩
  · rintro ⟨response, c', status, body, hReturned, hStatus, -⟩
    rw [hProjection, Outcome.returned.injEq] at hReturned
    rw [← hReturned.1] at hStatus
    simp at hStatus
  · rintro ⟨response, c', status, body, hReturned, -⟩
    rw [hStale] at hReturned
    simp at hReturned

end ActionHandler
end Yess

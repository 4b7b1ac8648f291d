import Yess.Handler.PlayProjection
import Yess.Handler.StreamActions

namespace Yess
namespace GrpcService

open Foundation Db Ext ActionHandler

/-!
# The gRPC service

The procedures that reply with a status, and the messages that they take and give.
Each of them builds its status by hand.
-/

structure ResponseStatus where
  status : Int32
  msg : String
  deriving DecidableEq

/-- The message `Event`; a field that is not set has its default. -/
structure EventMsg where
  id : Int32 := 0
  streamId : Int32 := 0
  type : String := ""
  payload : String := ""
  version : Int32 := 0
  deriving DecidableEq

/-- The message `Stream`, less its events, which no procedure sets. -/
structure StreamMsg where
  id : Int32
  type : String
  version : Int32
  deriving DecidableEq

structure PushEventReq where
  streamId : Int32
  event : Option EventMsg
  deriving DecidableEq

structure PushEventResp where
  status : ResponseStatus
  deriving DecidableEq

structure DeleteProjectionReq where
  id : Int32
  deriving DecidableEq

structure DeleteProjectionResp where
  status : ResponseStatus
  deriving DecidableEq

structure GetStreamReq where
  id : Int32
  deriving DecidableEq

structure GetStreamResp where
  status : Option ResponseStatus
  stream : Option StreamMsg
  deriving DecidableEq

structure PlayReq where
  projectionId : Int32
  streamId : Int32
  streamType : String
  initialState : String
  deriving DecidableEq

structure PlayResp where
  status : ResponseStatus
  state : String
  deriving DecidableEq

/-- `make_status`, which does not look at its arguments. -/
def makeStatus (_code : Int32) (_msg : String) : ResponseStatus where
  status := 0
  msg := "OK"

/-- The code that a client reads: 0 where no status was set. -/
def statusCode (status : Option ResponseStatus) : Int32 :=
  (status.map ResponseStatus.status).getD 0

/-! ## Streams, events and projections -/

/-- A call whose status is that of `make_status`, and 1 with the text of the
exception where it throws. -/
def callStatus (call : DbProg Unit) : DbProg ResponseStatus :=
  let status := makeStatus 0 "OK"
  Prog.tryCatch (do call; pure status)
    fun ex => pure { status with msg := ex.what, status := 1 }

/-- The event that a request embeds.  A message that is not set reads as one whose
fields are not set. -/
def PushEventReq.toEvent (request : PushEventReq) : Event :=
  let event := request.event.getD {}
  ⟨-1, event.streamId, event.type, event.payload, event.version⟩

/-- `Grpc_service::PushEvent`. -/
def pushEvent (request : PushEventReq) : DbProg PushEventResp := do
  let event := request.toEvent
  let status ← callStatus (ActionHandler.pushEvent request.streamId event)
  pure ⟨status⟩

/-- `Grpc_service::DeleteProjection`. -/
def deleteProjection (request : DeleteProjectionReq) : DbProg DeleteProjectionResp := do
  let status ← callStatus (ActionHandler.deleteProjection request.id)
  pure ⟨status⟩

/-- `set_values` for a stream. -/
def setValues (stream : Stream) : StreamMsg := ⟨stream.id, stream.type, stream.version⟩

/-- `Grpc_service::GetStream`. -/
def getStream (request : GetStreamReq) : DbProg GetStreamResp := do
  match ← ActionHandler.getStream request.id with
  -- Only the text of the status is set here, and no status where a stream is found.
  | none => pure ⟨some ⟨0, "Stream not found"⟩, none⟩
  | some stream => pure ⟨none, some (setValues stream)⟩

/-! ## Plays -/

variable (J : JsonText) {E : Duktape}

/-- The reply of a play that came to an end: the status of `make_status` and the
state, or a status with the text of the exception and the state `null`. -/
def reply : Except Exn Json → PlayResp
  | .ok state => ⟨makeStatus 0 "OK", J.dump state⟩
  | .error ex => ⟨{ makeStatus 0 "OK" with msg := ex.what, status := 1 }, J.dump .null⟩

/-- The `try` block of `Grpc_service::Play`, which catches every `std::exception`,
and the reply after it. -/
def report (play : HandlerProg E Json) : HandlerProg E PlayResp :=
  Prog.tryCatch
    (do
      let state ← play
      pure (reply J (.ok state)))
    fun ex => pure (reply J (.error ex))

/-- The overload that a request calls.  The initial state is a string to the
handler, as it is in the request. -/
def PlayReq.toPlayRequest (request : PlayReq) : PlayRequest where
  projectionId := request.projectionId
  init := .string request.initialState
  stream := if request.streamType = "" then .id request.streamId else .type request.streamType
  fnName := "projection"

/-- `Grpc_service::Play`. -/
def play (plan : Plan) (request : PlayReq) : HandlerProg E PlayResp :=
  report J (playProjection J plan request.toPlayRequest)

/-! ## What the procedures do on a database with its full schema -/

section

variable {c c' : Connection}

theorem callStatus_of_returned {call : DbProg Unit} (hCall : call c = .returned () c') :
    callStatus call c = .returned ⟨0, "OK"⟩ c' :=
  Prog.tryCatch_of_returned (Prog.bind_of_returned hCall)

theorem callStatus_of_threw {call : DbProg Unit} {ex : Exn} (hCall : call c = .threw ex c') :
    callStatus call c = .returned ⟨1, ex.what⟩ c' :=
  Prog.tryCatch_of_threw (Prog.bind_of_threw hCall)

/-- A push replies 0 exactly when the store takes the embedded event. -/
theorem pushEvent_apply (request : PushEventReq) (hReady : c.Ready) :
    pushEvent request c =
      match insertError c (newEventRow c.database request.toEvent) with
      | some error => .returned ⟨⟨1, "DB ERROR: " ++ error.what⟩⟩ c
      | none => .returned ⟨⟨0, "OK"⟩⟩ { c with database := { c.database with
          events := c.database.events ++ [newEventRow c.database request.toEvent] } } := by
  have hPush := ActionHandler.pushEvent_apply request.streamId request.toEvent hReady
  cases hError : insertError c (newEventRow c.database request.toEvent) with
  | none =>
      rw [hError] at hPush
      exact Prog.bind_of_returned (callStatus_of_returned hPush)
  | some error =>
      rw [hError] at hPush
      exact Prog.bind_of_returned (callStatus_of_threw hPush)

theorem deleteProjection_apply (request : DeleteProjectionReq) (hReady : c.Ready) :
    deleteProjection request c = .returned ⟨⟨0, "OK"⟩⟩ { c with database := { c.database with
      projections := c.database.projections.filter
        fun row => row.id ≠ request.id.toInt } } :=
  Prog.bind_of_returned (callStatus_of_returned (ProjectionRepo.remove_apply request.id hReady))

theorem getStream_apply (request : GetStreamReq) (hReady : c.Ready) :
    getStream request c = .returned
      (match c.database.streams.find? fun row => row.id = request.id.toInt with
        | none => ⟨some ⟨0, "Stream not found"⟩, none⟩
        | some row => ⟨none, some (setValues { row.toStream with id := request.id })⟩) c := by
  have hGet : ActionHandler.getStream request.id c = _ := Db.get_apply request.id hReady
  rw [getStream, Prog.bind_of_returned hGet]
  cases c.database.streams.find? fun row => row.id = request.id.toInt <;> rfl

end

theorem report_apply (play : HandlerProg E Json) (h : Handler E) :
    report J play h = match play h with
      | .returned state h' => .returned (reply J (.ok state)) h'
      | .threw ex h' => .returned (reply J (.error ex)) h'
      | .aborted => .aborted := by
  unfold report Prog.tryCatch
  rw [Prog.bind_apply]
  cases play h <;> rfl

/-- The reply is that to the result of the play. -/
theorem report_value (play : HandlerProg E Json) (h : Handler E) :
    (report J play h).value = (play h).result.map (reply J) := by
  rw [report_apply]
  cases play h <;> rfl

end GrpcService
end Yess

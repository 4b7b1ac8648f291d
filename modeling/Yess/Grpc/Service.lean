import Yess.Grpc.StatusCodes
import Yess.Handler.TypeMerge

namespace Yess
namespace GrpcService

open Foundation ValueStack Db Ext ActionHandler

/-!
# All procedures of the service

The procedures beside those that reply with a status of their own, and any procedure
as a step of the process.  The process may end and be started again on its file at
any time.

Whatever the store, a procedure other than `Play` replies (`call_returned`), although
most of them catch no exception.
-/

structure CreateStreamReq where
  type : String
  deriving DecidableEq

structure CreateStreamResp where
  status : ResponseStatus
  deriving DecidableEq

structure GetAllStreamsResp where
  status : Option ResponseStatus
  streams : List StreamMsg
  deriving DecidableEq

structure GetStreamsByTypeReq where
  type : String
  deriving DecidableEq

structure GetStreamsByTypeResp where
  status : Option ResponseStatus
  streams : List StreamMsg
  deriving DecidableEq

structure GetEventsByStreamIdReq where
  id : Int32
  deriving DecidableEq

structure GetEventsByStreamIdResp where
  status : Option ResponseStatus
  events : List EventMsg
  deriving DecidableEq

structure GetEventsByStreamTypeReq where
  type : String
  deriving DecidableEq

structure GetEventsByStreamTypeResp where
  status : Option ResponseStatus
  events : List EventMsg
  deriving DecidableEq

structure CreateProjectionReq where
  data : String
  type : String
  deriving DecidableEq

structure CreateProjectionResp where
  status : ResponseStatus
  deriving DecidableEq

/-- The message `Projection`. -/
structure ProjectionMsg where
  id : Int32
  type : String
  data : String
  deriving DecidableEq

structure GetProjectionsReq where
  type : String
  deriving DecidableEq

structure GetProjectionsResp where
  status : ResponseStatus
  projections : List ProjectionMsg
  deriving DecidableEq

/-! ## The procedures -/

/-- `Grpc_service::CreateStream`. -/
def createStream (request : CreateStreamReq) : DbProg CreateStreamResp := do
  ActionHandler.createStream request.type
  let status := makeStatus 0 "OK"
  pure ⟨status⟩

/-- `Grpc_service::CreateProjection`. -/
def createProjection (request : CreateProjectionReq) : DbProg CreateProjectionResp := do
  if request.type = "" then
    ActionHandler.createProjection request.data
  else
    ActionHandler.createProjectionTyped request.data request.type
  let status := makeStatus 0 "OK"
  pure ⟨status⟩

/-- `set_values` for an event. -/
def setEventValues (event : Event) : EventMsg :=
  ⟨event.id, event.streamId, event.type, event.payload, event.version⟩

/-- `set_values` for a projection. -/
def setProjectionValues (proj : Projection) : ProjectionMsg := ⟨proj.id, proj.type, proj.data⟩

/-- `Grpc_service::GetAllStreams`, which sets no status, as the other readers of streams
and events. -/
def getAllStreams : DbProg GetAllStreamsResp := do
  let streams ← ActionHandler.getAllStreams
  pure ⟨none, streams.map setValues⟩

/-- `Grpc_service::GetStreamsByType`. -/
def getStreamsByType (request : GetStreamsByTypeReq) : DbProg GetStreamsByTypeResp := do
  let streams ← ActionHandler.getStreamsByType request.type
  pure ⟨none, streams.map setValues⟩

/-- `Grpc_service::GetEventsByStreamId`. -/
def getEventsByStreamId (plan : Plan) (request : GetEventsByStreamIdReq) :
    DbProg GetEventsByStreamIdResp := do
  let events ← ActionHandler.getEventsByStreamId plan request.id
  pure ⟨none, events.map setEventValues⟩

/-- `Grpc_service::GetEventsByStreamType`. -/
def getEventsByStreamType (plan : Plan) (request : GetEventsByStreamTypeReq) :
    DbProg GetEventsByStreamTypeResp := do
  let events ← ActionHandler.getEventsByStreamType plan request.type
  pure ⟨none, events.map setEventValues⟩

/-- `Grpc_service::GetProjections`. -/
def getProjections (request : GetProjectionsReq) : DbProg GetProjectionsResp := do
  let projections ←
    if request.type = "" then ActionHandler.getAllProjections
    else ActionHandler.getProjectionsByType request.type
  let status := makeStatus 0 "OK"
  pure ⟨status, projections.map setProjectionValues⟩

/-! ## The service -/

/-- A call of a procedure. -/
inductive Rpc where
  | createStream (request : CreateStreamReq)
  | pushEvent (request : PushEventReq)
  | getAllStreams
  | getStreamsByType (request : GetStreamsByTypeReq)
  | getStream (request : GetStreamReq)
  | getEventsByStreamId (request : GetEventsByStreamIdReq)
  | getEventsByStreamType (request : GetEventsByStreamTypeReq)
  | createProjection (request : CreateProjectionReq)
  | play (request : PlayReq)
  | getProjections (request : GetProjectionsReq)
  | deleteProjection (request : DeleteProjectionReq)
  deriving DecidableEq

inductive RpcReply where
  | createStream (reply : CreateStreamResp)
  | pushEvent (reply : PushEventResp)
  | getAllStreams (reply : GetAllStreamsResp)
  | getStreamsByType (reply : GetStreamsByTypeResp)
  | getStream (reply : GetStreamResp)
  | getEventsByStreamId (reply : GetEventsByStreamIdResp)
  | getEventsByStreamType (reply : GetEventsByStreamTypeResp)
  | createProjection (reply : CreateProjectionResp)
  | play (reply : PlayResp)
  | getProjections (reply : GetProjectionsResp)
  | deleteProjection (reply : DeleteProjectionResp)
  deriving DecidableEq

variable (J : JsonText) {E : Duktape}

/-- The procedure that is called. -/
def call (plan : Plan) : Rpc → HandlerProg E RpcReply
  | .createStream request => onConnection do
      pure (.createStream (← createStream request))
  | .pushEvent request => onConnection do
      pure (.pushEvent (← pushEvent request))
  | .getAllStreams => onConnection do
      pure (.getAllStreams (← getAllStreams))
  | .getStreamsByType request => onConnection do
      pure (.getStreamsByType (← getStreamsByType request))
  | .getStream request => onConnection do
      pure (.getStream (← getStream request))
  | .getEventsByStreamId request => onConnection do
      pure (.getEventsByStreamId (← getEventsByStreamId plan request))
  | .getEventsByStreamType request => onConnection do
      pure (.getEventsByStreamType (← getEventsByStreamType plan request))
  | .createProjection request => onConnection do
      pure (.createProjection (← createProjection request))
  | .play request => do
      pure (.play (← play J plan request))
  | .getProjections request => onConnection do
      pure (.getProjections (← getProjections request))
  | .deleteProjection request => onConnection do
      pure (.deleteProjection (← deleteProjection request))

/-- What clients and operators see of the service. -/
inductive ServiceLabel where
  | answered (rpc : Rpc) (reply : RpcReply)
  | restarted
  deriving DecidableEq

inductive ServiceStep (J : JsonText) {E : Duktape} : Handler E → ServiceLabel → Handler E → Prop
  | answered {h h' : Handler E} {rpc : Rpc} {reply : RpcReply} (plan : Plan)
      (hCall : call J plan rpc h = .returned reply h') :
      ServiceStep J h (.answered rpc reply) h'
  | restarted {h : Handler E} {c : Connection}
      (hInit : initDb (some h.connection.database) = .returned () c) :
      ServiceStep J h .restarted ⟨c, DukContext.fresh E⟩

/-! ## What a procedure does -/

variable {J} {plan : Plan} {h h' : Handler E} {c c' : Connection}

/-- The row of a projection.  Without a type, the data lie in the column of the type. -/
def projectionRow (id : Int) (data type : String) : ProjectionRow where
  id := id
  type := if type = "" then data else type
  data := if type = "" then "" else data

/-- What a procedure other than `Play` does on a database with its full schema. -/
inductive RpcEffect (plan : Plan) (c : Connection) : Rpc → RpcReply → Connection → Prop
  | createStream (request : CreateStreamReq) :
      RpcEffect plan c (.createStream request) (.createStream ⟨⟨0, "OK"⟩⟩)
        { c with database := { c.database with
          streams := c.database.streams ++
            [⟨Sql.nextRowid (c.database.streams.map StreamRow.id), request.type, 0⟩] } }
  | pushed (request : PushEventReq)
      (hAccepted : insertError c (newEventRow c.database request.toEvent) = none) :
      RpcEffect plan c (.pushEvent request) (.pushEvent ⟨⟨0, "OK"⟩⟩)
        { c with database := { c.database with
          events := c.database.events ++ [newEventRow c.database request.toEvent] } }
  | refused (request : PushEventReq) (error : DbError)
      (hRefused : insertError c (newEventRow c.database request.toEvent) = some error) :
      RpcEffect plan c (.pushEvent request)
        (.pushEvent ⟨⟨1, "DB ERROR: " ++ error.what⟩⟩) c
  | getAllStreams :
      RpcEffect plan c .getAllStreams
        (.getAllStreams ⟨none, (c.database.streams.map StreamRow.toStream).map setValues⟩) c
  | getStreamsByType (request : GetStreamsByTypeReq) :
      RpcEffect plan c (.getStreamsByType request)
        (.getStreamsByType ⟨none, ((c.database.streams.filter
          fun row => row.type = request.type).map StreamRow.toStream).map setValues⟩) c
  | getStream (request : GetStreamReq) :
      RpcEffect plan c (.getStream request)
        (.getStream (match c.database.streams.find? fun row => row.id = request.id.toInt with
          | none => ⟨some ⟨0, "Stream not found"⟩, none⟩
          | some row => ⟨none, some (setValues { row.toStream with id := request.id })⟩)) c
  | getEventsByStreamId (request : GetEventsByStreamIdReq) (events : List Event)
      (hRead : getEvents plan request.id c = .returned events c) :
      RpcEffect plan c (.getEventsByStreamId request)
        (.getEventsByStreamId ⟨none, events.map setEventValues⟩) c
  | getEventsByStreamType (request : GetEventsByStreamTypeReq) :
      RpcEffect plan c (.getEventsByStreamType request)
        (.getEventsByStreamType ⟨none,
          ((rowsOfType plan c.database request.type).map EventRow.toEvent).map
            setEventValues⟩) c
  | createProjection (request : CreateProjectionReq) :
      RpcEffect plan c (.createProjection request) (.createProjection ⟨⟨0, "OK"⟩⟩)
        { c with database := { c.database with
          projections := c.database.projections ++
            [projectionRow (Sql.nextRowid (c.database.projections.map ProjectionRow.id))
              request.data request.type] } }
  | getProjections (request : GetProjectionsReq) (projections : List ProjectionMsg) :
      RpcEffect plan c (.getProjections request)
        (.getProjections ⟨⟨0, "OK"⟩, projections⟩) c
  | deleteProjection (request : DeleteProjectionReq) :
      RpcEffect plan c (.deleteProjection request) (.deleteProjection ⟨⟨0, "OK"⟩⟩)
        { c with database := { c.database with
          projections := c.database.projections.filter fun row => row.id ≠ request.id.toInt } }

theorem createProjection_apply (request : CreateProjectionReq) (hReady : c.Ready) :
    createProjection request c = .returned ⟨⟨0, "OK"⟩⟩
      { c with database := { c.database with
        projections := c.database.projections ++
          [projectionRow (Sql.nextRowid (c.database.projections.map ProjectionRow.id))
            request.data request.type] } } := by
  unfold createProjection
  by_cases hType : request.type = ""
  · simp only [projectionRow, if_pos hType]
    exact Prog.bind_of_returned (ProjectionRepo.create_apply _ hReady)
  · simp only [projectionRow, if_neg hType]
    exact Prog.bind_of_returned (ProjectionRepo.create_apply _ hReady)

theorem getProjections_apply (request : GetProjectionsReq) (hReady : c.Ready) :
    ∃ projections, getProjections request c = .returned ⟨⟨0, "OK"⟩, projections⟩ c := by
  unfold getProjections
  by_cases hType : request.type = ""
  · rw [if_pos hType]
    exact ⟨_, Prog.bind_of_returned (ProjectionRepo.all_apply hReady)⟩
  · rw [if_neg hType]
    exact ⟨_, Prog.bind_of_returned (ProjectionRepo.type_apply _ hReady)⟩

/-- A procedure that returns on the connection. -/
theorem onConnection_call {α : Type} {p : DbProg α} {wrap : α → RpcReply} {a : α}
    (hReturned : p h.connection = .returned a c) :
    (onConnection (do pure (wrap (← p)) : DbProg RpcReply) : HandlerProg E RpcReply) h =
      .returned (wrap a) { h with connection := c } :=
  onConnection_of_returned (Prog.bind_of_returned hReturned)

/-- Every procedure but `Play` replies. -/
theorem call_returned (hReady : h.connection.Ready) (rpc : Rpc)
    (hPlay : ∀ request, rpc ≠ .play request) :
    ∃ reply c', call J plan rpc h = .returned reply { h with connection := c' } ∧
      RpcEffect plan h.connection rpc reply c' := by
  cases rpc with
  | createStream request =>
      exact ⟨_, _, onConnection_call (Prog.bind_of_returned (create_apply ⟨0, _, 0⟩ hReady)),
        .createStream request⟩
  | pushEvent request =>
      have hPush := pushEvent_apply request hReady
      cases hError : insertError h.connection
          (newEventRow h.connection.database request.toEvent) with
      | none =>
          rw [hError] at hPush
          exact ⟨_, _, onConnection_call hPush, .pushed request hError⟩
      | some error =>
          rw [hError] at hPush
          exact ⟨_, _, onConnection_call hPush, .refused request error hError⟩
  | getAllStreams =>
      exact ⟨_, _, onConnection_call (Prog.bind_of_returned (all_apply hReady)),
        .getAllStreams⟩
  | getStreamsByType request =>
      exact ⟨_, _, onConnection_call (Prog.bind_of_returned (byType_apply _ hReady)),
        .getStreamsByType request⟩
  | getStream request =>
      exact ⟨_, _, onConnection_call (getStream_apply request hReady), .getStream request⟩
  | getEventsByStreamId request =>
      have hRead := getEvents_apply plan request.id hReady
      exact ⟨_, _, onConnection_call (Prog.bind_of_returned hRead),
        .getEventsByStreamId request _ hRead⟩
  | getEventsByStreamType request =>
      exact ⟨_, _, onConnection_call (Prog.bind_of_returned (getEventsByType_apply _ _ hReady)),
        .getEventsByStreamType request⟩
  | createProjection request =>
      exact ⟨_, _, onConnection_call (createProjection_apply request hReady),
        .createProjection request⟩
  | play request => exact absurd rfl (hPlay request)
  | getProjections request =>
      obtain ⟨projections, hGet⟩ := getProjections_apply request hReady
      exact ⟨_, _, onConnection_call hGet, .getProjections request projections⟩
  | deleteProjection request =>
      exact ⟨_, _, onConnection_call (deleteProjection_apply request hReady),
        .deleteProjection request⟩

/-- `Play` replies what it replies, and leaves the connection as it is. -/
theorem call_play {request : PlayReq} {reply : RpcReply}
    (hCall : call J plan (.play request) h = .returned reply h') :
    h'.connection = h.connection ∧ ∃ resp, reply = .play resp := by
  obtain ⟨resp, h'', hPlay, hPure⟩ := Prog.bind_eq_returned.mp hCall
  rw [Prog.pure_apply, Outcome.returned.injEq] at hPure
  obtain ⟨rfl, rfl⟩ := hPure
  refine ⟨?_, resp, rfl⟩
  cases hResult : playProjection J plan request.toPlayRequest h with
  | returned state h₁ =>
      rw [play_of_returned hResult, Outcome.returned.injEq] at hPlay
      rw [← hPlay.2]
      exact playProjection_connection (by rw [hResult]; rfl)
  | threw ex h₁ =>
      rw [play_of_threw hResult, Outcome.returned.injEq] at hPlay
      rw [← hPlay.2]
      exact playProjection_connection (by rw [hResult]; rfl)
  | aborted =>
      have hAborted : play J plan request h = .aborted :=
        Prog.tryCatch_of_aborted (Prog.bind_of_aborted hResult)
      rw [hAborted] at hPlay
      simp at hPlay

/-- The inversion of a call. -/
theorem call_effect {rpc : Rpc} {reply : RpcReply} (hReady : h.connection.Ready)
    (hPlay : ∀ request, rpc ≠ .play request) (hCall : call J plan rpc h = .returned reply h') :
    RpcEffect plan h.connection rpc reply h'.connection := by
  obtain ⟨reply', c', hCall', hEffect⟩ := call_returned (J := J) hReady rpc hPlay
  rw [hCall, Outcome.returned.injEq] at hCall'
  obtain ⟨rfl, rfl⟩ := hCall'
  exact hEffect

/-! ## A stream and its first event -/

/-- The handler of a new process on a store with one stream. -/
def oneStreamHandler : Handler Sample.engine where
  connection := { freshConnection with
    database := { freshConnection.database with streams := [⟨1, "User", 0⟩] } }
  context := DukContext.fresh Sample.engine

def oneEventHandler : Handler Sample.engine where
  connection := oneEventConnection
  context := DukContext.fresh Sample.engine

def firstPush : PushEventReq where
  streamId := 1
  event := some ⟨0, 1, "UserCreated", "{}", 1⟩

theorem oneStreamHandler_reachable : Reachable oneStreamHandler.connection := by
  apply freshConnection_reachable.step
  show ActivityStep _ (.request ⟨.createStream "User", .ok .done, some 1⟩) _
  exact .request samplePlan ⟨rfl, rfl, rfl⟩

theorem emptyRead_step :
    ServiceStep Sample.jsonText oneStreamHandler
      (.answered (.getEventsByStreamId ⟨1⟩) (.getEventsByStreamId ⟨none, []⟩))
      oneStreamHandler :=
  .answered samplePlan rfl

theorem firstPush_step :
    ServiceStep Sample.jsonText oneStreamHandler
      (.answered (.pushEvent firstPush) (.pushEvent ⟨⟨0, "OK"⟩⟩)) oneEventHandler :=
  .answered samplePlan rfl

theorem firstRead_step :
    ServiceStep Sample.jsonText oneEventHandler
      (.answered (.getEventsByStreamId ⟨1⟩)
        (.getEventsByStreamId ⟨none, [⟨1, 1, "UserCreated", "{}", 1⟩]⟩)) oneEventHandler :=
  .answered samplePlan rfl

end GrpcService
end Yess

import Yess.Ext.JsonValue
import Yess.Handler.StreamActions

namespace Yess

open Foundation Db Ext

/-!
# `Action_handler::handle`

The JSON entry point: a request is a JSON object that names its action, the reply a
status and the text of a JSON object.  The keys of an object stand in their sorted
order, in which the library keeps them.
-/

/-! ## Entities as JSON -/

/-- `Stream::json`. -/
def Db.Stream.json (stream : Stream) : Json :=
  .object [("id", .integer stream.id.toInt), ("type", .string stream.type),
    ("version", .integer stream.version.toInt)]

/-- `Event::json`, which parses the payload. -/
def Db.Event.json (J : JsonLib) {σ : Type} (event : Event) : FrontProg σ Json := do
  let payload ← parseJson J event.payload
  pure (.object [("id", .integer event.id.toInt), ("payload", payload),
    ("streamId", .integer event.streamId.toInt), ("type", .string event.type),
    ("version", .integer event.version.toInt)])

/-- `Projection::json`. -/
def Db.Projection.json (projection : Projection) : Json :=
  .object [("data", .string projection.data), ("id", .integer projection.id.toInt),
    ("type", .string projection.type)]

namespace ActionHandler

/-! ## Actions -/

inductive Action where
  | createStream
  | getAllStreams
  | getStreamsByType
  | getStream
  | pushEvent
  | getEventsByStreamId
  | getEventsByStreamType
  | createProjection
  | none
  deriving DecidableEq

def actionToStr : Action → String
  | .createStream => "CreateStream"
  | .getAllStreams => "GetAllStreams"
  | .getStreamsByType => "GetStreamsByType"
  | .getStream => "GetStream"
  | .pushEvent => "PushEvent"
  | .getEventsByStreamId => "GetEventsByStreamId"
  | .getEventsByStreamType => "GetEventsByStreamType"
  | .createProjection => "CreateProjection"
  | .none => "None"

def actionFromStr (action : String) : Except Exn Action :=
  if action = actionToStr .createStream then .ok .createStream
  else if action = actionToStr .getAllStreams then .ok .getAllStreams
  else if action = actionToStr .getStreamsByType then .ok .getStreamsByType
  else if action = actionToStr .getStream then .ok .getStream
  else if action = actionToStr .pushEvent then .ok .pushEvent
  else if action = actionToStr .getEventsByStreamId then .ok .getEventsByStreamId
  else if action = actionToStr .getEventsByStreamType then .ok .getEventsByStreamType
  else if action = actionToStr .createProjection then .ok .createProjection
  else if action = actionToStr .none then .ok .none
  else .error (.runtimeError ("Invalid action: " ++ action))

/-- `msg::ResponseStatus`. -/
inductive ResponseStatus where
  | ok
  | error
  deriving DecidableEq

/-- `msg::Response`; a status that was not assigned is `none`. -/
structure Response where
  status : Option ResponseStatus
  message : String
  deriving DecidableEq

/-- What a branch of the `switch` leaves in `status` and `jsonObj`. -/
abbrev Reply := Option ResponseStatus × Json

def okReply : Reply := (some .ok, .object [("status", .string "OK")])

def dataReply (data : List Json) : Reply :=
  (some .ok, .object [("data", .array data), ("status", .string "OK")])

def errorReply (message : String) : Reply :=
  (some .error, .object [("message", .string message), ("status", .string "Error")])

variable (J : JsonLib)

/-- The two branches that read events, with the `try` block in them. -/
def eventsReply (read : DbProg (List Event)) : FrontProg Connection Reply :=
  Prog.tryCatch
    (do
      let events ← call read
      let arr ← events.mapM (Event.json J)
      pure (dataReply arr))
    fun ex => pure (errorReply ("DB ERROR: " ++ ex.what))

/-- The event in a push request.  The fields are read in this order. -/
def pushedEvent {σ : Type} (obj : Json) : FrontProg σ Event := do
  let type ← jsonString J (← jsonAt J obj "type")
  let streamId ← jsonInt J (← jsonAt J obj "streamId")
  let payload ← jsonString J (← jsonAt J obj "payload")
  let version ← jsonInt J (← jsonAt J obj "version")
  pure ⟨0, streamId, type, payload, version⟩

/-- The `switch` of `handle`. -/
def runAction (plan : Plan) (obj : Json) : Action → FrontProg Connection Reply
  | .createStream => do
      let type ← jsonString J (← jsonAt J obj "type")
      call (saveStream ⟨0, type, 0⟩)
      pure okReply
  | .getAllStreams => do
      let streams ← call Db.all
      pure (dataReply (streams.map Stream.json))
  | .getStreamsByType => pure (errorReply "Action 'GetStreamsByType' is not implemented")
  | .getStream => pure (errorReply "Action 'GetStream' is not implemented")
  | .pushEvent => do
      let event ← pushedEvent J obj
      call (pushEvent event.streamId event)
      pure okReply
  | .getEventsByStreamId => do
      let streamId ← jsonInt J (← jsonAt J obj "id")
      eventsReply J (getEvents plan streamId)
  | .getEventsByStreamType => do
      let type ← jsonString J (← jsonAt J obj "type")
      eventsReply J (getEventsByType plan type)
  -- The `switch` has no case for this action.
  | .createProjection => pure (none, .null)
  | .none => pure (errorReply "Action 'None' is not implemented")

/-- `Action_handler::handle`. -/
def handle (plan : Plan) (obj : Json) : FrontProg Connection Response := do
  let actionStr ← jsonString J (← jsonAt J obj "action")
  let action ← call (Prog.ofExcept (actionFromStr actionStr))
  let reply ← runAction J plan obj action
  let msg ← dumpJson J reply.2
  pure ⟨reply.1, msg⟩

/-! ## Push requests -/

theorem stateless_pushedEvent {σ : Type} (obj : Json) :
    Prog.Stateless (pushedEvent J obj : FrontProg σ Event) (pushedEvent J obj) := by
  refine (stateless_jsonAt J obj "type").bind fun type => ?_
  refine (stateless_jsonString J type).bind fun type => ?_
  refine (stateless_jsonAt J obj "streamId").bind fun streamId => ?_
  refine (stateless_jsonInt J streamId).bind fun streamId => ?_
  refine (stateless_jsonAt J obj "payload").bind fun payload => ?_
  refine (stateless_jsonString J payload).bind fun payload => ?_
  refine (stateless_jsonAt J obj "version").bind fun version => ?_
  refine (stateless_jsonInt J version).bind fun version => ?_
  exact Prog.stateless_pure _

/-- Is the action of the request `PushEvent`? -/
def isPushEvent (request : Json) : Prop :=
  ∃ members, request = .object members ∧
    findMember "action" members = some (.string (actionToStr .pushEvent))

theorem okReply_isUtf8 : okReply.2.isUtf8 = true := by
  decide +kernel

/-- What `handle` does with a push. -/
theorem handle_pushEvent {obj : Json} (hPush : isPushEvent obj) (plan : Plan) :
    handle J plan obj = (do
      let event ← pushedEvent J obj
      call (pushEvent event.streamId event)
      pure ⟨okReply.1, J.dump okReply.2⟩) := by
  obtain ⟨members, rfl, hAction⟩ := hPush
  have hAt : (jsonAt J (.object members) "action" : FrontProg Connection Json) =
      pure (.string (actionToStr .pushEvent)) := by
    rw [jsonAt, hAction]
  rw [handle, hAt]
  simp only [pure_bind, jsonString]
  show (do
    let reply ← runAction J plan (.object members) .pushEvent
    let msg ← dumpJson J reply.2
    pure ⟨reply.1, msg⟩ : FrontProg Connection Response) = _
  simp only [runAction, bind_assoc, pure_bind, dumpJson_of_utf8 J okReply_isUtf8]

end ActionHandler
end Yess

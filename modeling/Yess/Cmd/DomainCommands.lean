import Yess.Handler.PlayProjection
import Yess.Handler.StreamActions

namespace Yess
namespace Cmd

open Foundation Db Ext ActionHandler

/-!
# The domain commands of the shell

The commands that call the handler.  Most of them catch `std::runtime_error` and
nothing else.
-/

/-- `Command_result::Status`. -/
inductive Status where
  | ok
  | error
  | exit
  deriving DecidableEq

/-- A command's status, message and data; the data are absent where the source
passes `nullptr`. -/
structure CommandResult where
  status : Status
  message : String
  data : Option Json

/-- What a command passes as the `std::any` of its result: nothing, `nullptr`, or a
value of one of the types that the shell prints. -/
inductive Data where
  | none
  | null
  | streams (streams : List Stream)
  | projections (projections : List Projection)
  | state (state : Json)

/-- A result with any of these data. -/
structure Output where
  status : Status
  message : String
  data : Data

/-- A result of `play`, among those of the other commands. -/
def CommandResult.output (result : CommandResult) : Output where
  status := result.status
  message := result.message
  data := match result.data with
    | some state => .state state
    | none => .null

/-- `Push_req`. -/
structure PushReq where
  streamId : Int32
  type : String
  payload : String
  version : Int32
  deriving DecidableEq

/-- `Create_projection_req`. -/
structure CreateProjectionReq where
  data : String
  type : String := ""
  deriving DecidableEq

/-- `Play_req`. -/
structure PlayReq where
  projectionId : Int32
  streamId : Int32 := 0
  type : String := ""
  init : Json := .object []

/-! ## Streams, events and projections -/

/-- A `try` block that returns the data it computes, and the one `catch` clause after
it, for `std::runtime_error`. -/
def catchRuntimeError (block : DbProg Data) : DbProg Output :=
  Prog.tryCatch
    (do
      let data ← block
      pure ⟨.ok, "OK", data⟩)
    fun err =>
      if err.isRuntimeError then pure ⟨.error, err.what, .null⟩ else Prog.throw err

/-- `Create_stream::execute`, which catches every `std::exception`. -/
def CreateStream.execute (type : String) : DbProg Output :=
  Prog.tryCatch
    (do
      createStream type
      pure ⟨.ok, "OK", .null⟩)
    fun _ => pure ⟨.error, "Unexpected error: cannot create stream", .null⟩

def CreateStream.usage : String := "create_stream T"

/-- `Delete_stream::execute`. -/
def DeleteStream.execute (id : Int32) : DbProg Output :=
  catchRuntimeError do
    deleteStream id
    pure .null

def DeleteStream.usage : String := "delete_stream SID"

/-- The event that `Push::execute` makes of its request. -/
def PushReq.toEvent (request : PushReq) : Event :=
  ⟨-1, request.streamId, request.type, request.payload, request.version⟩

/-- `Push::execute`. -/
def Push.execute (request : PushReq) : DbProg Output :=
  Prog.tryCatch
    (do
      pushEvent request.streamId request.toEvent
      pure ⟨.ok, "OK", .none⟩)
    fun err =>
      if err.isRuntimeError then pure ⟨.error, err.what, .null⟩
      else pure ⟨.error, "Unexpected error: cannot push event", .null⟩

def Push.usage : String := "push SID T JSON VER"

/-- `Create_projection::execute`. -/
def CreateProjection.execute (request : CreateProjectionReq) : DbProg Output :=
  catchRuntimeError do
    if request.type ≠ "" then createProjectionTyped request.data request.type
    else createProjection request.data
    pure .none

def CreateProjection.usage : String := "create_projection JS [T]"

/-- `Get_streams::execute`. -/
def GetStreams.execute (type : String) : DbProg Output :=
  catchRuntimeError do
    let result ← if type ≠ "" then getStreamsByType type else getAllStreams
    pure (.streams result)

def GetStreams.usage : String := "get_streams [T]"

/-- `Get_projections::execute`. -/
def GetProjections.execute (type : String) : DbProg Output :=
  catchRuntimeError do
    let result ← if type ≠ "" then getProjectionsByType type else getAllProjections
    pure (.projections result)

def GetProjections.usage : String := "get_projections [T]"

/-- `Delete_projection::execute`. -/
def DeleteProjection.execute (id : Int32) : DbProg Output :=
  catchRuntimeError do
    deleteProjection id
    pure .null

def DeleteProjection.usage : String := "delete_projection ID"

/-! ## Plays -/

variable (J : JsonText) {E : Duktape}

/-- The `try` block of `Play::execute`, which catches `std::runtime_error`. -/
def Play.report (play : HandlerProg E Json) : HandlerProg E CommandResult :=
  Prog.tryCatch
    (do
      let res ← play
      pure ⟨.ok, "OK", some res⟩)
    fun err =>
      if err.isRuntimeError then pure ⟨.error, err.what, none⟩ else Prog.throw err

/-- `Play::execute`. -/
def Play.execute (plan : Plan) (request : PlayReq) : HandlerProg E CommandResult :=
  if request.type ≠ "" then
    Play.report (playProjection J plan
      ⟨request.projectionId, request.init, .type request.type, "projection"⟩)
  else
    Play.report (playProjection J plan
      ⟨request.projectionId, request.init, .id request.streamId, "projection"⟩)

def Play.usage : String := "play PID T/SID [I]"

/-- The request as `Play::execute` passes it on. -/
def PlayReq.toPlayRequest (request : PlayReq) : PlayRequest where
  projectionId := request.projectionId
  init := request.init
  stream := if request.type ≠ "" then .type request.type else .id request.streamId
  fnName := "projection"

theorem Play.execute_eq (plan : Plan) (request : PlayReq) :
    Play.execute J plan request =
      Play.report (playProjection J plan request.toPlayRequest : HandlerProg E Json) := by
  unfold Play.execute PlayReq.toPlayRequest
  by_cases hType : request.type ≠ ""
  · simp only [if_pos hType]
  · simp only [if_neg hType]

theorem Play.report_apply (play : HandlerProg E Json) (h : Handler E) :
    Play.report play h = match play h with
      | .returned state h' => .returned ⟨.ok, "OK", some state⟩ h'
      | .threw err h' =>
          if err.isRuntimeError then .returned ⟨.error, err.what, none⟩ h'
          else .threw err h'
      | .aborted => .aborted := by
  unfold Play.report Prog.tryCatch
  rw [Prog.bind_apply]
  cases play h with
  | returned state h' => rfl
  | threw err h' => by_cases hErr : err.isRuntimeError = true <;> simp [hErr]
  | aborted => rfl

/-! ## What the commands do on a database with its full schema -/

section

variable {c c' : Connection}

theorem catchRuntimeError_of_returned {block : DbProg Data} {data : Data}
    (hBlock : block c = .returned data c') :
    catchRuntimeError block c = .returned ⟨.ok, "OK", data⟩ c' :=
  Prog.tryCatch_of_returned (Prog.bind_of_returned hBlock)

theorem CreateStream.execute_apply (type : String) (hReady : c.Ready) :
    CreateStream.execute type c = .returned ⟨.ok, "OK", .null⟩ { c with
      database := { c.database with streams := c.database.streams ++
        [⟨Sql.nextRowid (c.database.streams.map StreamRow.id), type, 0⟩] } } :=
  Prog.tryCatch_of_returned (Prog.bind_of_returned (create_apply ⟨0, type, 0⟩ hReady))

theorem DeleteStream.execute_apply (id : Int32) (hReady : c.Ready) :
    DeleteStream.execute id c = .returned ⟨.ok, "OK", .null⟩ { c with
      database := { c.database with
        events := c.database.events.filter fun row => row.streamId ≠ id.toInt
        streams := c.database.streams.filter fun row => row.id ≠ id.toInt } } :=
  catchRuntimeError_of_returned (Prog.bind_of_returned (remove_apply id hReady))

theorem Push.execute_apply (request : PushReq) (hReady : c.Ready) :
    Push.execute request c =
      match insertError c (newEventRow c.database request.toEvent) with
      | some error => .returned ⟨.error, "DB ERROR: " ++ error.what, .null⟩ c
      | none => .returned ⟨.ok, "OK", .none⟩ { c with database := { c.database with
          events := c.database.events ++ [newEventRow c.database request.toEvent] } } := by
  have hPush := pushEvent_apply request.streamId request.toEvent hReady
  cases hError : insertError c (newEventRow c.database request.toEvent) with
  | none =>
      rw [hError] at hPush
      exact Prog.tryCatch_of_returned (Prog.bind_of_returned hPush)
  | some error =>
      rw [hError] at hPush
      exact Prog.tryCatch_of_threw (Prog.bind_of_threw hPush)

theorem CreateProjection.execute_apply (request : CreateProjectionReq) (hReady : c.Ready) :
    ∃ c', CreateProjection.execute request c = .returned ⟨.ok, "OK", .none⟩ c' := by
  unfold CreateProjection.execute
  by_cases hType : request.type ≠ ""
  · simp only [if_pos hType]
    exact ⟨_, catchRuntimeError_of_returned
      (Prog.bind_of_returned (ProjectionRepo.create_apply _ hReady))⟩
  · simp only [if_neg hType]
    exact ⟨_, catchRuntimeError_of_returned
      (Prog.bind_of_returned (ProjectionRepo.create_apply _ hReady))⟩

theorem GetStreams.execute_apply (type : String) (hReady : c.Ready) :
    GetStreams.execute type c = .returned ⟨.ok, "OK", .streams
      ((c.database.streams.filter fun row => type = "" ∨ row.type = type).map
        StreamRow.toStream)⟩ c := by
  unfold GetStreams.execute
  by_cases hType : type = ""
  · simp only [hType, ne_eq, not_true_eq_false, if_false, true_or, decide_true,
      List.filter_true]
    exact catchRuntimeError_of_returned (Prog.bind_of_returned (all_apply hReady))
  · simp only [hType, ne_eq, not_false_eq_true, if_true, false_or]
    exact catchRuntimeError_of_returned (Prog.bind_of_returned (byType_apply type hReady))

theorem GetProjections.execute_apply (type : String) (hReady : c.Ready) :
    GetProjections.execute type c = .returned ⟨.ok, "OK", .projections
      (if type = "" then c.database.projections.map fun row =>
          Projection.new (getInt row.id) row.type row.data
        else (c.database.projections.filter fun row => row.type = type).map fun row =>
          Projection.new (getInt row.id) row.data row.type)⟩ c := by
  unfold GetProjections.execute
  by_cases hType : type = ""
  · simp only [hType, ne_eq, not_true_eq_false, if_false, if_true]
    exact catchRuntimeError_of_returned
      (Prog.bind_of_returned (ProjectionRepo.all_apply hReady))
  · simp only [hType, ne_eq, not_false_eq_true, if_true, if_false]
    exact catchRuntimeError_of_returned
      (Prog.bind_of_returned (ProjectionRepo.type_apply type hReady))

theorem DeleteProjection.execute_apply (id : Int32) (hReady : c.Ready) :
    DeleteProjection.execute id c = .returned ⟨.ok, "OK", .null⟩ { c with
      database := { c.database with projections :=
        c.database.projections.filter fun row => row.id ≠ id.toInt } } :=
  catchRuntimeError_of_returned
    (Prog.bind_of_returned (ProjectionRepo.remove_apply id hReady))

end

end Cmd
end Yess

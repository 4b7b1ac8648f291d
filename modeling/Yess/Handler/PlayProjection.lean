import Yess.Db.SqliteProjectionRepo
import Yess.Ext.DukContext

namespace Yess
namespace ActionHandler

open Foundation Db Ext

/-!
# The projection actions of `Action_handler`

The member functions on the stored projections, and `play_projection`, which
loads a projection and the events, has the source evaluated in the one
`Duk_context` of the handler and applies the function it then finds there.
-/

def createProjection (data : String) : DbProg Unit :=
  let p := Projection.new (-1) "" data
  ProjectionRepo.create p

/-- The other `create_projection`. -/
def createProjectionTyped (data type : String) : DbProg Unit :=
  let p := Projection.new (-1) data type
  ProjectionRepo.create p

def getAllProjections : DbProg (List Projection) := ProjectionRepo.all

def getProjectionsByType (type : String) : DbProg (List Projection) :=
  ProjectionRepo.type type

def deleteProjection (id : Int32) : DbProg Unit := ProjectionRepo.remove id

/-! ## The handler -/

/-- The database connection that the repositories share, and the context. -/
structure Handler (E : Duktape) where
  connection : Connection
  context : Context E

abbrev HandlerProg (E : Duktape) (α : Type) : Type := Prog Exn (Handler E) α

variable {E : Duktape} {α β : Type}

def onConnection (p : DbProg α) : HandlerProg E α :=
  Prog.zoom Handler.connection (fun c h => { h with connection := c }) p

def onContext (p : DukProg E α) : HandlerProg E α :=
  Prog.zoom Handler.context (fun c h => { h with context := c }) p

/-- Which of the two overloads is called, and with what. -/
inductive StreamRef where
  | id (streamId : Int32)
  | type (type : String)
  deriving DecidableEq

/-- `stream_repo_->getEvents`. -/
def loadEvents (plan : Plan) : StreamRef → DbProg (List Event)
  | .id streamId => getEvents plan streamId
  | .type type => getEventsByType plan type

/-- The arguments of `play_projection`. -/
structure PlayRequest where
  projectionId : Int32
  init : Json
  stream : StreamRef
  fnName : String := "projection"

variable (J : JsonText)

/-- `Action_handler::play_projection`, both overloads. -/
def playProjection (plan : Plan) (request : PlayRequest) : HandlerProg E Json := do
  let proj ← onConnection (ProjectionRepo.id request.projectionId)
  let events ← onConnection (loadEvents plan request.stream)
  onContext (DukContext.read proj.data)
  onContext (DukContext.callProjection J request.fnName events request.init)

/-! ## Running on a part of the handler -/

theorem onConnection_of_returned {p : DbProg α} {h : Handler E} {c : Connection} {a : α}
    (hReturned : p h.connection = .returned a c) :
    onConnection p h = .returned a { h with connection := c } := by
  rw [onConnection, Prog.zoom, hReturned, Outcome.mapState_returned]

theorem onConnection_of_threw {p : DbProg α} {h : Handler E} {c : Connection} {error : Exn}
    (hThrew : p h.connection = .threw error c) :
    onConnection p h = .threw error { h with connection := c } := by
  rw [onConnection, Prog.zoom, hThrew, Outcome.mapState_threw]

theorem onContext_apply (p : DukProg E α) (h : Handler E) :
    onContext p h = (p h.context).mapState fun c => { h with context := c } := rfl

theorem onContext_bind (p : DukProg E α) (k : α → DukProg E β) :
    (do let a ← onContext p; onContext (k a) : HandlerProg E β) = onContext (p >>= k) := by
  funext h
  rw [Prog.bind_apply, onContext_apply, onContext_apply, Prog.bind_apply]
  cases p h.context with
  | returned a c => rfl
  | threw error c => rfl
  | aborted => rfl

/-- The queries for events return and change nothing. -/
theorem loadEvents_returned (plan : Plan) (stream : StreamRef) {c : Connection}
    (hReady : c.Ready) : ∃ events, loadEvents plan stream c = .returned events c := by
  cases stream with
  | id streamId => exact ⟨_, getEvents_apply plan streamId hReady⟩
  | type type => exact ⟨_, getEventsByType_apply plan type hReady⟩

end ActionHandler
end Yess

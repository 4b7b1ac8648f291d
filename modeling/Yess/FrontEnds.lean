import Yess.Cmd.Scripts
import Yess.Foundation.Quiet
import Yess.Grpc.Service

namespace Yess
namespace FrontEnds

open Foundation Db Ext ActionHandler

/-!
# Three front ends on one store

Lines of the shell, calls of the gRPC service and JSON requests to `handle` all end at
the same store.  `Call.write` is the change that a call asks for, read off the call
alone.  A change takes effect exactly when the front end tells its client so
(`frontStep_effect`), a file holds what the acknowledged changes make of an empty one, in
their order (`file_eq_acknowledged`), and it does not matter which front end a change goes
through (`front_ends_agree`).
-/

/-- A change of the store that a client can ask for. -/
inductive Write where
  | createStream (type : String)
  | deleteStream (id : Int32)
  | push (entry : Pushed)
  | createProjection (data type : String)
  | deleteProjection (id : Int32)
  deriving DecidableEq

/-- An event of the entry; its id is not looked at. -/
def entryEvent (entry : Pushed) : Event :=
  ⟨0, entry.streamId, entry.type, entry.payload, entry.version⟩

/-- What the change makes of the tables. -/
def Write.apply (db : Database) : Write → Database
  | .createStream type => { db with
      streams := db.streams ++ [⟨Sql.nextRowid (db.streams.map StreamRow.id), type, 0⟩] }
  | .deleteStream id => { db with
      events := db.events.filter fun row => row.streamId ≠ id.toInt
      streams := db.streams.filter fun row => row.id ≠ id.toInt }
  | .push entry => { db with events := db.events ++ [newEventRow db (entryEvent entry)] }
  | .createProjection data type => { db with
      projections := db.projections ++
        [GrpcService.projectionRow (Sql.nextRowid (db.projections.map ProjectionRow.id)) data type] }
  | .deleteProjection id => { db with
      projections := db.projections.filter fun row => row.id ≠ id.toInt }

/-- What the store refuses the change for. -/
def Write.refusal (c : Connection) : Write → Option DbError
  | .push entry => insertError c (newEventRow c.database (entryEvent entry))
  | _ => none

/-! ## The change that a call asks for -/

def commandWrite : Cmd.Command → Option Write
  | .createStream type => some (.createStream type)
  | .deleteStream id => some (.deleteStream id)
  | .push request => some (.push (pushedOf request.toEvent))
  | .createProjection request => some (.createProjection request.data request.type)
  | .deleteProjection id => some (.deleteProjection id)
  | _ => none

def rpcWrite : GrpcService.Rpc → Option Write
  | .createStream request => some (.createStream request.type)
  | .pushEvent request => some (.push (pushedOf request.toEvent))
  | .createProjection request => some (.createProjection request.data request.type)
  | .deleteProjection request => some (.deleteProjection request.id)
  | _ => none

section

variable (J : JsonLib) {σ : Type}

/-- The action that a request names. -/
def namedAction (obj : Json) : FrontProg σ Action := do
  let actionStr ← jsonString J (← jsonAt J obj "action")
  call (Prog.ofExcept (actionFromStr actionStr))

/-- The change that a request with this action asks for. -/
def actionWrite (obj : Json) : Action → FrontProg σ (Option Write)
  | .createStream => do
      let type ← jsonString J (← jsonAt J obj "type")
      pure (some (.createStream type))
  | .pushEvent => do
      let event ← pushedEvent J obj
      pure (some (.push (pushedOf event)))
  | _ => pure none

def requestWrite (obj : Json) : FrontProg σ (Option Write) :=
  namedAction J obj >>= actionWrite J obj

def lineWrite (unset : Int32) (text : String) : FrontProg σ (Option Write) := do
  let cmd ← Cmd.interpret J unset text
  pure (commandWrite cmd)

/-- A call at one of the front ends; `unset` is what the shell finds in a variable that
it has not set. -/
inductive Call where
  | line (unset : Int32) (text : String)
  | rpc (rpc : GrpcService.Rpc)
  | json (request : Json)

/-- What a call that can be read asks for. -/
def Call.write : Call → Option Write
  | .line unset text => (lineWrite J unset text ()).value.join
  | .rpc called => rpcWrite called
  | .json request => (requestWrite J request ()).value.join

end

/-! ## What a client is told -/

def lineTold : Except FrontExn Cmd.Output → Bool
  | .ok result => result.status ≠ .error
  | .error _ => false

def rpcTold : GrpcService.RpcReply → Bool
  | .createStream reply => reply.status.status = 0
  | .pushEvent reply => reply.status.status = 0
  | .createProjection reply => reply.status.status = 0
  | .deleteProjection reply => reply.status.status = 0
  | .play reply => reply.status.status = 0
  | _ => true

def requestTold : Except FrontExn Response → Bool
  | .ok response => response.status = some .ok
  | .error _ => false

/-- A call is answered, with success or without; an exception that leaves a front end is
no success. -/
inductive FrontStep (J : JsonLib) {E : Duktape} : Handler E → Call × Bool → Handler E → Prop
  | line {h h' : Handler E} {text : String} {answer : Except FrontExn Cmd.Output} (plan : Plan)
      (unset : Int32) (hAnswer : (Cmd.runLine J plan unset text h).result = some answer)
      (hState : (Cmd.runLine J plan unset text h).state = some h') :
      FrontStep J h (.line unset text, lineTold answer) h'
  | rpc {h h' : Handler E} {rpc : GrpcService.Rpc} {reply : GrpcService.RpcReply} (plan : Plan)
      (hCall : GrpcService.call J.toJsonText plan rpc h = .returned reply h') :
      FrontStep J h (.rpc rpc, rpcTold reply) h'
  | json {h : Handler E} {c' : Connection} {request : Json} {answer : Except FrontExn Response}
      (plan : Plan) (hAnswer : (handle J plan request h.connection).result = some answer)
      (hState : (handle J plan request h.connection).state = some c') :
      FrontStep J h (.json request, requestTold answer) { h with connection := c' }

/-- What a call does to the connection, by the change that it asks for. -/
inductive CallEffect (c : Connection) : Option Write → Bool → Connection → Prop
  | nothing (told : Bool) : CallEffect c none told c
  | done (write : Write) (hAccepted : write.refusal c = none) :
      CallEffect c (some write) true { c with database := write.apply c.database }
  | refused (write : Write) (error : DbError) (hRefused : write.refusal c = some error) :
      CallEffect c (some write) false c

variable {J : JsonLib} {E : Duktape} {plan : Plan} {h h' : Handler E} {c c' : Connection}

/-! ## The gRPC service -/

theorem rpc_effect {rpc : GrpcService.Rpc} {reply : GrpcService.RpcReply}
    (hReady : h.connection.Ready)
    (hCall : GrpcService.call J.toJsonText plan rpc h = .returned reply h') :
    CallEffect h.connection (rpcWrite rpc) (rpcTold reply) h'.connection := by
  by_cases hPlay : ∃ request, rpc = .play request
  · obtain ⟨request, rfl⟩ := hPlay
    rw [(GrpcService.call_play hCall).1]
    exact .nothing _
  · have hEffect := GrpcService.call_effect hReady (fun request h => hPlay ⟨request, h⟩) hCall
    generalize hConnection : h'.connection = c' at hEffect ⊢
    cases hEffect with
    | createStream request => exact .done (.createStream request.type) rfl
    | pushed request hAccepted => exact .done (.push _) hAccepted
    | refused request error hRefused => exact .refused (.push _) error hRefused
    | createProjection request => exact .done (.createProjection request.data request.type) rfl
    | deleteProjection request => exact .done (.deleteProjection request.id) rfl
    | _ => exact .nothing _

/-! ## The shell -/

section

variable {σ : Type}

theorem stateless_tokenize (text : String) :
    Prog.Stateless (Cmd.tokenize text : FrontProg σ (List String)) (Cmd.tokenize text) := by
  unfold Cmd.tokenize
  by_cases hOverflow : Cmd.indexOverflows text = true
  · rw [if_pos hOverflow, if_pos hOverflow]
    exact Prog.stateless_abort
  · rw [if_neg hOverflow, if_neg hOverflow]
    by_cases hOpen : (Cmd.scanLine text).quoteOpen = true
    · rw [if_pos hOpen, if_pos hOpen]
      exact Prog.stateless_throw _
    · rw [if_neg hOpen, if_neg hOpen]
      exact Prog.stateless_pure _

theorem stateless_catchInvalid {usage : String} {block : FrontProg σ Cmd.Command}
    {block' : FrontProg Unit Cmd.Command} (hBlock : Prog.Stateless block block') :
    Prog.Stateless (Cmd.catchInvalid usage block) (Cmd.catchInvalid usage block') := by
  apply hBlock.tryCatch
  intro ex
  cases ex with
  | invalidArgument message => exact Prog.stateless_pure _
  | std ex => exact Prog.stateless_throw _
  | json message => exact Prog.stateless_throw _
  | outOfRange message => exact Prog.stateless_throw _

theorem stateless_initialState (init : Option String) :
    Prog.Stateless (Cmd.initialState J init : FrontProg σ Json) (Cmd.initialState J init) := by
  cases init with
  | none => exact Prog.stateless_pure _
  | some text =>
      simp only [Cmd.initialState, parseJson]
      cases J.parse text with
      | none => exact Prog.stateless_throw _
      | some value => exact Prog.stateless_pure value

theorem stateless_interpretPlayWith (unset : Int32) (projectionId target : String)
    (init : Option String) :
    Prog.Stateless (Cmd.interpretPlayWith J unset projectionId target init :
      FrontProg σ Cmd.Command) (Cmd.interpretPlayWith J unset projectionId target init) :=
  stateless_catchInvalid <| (Prog.stateless_ofExcept _).bind fun _ =>
    (stateless_initialState init).bind fun _ => Prog.stateless_pure _

theorem stateless_interpretNumber {usage text : String} (made : Int32 → Cmd.Command) :
    Prog.Stateless
      (Cmd.catchInvalid usage (do
        let n ← Prog.ofExcept (Cmd.stoi text)
        pure (made n)) : FrontProg σ Cmd.Command)
      (Cmd.catchInvalid usage (do
        let n ← Prog.ofExcept (Cmd.stoi text)
        pure (made n))) :=
  stateless_catchInvalid <| (Prog.stateless_ofExcept _).bind fun _ => Prog.stateless_pure _

/-- Making a command of the words does not look at the state. -/
theorem stateless_interpretWords (unset : Int32) (cmd : Cmd.ShellCmd) (argv : List String) :
    Prog.Stateless (Cmd.interpretWords J unset cmd argv : FrontProg σ Cmd.Command)
      (Cmd.interpretWords J unset cmd argv) := by
  cases cmd with
  | none => exact Prog.stateless_pure _
  | unknown => exact Prog.stateless_pure _
  | quit => exact Prog.stateless_pure _
  | help => exact Prog.stateless_pure _
  | createStream =>
      rcases argv with _ | ⟨type, _ | ⟨_, _⟩⟩
      all_goals exact Prog.stateless_pure _
  | deleteStream =>
      rcases argv with _ | ⟨id, _ | ⟨_, _⟩⟩
      case cons.nil => exact stateless_interpretNumber _
      all_goals exact Prog.stateless_pure _
  | push =>
      rcases argv with
        _ | ⟨streamId, _ | ⟨type, _ | ⟨payload, _ | ⟨version, _ | ⟨_, _⟩⟩⟩⟩⟩
      case cons.cons.cons.cons.nil =>
        exact stateless_catchInvalid <| (Prog.stateless_ofExcept _).bind fun _ =>
          (Prog.stateless_ofExcept _).bind fun _ => Prog.stateless_pure _
      all_goals exact Prog.stateless_pure _
  | createProjection =>
      rcases argv with _ | ⟨data, _ | ⟨type, _ | ⟨_, _⟩⟩⟩
      all_goals exact Prog.stateless_pure _
  | getStreams =>
      rcases argv with _ | ⟨type, _ | ⟨_, _⟩⟩
      all_goals exact Prog.stateless_pure _
  | getProjections =>
      rcases argv with _ | ⟨type, _ | ⟨_, _⟩⟩
      all_goals exact Prog.stateless_pure _
  | deleteProjection =>
      rcases argv with _ | ⟨id, _ | ⟨_, _⟩⟩
      case cons.nil => exact stateless_interpretNumber _
      all_goals exact Prog.stateless_pure _
  | play =>
      rcases argv with _ | ⟨projectionId, _ | ⟨target, _ | ⟨init, _ | ⟨_, _⟩⟩⟩⟩
      case cons.cons.nil => exact stateless_interpretPlayWith _ _ _ none
      case cons.cons.cons.nil => exact stateless_interpretPlayWith _ _ _ (some init)
      all_goals exact Prog.stateless_pure _

theorem stateless_interpret (unset : Int32) (text : String) :
    Prog.Stateless (Cmd.interpret J unset text : FrontProg σ Cmd.Command)
      (Cmd.interpret J unset text) :=
  ((stateless_tokenize text).bind fun _ => Prog.stateless_pure _).bind fun words =>
    stateless_interpretWords unset words.1 words.2

theorem quiet_dumpJson (value : Json) : Prog.Quiet (dumpJson J value : FrontProg σ String) := by
  unfold dumpJson
  by_cases hUtf8 : value.isUtf8 = true
  · rw [if_pos hUtf8]
    exact Prog.quiet_pure _
  · rw [if_neg hUtf8]
    exact Prog.quiet_throw _

theorem quiet_printData (data : Cmd.Data) :
    Prog.Quiet (Cmd.printData J data : FrontProg σ Unit) := by
  cases data with
  | none => exact Prog.quiet_pure _
  | null => exact Prog.quiet_pure _
  | streams streams => exact (quiet_dumpJson _).bind fun _ => Prog.quiet_pure _
  | projections projections => exact (quiet_dumpJson _).bind fun _ => Prog.quiet_pure _
  | state state => exact (quiet_dumpJson _).bind fun _ => Prog.quiet_pure _

end

/-- What is printed changes nothing. -/
theorem finish_connection {cmd : Cmd.Command}
    (hExecuted : ∀ h₁, (cmd.execute J plan h).state = some h₁ → h₁.connection = h.connection)
    (hState : (Cmd.finish J plan cmd h).state = some h') : h'.connection = h.connection := by
  rw [Cmd.finish, Prog.bind_apply] at hState
  cases hOutcome : cmd.execute J plan h with
  | returned result h₁ =>
      rw [hOutcome] at hState hExecuted
      have hQuiet : Prog.Quiet (do
          Cmd.printData J result.data
          pure result : FrontProg (Handler E) Cmd.Output) :=
        (quiet_printData result.data).bind fun _ => Prog.quiet_pure result
      rw [hQuiet h₁ h' hState]
      exact hExecuted h₁ rfl
  | threw ex h₁ =>
      rw [hOutcome] at hState hExecuted
      exact hExecuted h' hState
  | aborted =>
      rw [hOutcome] at hState
      simp at hState

/-- A command that changes the store ends by printing nothing. -/
theorem finish_of_write {cmd : Cmd.Command} {q : DbProg Cmd.Output} {result : Cmd.Output}
    (hExecute : cmd.execute J plan = (call (onConnection q) : FrontProg (Handler E) Cmd.Output))
    (hReturned : q h.connection = .returned result c)
    (hSilent : result.data = .none ∨ result.data = .null) :
    Cmd.finish J plan cmd h = .returned result { h with connection := c } := by
  apply Cmd.finish_of_executed
  · rw [hExecute]
    exact Cmd.connection_executed hReturned
  · rcases hSilent with hData | hData <;> rw [hData] <;> rfl

theorem createProjection_executed (request : Cmd.CreateProjectionReq) (hReady : c.Ready) :
    Cmd.CreateProjection.execute request c = .returned ⟨.ok, "OK", .none⟩ { c with
      database := (Write.createProjection request.data request.type).apply c.database } := by
  unfold Cmd.CreateProjection.execute
  by_cases hType : request.type = ""
  · simp only [hType, ne_eq, not_true_eq_false, if_false, Write.apply,
      GrpcService.projectionRow, if_true]
    exact Cmd.catchRuntimeError_of_returned
      (Prog.bind_of_returned (ProjectionRepo.create_apply _ hReady))
  · simp only [hType, ne_eq, not_false_eq_true, if_true, Write.apply,
      GrpcService.projectionRow, if_false]
    exact Cmd.catchRuntimeError_of_returned
      (Prog.bind_of_returned (ProjectionRepo.create_apply _ hReady))

theorem execute_play_connection {request : Cmd.PlayReq}
    (hState : (Cmd.Command.execute J plan (.play request) h).state = some h') :
    h'.connection = h.connection := by
  rw [Cmd.Command.execute_play] at hState
  cases hPlay : playProjection J.toJsonText plan request.toPlayRequest h with
  | returned state h₁ =>
      simp only [hPlay] at hState
      rw [← Option.some.inj hState]
      exact playProjection_connection (by rw [hPlay]; rfl)
  | threw err h₁ =>
      have hConnection : h₁.connection = h.connection :=
        playProjection_connection (by rw [hPlay]; rfl)
      simp only [hPlay] at hState
      by_cases hErr : err.isRuntimeError = true
      · rw [if_pos hErr] at hState
        rw [← Option.some.inj hState]
        exact hConnection
      · rw [if_neg hErr] at hState
        rw [← Option.some.inj hState]
        exact hConnection
  | aborted =>
      simp only [hPlay] at hState
      simp at hState

/-- What a command does to the connection, and whether it says so. -/
theorem finish_effect (cmd : Cmd.Command) {answer : Except FrontExn Cmd.Output}
    (hReady : h.connection.Ready) (hAnswer : (Cmd.finish J plan cmd h).result = some answer)
    (hState : (Cmd.finish J plan cmd h).state = some h') :
    CallEffect h.connection (commandWrite cmd) (lineTold answer) h'.connection := by
  -- A command that only reads leaves the connection as it is.
  have hRead : commandWrite cmd = none →
      (∀ h₁, (cmd.execute J plan h).state = some h₁ → h₁.connection = h.connection) →
      CallEffect h.connection (commandWrite cmd) (lineTold answer) h'.connection := by
    intro hNone hExecuted
    rw [hNone, finish_connection hExecuted hState]
    exact .nothing _
  have hWrite : ∀ result h₁, Cmd.finish J plan cmd h = .returned result h₁ →
      answer = .ok result ∧ h' = h₁ := by
    intro result h₁ hFinish
    rw [hFinish] at hAnswer hState
    exact ⟨(Option.some.inj hAnswer).symm, (Option.some.inj hState).symm⟩
  cases cmd with
  | createStream type =>
      obtain ⟨rfl, rfl⟩ := hWrite _ _ (finish_of_write rfl
        (Cmd.CreateStream.execute_apply type hReady) (Or.inr rfl))
      exact .done (.createStream type) rfl
  | deleteStream id =>
      obtain ⟨rfl, rfl⟩ := hWrite _ _ (finish_of_write rfl
        (Cmd.DeleteStream.execute_apply id hReady) (Or.inr rfl))
      exact .done (.deleteStream id) rfl
  | push request =>
      have hPush := Cmd.Push.execute_apply request hReady
      cases hError : insertError h.connection
          (newEventRow h.connection.database request.toEvent) with
      | none =>
          simp only [hError] at hPush
          obtain ⟨rfl, rfl⟩ := hWrite _ _ (finish_of_write rfl hPush (Or.inl rfl))
          exact .done (.push _) hError
      | some error =>
          simp only [hError] at hPush
          obtain ⟨rfl, rfl⟩ := hWrite _ _ (finish_of_write rfl hPush (Or.inr rfl))
          exact .refused (.push _) error hError
  | createProjection request =>
      obtain ⟨rfl, rfl⟩ := hWrite _ _ (finish_of_write rfl
        (createProjection_executed request hReady) (Or.inl rfl))
      exact .done (.createProjection request.data request.type) rfl
  | deleteProjection id =>
      obtain ⟨rfl, rfl⟩ := hWrite _ _ (finish_of_write rfl
        (Cmd.DeleteProjection.execute_apply id hReady) (Or.inr rfl))
      exact .done (.deleteProjection id) rfl
  | getStreams type =>
      refine hRead rfl fun h₁ hExecuted => ?_
      have hReturned := @Cmd.connection_executed E h _ _ _
        (Cmd.GetStreams.execute_apply type hReady)
      rw [Cmd.Command.execute, hReturned] at hExecuted
      rw [← Option.some.inj hExecuted]
  | getProjections type =>
      refine hRead rfl fun h₁ hExecuted => ?_
      have hReturned := @Cmd.connection_executed E h _ _ _
        (Cmd.GetProjections.execute_apply type hReady)
      rw [Cmd.Command.execute, hReturned] at hExecuted
      rw [← Option.some.inj hExecuted]
  | play request => exact hRead rfl fun h₁ hExecuted => execute_play_connection hExecuted
  | none => exact hRead rfl fun h₁ hExecuted => by rw [← Option.some.inj hExecuted]
  | unknown => exact hRead rfl fun h₁ hExecuted => by rw [← Option.some.inj hExecuted]
  | quit => exact hRead rfl fun h₁ hExecuted => by rw [← Option.some.inj hExecuted]
  | help => exact hRead rfl fun h₁ hExecuted => by rw [← Option.some.inj hExecuted]
  | invalid usage => exact hRead rfl fun h₁ hExecuted => by rw [← Option.some.inj hExecuted]

theorem line_effect {unset : Int32} {text : String} {answer : Except FrontExn Cmd.Output}
    (hReady : h.connection.Ready)
    (hAnswer : (Cmd.runLine J plan unset text h).result = some answer)
    (hState : (Cmd.runLine J plan unset text h).state = some h') :
    CallEffect h.connection (Call.write J (.line unset text)) (lineTold answer) h'.connection := by
  rcases (stateless_interpret unset text).bind_cases (Cmd.finish J plan) h with
    ⟨cmd, hInterpret, hFinish⟩ | ⟨hNone, hStays⟩
  · have hWrite : Call.write J (.line unset text) = commandWrite cmd := by
      rw [Call.write, lineWrite, Prog.bind_of_returned hInterpret]
      rfl
    have hLine : Cmd.runLine J plan unset text h = Cmd.finish J plan cmd h := hFinish
    rw [hLine] at hAnswer hState
    rw [hWrite]
    exact finish_effect cmd hReady hAnswer hState
  · have hWrite : Call.write J (.line unset text) = none := by
      rw [Call.write, lineWrite, Prog.value_bind_of_none hNone]
      rfl
    rw [hWrite, hStays h' hState]
    exact .nothing _

/-! ## The JSON entry point -/

section

variable {σ : Type}

theorem stateless_namedAction (obj : Json) :
    Prog.Stateless (namedAction J obj : FrontProg σ Action) (namedAction J obj) :=
  (stateless_jsonAt J obj "action").bind fun value =>
    (stateless_jsonString J value).bind fun text =>
      (Prog.stateless_ofExcept (actionFromStr text)).mapError FrontExn.std

theorem stateless_type (obj : Json) :
    Prog.Stateless
      (do jsonString J (← jsonAt J obj "type") : FrontProg σ String)
      (do jsonString J (← jsonAt J obj "type")) :=
  (stateless_jsonAt J obj "type").bind fun value => stateless_jsonString J value

end

theorem quiet_of_reads {α : Type} {p : DbProg α} (hReads : Reads p) :
    Prog.Quiet (call p : FrontProg Connection α) := by
  apply Prog.Quiet.mapError
  intro c₁ c₂ hState
  rcases hReads c₁ with ⟨a, hReturned⟩ | ⟨error, hThrew⟩
  · rw [hReturned] at hState
    exact (Option.some.inj hState).symm
  · rw [hThrew] at hState
    exact (Option.some.inj hState).symm

theorem quiet_eventsReply {read : DbProg (List Event)} (hReads : Reads read) :
    Prog.Quiet (eventsReply J read) := by
  refine Prog.Quiet.tryCatch ?_ fun ex => Prog.quiet_pure _
  refine (quiet_of_reads hReads).bind fun events => ?_
  refine (Prog.quiet_mapM (fun event => ?_) events).bind fun arr => Prog.quiet_pure _
  refine Prog.Quiet.bind ?_ fun payload => Prog.quiet_pure _
  unfold parseJson
  cases J.parse event.payload with
  | none => exact Prog.quiet_throw _
  | some value => exact Prog.quiet_pure value

/-- What is left of `handle` once the action is known. -/
def answerAction (J : JsonLib) (plan : Plan) (obj : Json) (action : Action) :
    FrontProg Connection Response := do
  let reply ← runAction J plan obj action
  let msg ← dumpJson J reply.2
  pure ⟨reply.1, msg⟩

theorem handle_eq (obj : Json) :
    handle J plan obj = namedAction J obj >>= answerAction J plan obj := by
  simp only [handle, namedAction, bind_assoc]
  rfl

/-- A request that asks for a change reads its fields, makes the change and says so. -/
theorem effect_of_fields {α : Type} {fields : FrontProg Connection α}
    {fields' : FrontProg Unit α} {change : α → DbProg Unit} (asked : α → Write)
    {answer : Except FrontExn Response} (hFields : Prog.Stateless fields fields')
    (hChange : ∀ a, change a c = match (asked a).refusal c with
      | some error => .threw (.runtimeError ("DB ERROR: " ++ error.what)) c
      | none => .returned () { c with database := (asked a).apply c.database })
    (hAnswer : ((do
      let a ← fields
      call (change a)
      pure ⟨okReply.1, J.dump okReply.2⟩ : FrontProg Connection Response) c).result = some answer)
    (hState : ((do
      let a ← fields
      call (change a)
      pure ⟨okReply.1, J.dump okReply.2⟩ : FrontProg Connection Response) c).state = some c') :
    CallEffect c ((do let a ← fields'; pure (some (asked a)) : FrontProg Unit _) ()).value.join
      (requestTold answer) c' := by
  rcases hFields.bind_cases (fun a => do
      call (change a)
      pure ⟨okReply.1, J.dump okReply.2⟩ : α → FrontProg Connection Response) c with
    ⟨a, hRead, hRest⟩ | ⟨hNone, hStays⟩
  · rw [hRest] at hAnswer hState
    rw [Prog.bind_of_returned hRead]
    have hChange' := hChange a
    cases hRefusal : (asked a).refusal c with
    | none =>
        rw [hRefusal] at hChange'
        rw [Prog.bind_of_returned (call_of_returned hChange')] at hAnswer hState
        rw [← Option.some.inj hAnswer, ← Option.some.inj hState]
        exact .done (asked a) hRefusal
    | some error =>
        rw [hRefusal] at hChange'
        rw [Prog.bind_of_threw (call_of_threw hChange')] at hAnswer hState
        rw [← Option.some.inj hAnswer, ← Option.some.inj hState]
        exact .refused (asked a) error hRefusal
  · rw [Prog.value_bind_of_none hNone, hStays c' hState]
    exact .nothing _

/-- What an action does to the connection, and whether its client is told so. -/
theorem action_effect {obj : Json} (action : Action) {answer : Except FrontExn Response}
    (hReady : c.Ready) (hAnswer : (answerAction J plan obj action c).result = some answer)
    (hState : (answerAction J plan obj action c).state = some c') :
    CallEffect c (actionWrite J obj action ()).value.join (requestTold answer) c' := by
  have hRead : Prog.Quiet (runAction J plan obj action) → c' = c := fun hQuiet =>
    (hQuiet.bind fun reply => (quiet_dumpJson reply.2).bind fun msg => Prog.quiet_pure _)
      c c' hState
  cases action with
  | createStream =>
      have hAction : answerAction J plan obj .createStream = (do
          let type ← (do jsonString J (← jsonAt J obj "type"))
          call (saveStream ⟨0, type, 0⟩)
          pure ⟨okReply.1, J.dump okReply.2⟩) := by
        simp only [answerAction, runAction, bind_assoc, pure_bind,
          dumpJson_of_utf8 J okReply_isUtf8]
      rw [hAction] at hAnswer hState
      have hWrite : actionWrite J obj .createStream = (do
          let type ← (do jsonString J (← jsonAt J obj "type"))
          pure (some (Write.createStream type)) : FrontProg Unit _) := by
        simp only [actionWrite, bind_assoc]
      rw [hWrite]
      exact effect_of_fields .createStream (stateless_type obj)
        (fun type => create_apply ⟨0, type, 0⟩ hReady) hAnswer hState
  | pushEvent =>
      have hAction : answerAction J plan obj .pushEvent = (do
          let event ← pushedEvent J obj
          call (pushEvent event.streamId event)
          pure ⟨okReply.1, J.dump okReply.2⟩) := by
        simp only [answerAction, runAction, bind_assoc, pure_bind,
          dumpJson_of_utf8 J okReply_isUtf8]
      rw [hAction] at hAnswer hState
      exact effect_of_fields (fun event => .push (pushedOf event))
        (stateless_pushedEvent J obj)
        (fun event => pushEvent_apply event.streamId event hReady) hAnswer hState
  | getAllStreams =>
      rw [hRead ((quiet_of_reads ((reads_requireTable _ _).bind fun _ => reads_get.bind fun _ =>
        reads_pure _)).bind fun streams => Prog.quiet_pure _)]
      exact .nothing _
  | getEventsByStreamId =>
      rw [hRead ((stateless_jsonAt J obj "id").quiet.bind fun value =>
        (stateless_jsonInt J value).quiet.bind fun streamId =>
          quiet_eventsReply (reads_loadEvents plan (.id streamId)))]
      exact .nothing _
  | getEventsByStreamType =>
      rw [hRead ((stateless_jsonAt J obj "type").quiet.bind fun value =>
        (stateless_jsonString J value).quiet.bind fun type =>
          quiet_eventsReply (reads_loadEvents plan (.type type)))]
      exact .nothing _
  | getStreamsByType =>
      rw [hRead (Prog.quiet_pure _)]
      exact .nothing _
  | getStream =>
      rw [hRead (Prog.quiet_pure _)]
      exact .nothing _
  | createProjection =>
      rw [hRead (Prog.quiet_pure _)]
      exact .nothing _
  | none =>
      rw [hRead (Prog.quiet_pure _)]
      exact .nothing _

theorem json_effect {request : Json} {answer : Except FrontExn Response} (hReady : c.Ready)
    (hAnswer : (handle J plan request c).result = some answer)
    (hState : (handle J plan request c).state = some c') :
    CallEffect c (Call.write J (.json request)) (requestTold answer) c' := by
  rw [handle_eq] at hAnswer hState
  rcases (stateless_namedAction request).bind_cases (answerAction J plan request) c with
    ⟨action, hNamed, hAction⟩ | ⟨hNone, hStays⟩
  · have hWrite : Call.write J (.json request) =
        (actionWrite J request action ()).value.join := by
      rw [Call.write, requestWrite, Prog.bind_of_returned hNamed]
    rw [hAction] at hAnswer hState
    rw [hWrite]
    exact action_effect action hReady hAnswer hState
  · have hWrite : Call.write J (.json request) = none := by
      rw [Call.write, requestWrite, Prog.value_bind_of_none hNone]
      rfl
    rw [hWrite, hStays c' hState]
    exact .nothing _

/-! ## Every front end -/

/-- A change takes effect exactly when its client is told so, and nothing else changes the
tables. -/
theorem frontStep_effect {call : Call} {told : Bool} (hReady : h.connection.Ready)
    (hStep : FrontStep J h (call, told) h') :
    CallEffect h.connection (call.write J) told h'.connection := by
  cases hStep with
  | line plan unset hAnswer hState => exact line_effect hReady hAnswer hState
  | rpc plan hCall => exact rpc_effect hReady hCall
  | json plan hAnswer hState => exact json_effect hReady hAnswer hState

theorem CallEffect.historyInvariant {asked : Option Write} {told : Bool}
    (hEffect : CallEffect c asked told c') (hInv : HistoryInvariant c) : HistoryInvariant c' := by
  cases hEffect with
  | nothing told => exact hInv
  | done write hAccepted =>
      cases write with
      | createStream type => exact (StoreEffect.created type).historyInvariant hInv
      | deleteStream id => exact (StoreEffect.deleted id).historyInvariant hInv
      | push entry =>
          exact (StoreEffect.pushed entry.streamId (entryEvent entry)
            hAccepted).historyInvariant hInv
      | createProjection data type =>
          exact (ProjectionEffect.created (.createProjection data) _ _).historyInvariant hInv
      | deleteProjection id => exact (ProjectionEffect.deleted id).historyInvariant hInv
  | refused write error hRefused => exact hInv

/-! ## Histories of calls -/

inductive HistoryLabel where
  | called (call : Call) (told : Bool)
  | restarted

/-- A call at one of the front ends, or the next process, which opens the file again and
starts with a context of its own. -/
inductive HistoryStep (J : JsonLib) {E : Duktape} : Handler E → HistoryLabel → Handler E → Prop
  | called {h h' : Handler E} {call : Call} {told : Bool} (hStep : FrontStep J h (call, told) h') :
      HistoryStep J h (.called call told) h'
  | restarted {h : Handler E} {c' : Connection}
      (hInit : initDb (some h.connection.database) = .returned () c') :
      HistoryStep J h .restarted ⟨c', DukContext.fresh E⟩

/-- What the store itself sees of a history. -/
inductive Demand where
  | change (write : Write)
  | reopen
  deriving DecidableEq

/-- A connection, and what the clients that asked for changes were told. -/
structure Served where
  connection : Connection
  answers : List Bool

def Served.next (served : Served) : Demand → Served
  | .change write =>
      match write.refusal served.connection with
      | none =>
          { connection := { served.connection with
              database := write.apply served.connection.database }
            answers := served.answers ++ [true] }
      | some _ => { served with answers := served.answers ++ [false] }
  -- A file that is there is opened without the pragma.
  | .reopen => { served with connection := ⟨served.connection.database, false, none⟩ }

section

variable (J)

def HistoryLabel.demand : HistoryLabel → Option Demand
  | .called call _ => (call.write J).map .change
  | .restarted => some .reopen

/-- What a client is told, if it asked for a change. -/
def HistoryLabel.answer : HistoryLabel → Option Bool
  | .called call told => (call.write J).map fun _ => told
  | .restarted => none

def HistoryLabel.acknowledged : HistoryLabel → Option Write
  | .called call told => if told then call.write J else none
  | .restarted => none

end

theorem HistoryStep.historyInvariant {label : HistoryLabel} (hInv : HistoryInvariant h.connection)
    (hStep : HistoryStep J h label h') : HistoryInvariant h'.connection := by
  cases hStep with
  | called hStep => exact (frontStep_effect hInv.store.ready hStep).historyInvariant hInv
  | restarted hInit => exact (ActivityStep.restart hInit).historyInvariant hInv

/-- A step serves what it asks of the store. -/
theorem HistoryStep.served {label : HistoryLabel} (hInv : HistoryInvariant h.connection)
    (hStep : HistoryStep J h label h') (labels : List HistoryLabel) :
    Served.mk h'.connection ((labels ++ [label]).filterMap (HistoryLabel.answer J)) =
      (label.demand J).elim ⟨h.connection, labels.filterMap (HistoryLabel.answer J)⟩
        (Served.next ⟨h.connection, labels.filterMap (HistoryLabel.answer J)⟩) := by
  rw [List.filterMap_append]
  cases hStep with
  | @called _ call told hStep =>
      have hEffect := frontStep_effect hInv.store.ready hStep
      simp only [HistoryLabel.demand, HistoryLabel.answer, List.filterMap_cons, List.filterMap_nil]
      generalize call.write J = asked at hEffect ⊢
      generalize h'.connection = c' at hEffect ⊢
      cases hEffect with
      | nothing told => simp
      | done write hAccepted => simp [Served.next, hAccepted]
      | refused write error hRefused => simp [Served.next, hRefused]
  | restarted hInit =>
      rw [eq_of_initDb_some hInit]
      simp [HistoryLabel.demand, HistoryLabel.answer, Served.next]

/-- A step changes the tables by what it acknowledges. -/
theorem HistoryStep.database_eq {label : HistoryLabel} (hInv : HistoryInvariant h.connection)
    (hStep : HistoryStep J h label h') :
    h'.connection.database = (label.acknowledged J).elim h.connection.database
      (Write.apply h.connection.database) := by
  cases hStep with
  | @called _ call told hStep =>
      have hEffect := frontStep_effect hInv.store.ready hStep
      simp only [HistoryLabel.acknowledged]
      generalize call.write J = asked at hEffect ⊢
      generalize h'.connection = c' at hEffect ⊢
      cases hEffect with
      | nothing told => cases told <;> rfl
      | done write hAccepted => rfl
      | refused write error hRefused => rfl
  | restarted hInit =>
      rw [eq_of_initDb_some hInit]
      rfl

section

variable {context : Context E} {labels : List HistoryLabel} {c₀ : Connection}

/-- The store by itself gives the answers of a history and ends where it ends. -/
theorem served_of_run (hInit : initDb none = .returned () c₀)
    (hRun : Run (HistoryStep J) ⟨c₀, context⟩ labels h) :
    Served.mk h.connection (labels.filterMap (HistoryLabel.answer J)) =
      (labels.filterMap (HistoryLabel.demand J)).foldl Served.next ⟨c₀, []⟩ := by
  obtain rfl := eq_of_initDb_none hInit
  exact hRun.read_eq_foldl (fun h => HistoryInvariant h.connection)
    (fun labels h => ⟨h.connection, labels.filterMap (HistoryLabel.answer J)⟩) Served.next
    (HistoryLabel.demand J) freshConnection_historyInvariant
    (fun _ _ _ hInv hStep => hStep.historyInvariant hInv)
    fun labels _ _ _ hInv hStep => hStep.served hInv labels

end

/-! ## A stream and its first event, by two ways -/

def createByRpc : HistoryLabel := .called (.rpc (.createStream ⟨"User"⟩)) true

def pushByRpc : HistoryLabel := .called (.rpc (.pushEvent GrpcService.firstPush)) true

theorem rpc_run :
    Run (HistoryStep Compact.jsonLib) Cmd.freshHandler [createByRpc, pushByRpc]
      GrpcService.oneEventHandler := by
  have hCreate : FrontStep Compact.jsonLib Cmd.freshHandler
      (.rpc (.createStream ⟨"User"⟩), rpcTold (.createStream ⟨⟨0, "OK"⟩⟩))
      GrpcService.oneStreamHandler := .rpc samplePlan rfl
  have hPush : FrontStep Compact.jsonLib GrpcService.oneStreamHandler
      (.rpc (.pushEvent GrpcService.firstPush), rpcTold (.pushEvent ⟨⟨0, "OK"⟩⟩))
      GrpcService.oneEventHandler := .rpc samplePlan rfl
  exact (Run.single (.called hCreate)).tail (.called hPush)

def createArgs : List (Cmd.Style × String) := [(.bare, "create_stream"), (.double, "User")]

def createByLine : HistoryLabel := .called (.line 0 (Cmd.writeLine createArgs)) true

theorem createStream_expressible :
    (Cmd.Command.createStream "User").Expressible Compact.jsonLib := trivial

theorem createArgs_written :
    Cmd.WrittenAs Compact.jsonLib (.createStream "User") createArgs :=
  ⟨by decide +kernel, by decide +kernel, by decide +kernel⟩

def firstPushJson : Json :=
  .object [("action", .string "PushEvent"), ("payload", .string "{}"), ("streamId", .integer 1),
    ("type", .string "UserCreated"), ("version", .integer 1)]

def pushByJson : HistoryLabel := .called (.json firstPushJson) true

theorem firstPushJson_handled :
    handle Compact.jsonLib samplePlan firstPushJson
      GrpcService.oneStreamHandler.connection =
        .returned ⟨okReply.1, Compact.jsonLib.dump okReply.2⟩ oneEventConnection := by
  decide +kernel

theorem createByLine_write :
    Call.write Compact.jsonLib (.line 0 (Cmd.writeLine createArgs)) =
      some (.createStream "User") := by
  have hInterpret := Cmd.interpret_written 0 createStream_expressible createArgs_written ()
  rw [Call.write, lineWrite, Prog.bind_of_returned hInterpret]
  rfl

theorem pushByJson_write :
    Call.write Compact.jsonLib (.json firstPushJson) =
      some (.push ⟨1, "UserCreated", "{}", 1⟩) := by
  decide +kernel

theorem mixed_run :
    Run (HistoryStep Compact.jsonLib) Cmd.freshHandler [createByLine, pushByJson]
      GrpcService.oneEventHandler := by
  have hLine : Cmd.runLine Compact.jsonLib samplePlan 0 (Cmd.writeLine createArgs)
      Cmd.freshHandler = .returned ⟨.ok, "OK", .null⟩ GrpcService.oneStreamHandler := by
    rw [Cmd.runLine_written samplePlan 0 createStream_expressible createArgs_written]
    rfl
  have hCreate : HistoryStep Compact.jsonLib Cmd.freshHandler createByLine
      GrpcService.oneStreamHandler :=
    .called (.line samplePlan 0 (by rw [hLine]; rfl) (by rw [hLine]; rfl))
  have hPush : HistoryStep Compact.jsonLib GrpcService.oneStreamHandler pushByJson
      GrpcService.oneEventHandler :=
    .called (.json samplePlan (by rw [firstPushJson_handled]; rfl)
      (by rw [firstPushJson_handled]; rfl))
  exact (Run.single hCreate).tail hPush

/-! ## What the file holds -/

section

variable {context : Context E} {labels : List HistoryLabel} {c₀ : Connection}

/-- From the first `init_db` on, and over every restart, the file holds what the changes that
clients were told of make of the empty tables, in their order: no change is lost, none is made
twice, and none is made that its client was not told of. -/
theorem file_eq_acknowledged (hInit : initDb none = .returned () c₀)
    (hRun : Run (HistoryStep J) ⟨c₀, context⟩ labels h) :
    h.connection.database =
      (labels.filterMap (HistoryLabel.acknowledged J)).foldl Write.apply c₀.database := by
  obtain rfl := eq_of_initDb_none hInit
  exact hRun.read_eq_foldl (fun h => HistoryInvariant h.connection)
    (fun _ h => h.connection.database) Write.apply (HistoryLabel.acknowledged J)
    freshConnection_historyInvariant (fun _ _ _ hInv hStep => hStep.historyInvariant hInv)
    fun _ _ _ _ hInv hStep => hStep.database_eq hInv

theorem file_eq_acknowledged_mixed :
    oneEventConnection.database =
      [Write.createStream "User", .push ⟨1, "UserCreated", "{}", 1⟩].foldl Write.apply
        freshConnection.database := by
  have hAcknowledged : [createByLine, pushByJson].filterMap
      (HistoryLabel.acknowledged Compact.jsonLib) =
        [Write.createStream "User", .push ⟨1, "UserCreated", "{}", 1⟩] := by
    simp only [createByLine, pushByJson, List.filterMap_cons, List.filterMap_nil,
      HistoryLabel.acknowledged, createByLine_write, pushByJson_write, if_true]
  rw [← hAcknowledged]
  exact file_eq_acknowledged initDb_none mixed_run

/-- Two histories that ask for the same changes, with the restarts in the same places, are
answered the same and end on the same connection, whatever front ends the changes go through,
whatever is read in between, and whichever engines run the projections. -/
theorem front_ends_agree {E' : Duktape} {context' : Context E'} {labels' : List HistoryLabel}
    {h' : Handler E'} (hInit : initDb none = .returned () c₀)
    (hRun : Run (HistoryStep J) ⟨c₀, context⟩ labels h)
    (hRun' : Run (HistoryStep J) ⟨c₀, context'⟩ labels' h')
    (hSame : labels.filterMap (HistoryLabel.demand J) =
      labels'.filterMap (HistoryLabel.demand J)) :
    labels.filterMap (HistoryLabel.answer J) = labels'.filterMap (HistoryLabel.answer J) ∧
      h.connection = h'.connection := by
  have hServed := served_of_run hInit hRun
  rw [hSame, ← served_of_run hInit hRun', Served.mk.injEq] at hServed
  exact ⟨hServed.2, hServed.1⟩

theorem front_ends_agree_two_ways :
    [createByRpc, pushByRpc].filterMap (HistoryLabel.answer Compact.jsonLib) =
      [createByLine, pushByJson].filterMap (HistoryLabel.answer Compact.jsonLib) ∧
    GrpcService.oneEventHandler.connection = GrpcService.oneEventHandler.connection := by
  refine front_ends_agree initDb_none rpc_run mixed_run ?_
  simp only [createByLine, pushByJson, List.filterMap_cons, List.filterMap_nil,
    HistoryLabel.demand, createByLine_write, pushByJson_write]
  rfl

end

end FrontEnds
end Yess

import Yess.Cmd.DomainCommands
import Yess.Cmd.Numerals
import Yess.Cmd.Tokenizer
import Yess.Handler.Handle

namespace Yess
namespace Cmd

open Foundation Db Ext ActionHandler

/-!
# The shell

A line is cut into words, the words are made a command, the command is executed, and
what its result carries is printed.  Exceptions can come from each of the four, and
there is no `try` around them in `Shell::run`.
-/

/-- `Shell_cmd`. -/
inductive ShellCmd where
  | none
  | unknown
  | quit
  | help
  | createStream
  | deleteStream
  | push
  | play
  | createProjection
  | getStreams
  | getProjections
  | deleteProjection
  deriving DecidableEq

/-- The command that a first word names. -/
def shellCmdOf (first : String) : ShellCmd :=
  if first = "help" then .help
  else if first = "push" then .push
  else if first = "create_stream" then .createStream
  else if first = "delete_stream" then .deleteStream
  else if first = "create_projection" then .createProjection
  else if first = "get_streams" then .getStreams
  else if first = "get_projections" then .getProjections
  else if first = "delete_projection" then .deleteProjection
  else if first = "play" then .play
  else if first = "quit" then .quit
  else .unknown

/-- What `Shell::tokens` makes of the words. -/
def commandWords : List String → ShellCmd × List String
  | [] => (.none, [])
  | first :: argv => (shellCmdOf first, argv)

/-- `Shell::tokens`. -/
def tokens {σ : Type} (line : String) : FrontProg σ (ShellCmd × List String) := do
  let words ← tokenize line
  pure (commandWords words)

/-! ## Commands -/

inductive Command where
  | none
  | unknown
  | quit
  | help
  | invalid (usage : String)
  | createStream (type : String)
  | deleteStream (id : Int32)
  | push (request : PushReq)
  | createProjection (request : CreateProjectionReq)
  | getStreams (type : String)
  | getProjections (type : String)
  | deleteProjection (id : Int32)
  | play (request : PlayReq)

section

variable (J : JsonLib) {σ : Type}

/-- A `try` block that makes a command, and the `catch` clause after it, for
`std::invalid_argument`. -/
def catchInvalid (usage : String) (block : FrontProg σ Command) : FrontProg σ Command :=
  Prog.tryCatch block fun ex =>
    match ex with
    | .invalidArgument _ => pure (.invalid usage)
    | ex => Prog.throw ex

def interpretDeleteStream : List String → FrontProg σ Command
  | [id] => catchInvalid DeleteStream.usage do
      let id ← Prog.ofExcept (stoi id)
      pure (.deleteStream id)
  | _ => pure (.invalid DeleteStream.usage)

def interpretPush : List String → FrontProg σ Command
  | [streamId, type, payload, version] => catchInvalid Push.usage do
      let streamId ← Prog.ofExcept (stoi streamId)
      let version ← Prog.ofExcept (stoi version)
      pure (.push ⟨streamId, type, payload, version⟩)
  | _ => pure (.invalid Push.usage)

def interpretDeleteProjection : List String → FrontProg σ Command
  | [id] => catchInvalid DeleteProjection.usage do
      let id ← Prog.ofExcept (stoi id)
      pure (.deleteProjection id)
  | _ => pure (.invalid DeleteProjection.usage)

/-- The request of a play.  A target in which `stoi` finds a number is a stream id, any
other one a type; an empty type leaves the id to what `unset` happens to hold. -/
def playReq (unset projectionId : Int32) (target : String) (init : Json) : PlayReq :=
  match stoi target with
  | .ok streamId => { projectionId, streamId, init }
  | .error _ =>
      if target = "" then { projectionId, streamId := unset, init }
      else { projectionId, type := target, init }

/-- The initial state of a play: an object where none is given. -/
def initialState : Option String → FrontProg σ Json
  | some text => parseJson J text
  | none => pure (.object [])

def interpretPlayWith (unset : Int32) (projectionId target : String) (init : Option String) :
    FrontProg σ Command :=
  catchInvalid Play.usage do
    let projectionId ← Prog.ofExcept (stoi projectionId)
    let init ← initialState J init
    pure (.play (playReq unset projectionId target init))

def interpretPlay (unset : Int32) : List String → FrontProg σ Command
  | [projectionId, target] => interpretPlayWith J unset projectionId target none
  | [projectionId, target, init] => interpretPlayWith J unset projectionId target (some init)
  | _ => pure (.invalid Play.usage)

/-- The `switch` of `Shell::interpret`. -/
def interpretWords (unset : Int32) : ShellCmd → List String → FrontProg σ Command
  | .none, _ => pure .none
  | .unknown, _ => pure .unknown
  | .quit, _ => pure .quit
  | .help, _ => pure .help
  | .createStream, argv =>
      match argv with
      | [type] => pure (.createStream type)
      | _ => pure (.invalid CreateStream.usage)
  | .deleteStream, argv => interpretDeleteStream argv
  | .push, argv => interpretPush argv
  | .createProjection, argv =>
      match argv with
      | [data] => pure (.createProjection { data })
      | [data, type] => pure (.createProjection { data, type })
      | _ => pure (.invalid CreateProjection.usage)
  | .getStreams, argv =>
      match argv with
      | [] => pure (.getStreams "")
      | [type] => pure (.getStreams type)
      | _ => pure (.invalid GetStreams.usage)
  | .getProjections, argv =>
      match argv with
      | [] => pure (.getProjections "")
      | [type] => pure (.getProjections type)
      | _ => pure (.invalid GetProjections.usage)
  | .deleteProjection, argv => interpretDeleteProjection argv
  | .play, argv => interpretPlay J unset argv

/-- `Shell::interpret`.  `unset` is what the variable for the stream id holds before it
is assigned. -/
def interpret (unset : Int32) (line : String) : FrontProg σ Command := do
  let words ← tokens line
  interpretWords J unset words.1 words.2

end

/-! ## Interpreting a play -/

section

variable {J : JsonLib} {σ : Type} {init : Option String}

/-- The initial state that the text gives. -/
def initialValue (J : JsonLib) : Option String → Option Json
  | some text => J.parse text
  | none => some (.object [])

theorem initialState_of_some {value : Json}
    (hValue : initialValue J init = some value) :
    (initialState J init : FrontProg σ Json) = pure value := by
  cases init with
  | some text =>
      rw [initialState, parseJson]
      simp only [initialValue] at hValue
      rw [hValue]
  | none => rw [← Option.some.inj hValue, initialState]

theorem initialState_of_none (hValue : initialValue J init = none) :
    ∃ message, (initialState J init : FrontProg σ Json) = throwJson message := by
  cases init with
  | some text =>
      rw [initialState, parseJson]
      simp only [initialValue] at hValue
      exact ⟨J.parseError text, by rw [hValue]⟩
  | none => simp [initialValue] at hValue

theorem playReq_init (unset n : Int32) (target : String) (value : Json) :
    (playReq unset n target value).init = value := by
  unfold playReq
  cases stoi target with
  | ok streamId => rfl
  | error ex =>
      by_cases hTarget : target = ""
      · simp only [if_pos hTarget]
      · simp only [if_neg hTarget]

/-- With a number and a text of JSON the words are a play. -/
theorem interpretPlay_eq (unset : Int32) {projectionId : String} (target : String) {n : Int32}
    {value : Json} (hNumber : stoi projectionId = .ok n)
    (hValue : initialValue J init = some value) :
    (interpretPlay J unset (projectionId :: target :: init.toList) : FrontProg σ Command) =
      pure (.play (playReq unset n target value)) := by
  have hWith : (interpretPlay J unset (projectionId :: target :: init.toList) :
      FrontProg σ Command) = interpretPlayWith J unset projectionId target init := by
    cases init with
    | some text => rfl
    | none => rfl
  rw [hWith, interpretPlayWith, hNumber, initialState_of_some hValue]
  rfl

end

/-! ## Execution -/

/-- One line of the help: `"%-25s%s"`. -/
def helpLine (entry : String × String) : String :=
  entry.1 ++ String.ofList (List.replicate (25 - entry.1.length) ' ') ++ entry.2

def helpMessage : String :=
  String.intercalate "\n" <| [
    ("help", "show this help message"),
    ("quit", "leave the interactive shell"),
    (Push.usage, "push event into stream"),
    (CreateStream.usage, "create a new event stream"),
    (DeleteStream.usage, "delete an event stream by ID"),
    (CreateProjection.usage, "create a new projection"),
    (GetStreams.usage, "list streams"),
    (GetProjections.usage, "list projections"),
    (DeleteProjection.usage, "delete the specified projection"),
    (Play.usage, "play projection")].map helpLine

variable (J : JsonLib) {E : Duktape}

/-- `Command::execute` of the commands. -/
def Command.execute (plan : Plan) : Command → FrontProg (Handler E) Output
  | .none => pure ⟨.ok, "", .none⟩
  | .unknown => pure ⟨.error, "Unknown command. Enter 'help' for usage hints.", .none⟩
  | .quit => pure ⟨.exit, "Bye!", .none⟩
  | .help => pure ⟨.ok, helpMessage, .none⟩
  | .invalid usage => pure ⟨.error, "Invalid command.\nUsage: " ++ usage, .none⟩
  | .createStream type => call (onConnection (CreateStream.execute type))
  | .deleteStream id => call (onConnection (DeleteStream.execute id))
  | .push request => call (onConnection (Push.execute request))
  | .createProjection request => call (onConnection (CreateProjection.execute request))
  | .getStreams type => call (onConnection (GetStreams.execute type))
  | .getProjections type => call (onConnection (GetProjections.execute type))
  | .deleteProjection id => call (onConnection (DeleteProjection.execute id))
  | .play request => do
      let result ← call (Play.execute J.toJsonText plan request)
      pure result.output

/-- Print the data of a result: lists of streams and of projections, and states, as
JSON. -/
def printData {σ : Type} : Data → FrontProg σ Unit
  | .none => pure ()
  | .null => pure ()
  | .streams streams => do
      let _ ← dumpJson J (.array (streams.map Stream.json))
      pure ()
  | .projections projections => do
      let _ ← dumpJson J (.array (projections.map Projection.json))
      pure ()
  | .state state => do
      let _ ← dumpJson J state
      pure ()

/-- What `play` comes to. -/
theorem Command.execute_play (plan : Plan) (request : PlayReq) (h : Handler E) :
    Command.execute J plan (.play request) h =
      match playProjection J.toJsonText plan request.toPlayRequest h with
      | .returned state h' => .returned ⟨.ok, "OK", .state state⟩ h'
      | .threw err h' =>
          if err.isRuntimeError then .returned ⟨.error, err.what, .null⟩ h'
          else .threw (.std err) h'
      | .aborted => .aborted := by
  have hReport := Play.report_apply (playProjection J.toJsonText plan request.toPlayRequest) h
  rw [← Play.execute_eq] at hReport
  rw [Command.execute]
  cases hPlay : playProjection J.toJsonText plan request.toPlayRequest h with
  | returned state h' =>
      rw [hPlay] at hReport
      rw [Prog.bind_of_returned (call_of_returned hReport)]
      rfl
  | threw err h' =>
      simp only [hPlay] at hReport
      by_cases hErr : err.isRuntimeError = true
      · rw [if_pos hErr] at hReport
        rw [Prog.bind_of_returned (call_of_returned hReport)]
        simp only [if_pos hErr]
        rfl
      · rw [if_neg hErr] at hReport
        rw [Prog.bind_of_threw (call_of_threw hReport)]
        simp only [if_neg hErr]
  | aborted =>
      rw [hPlay] at hReport
      rw [Prog.bind_of_aborted (call_of_aborted hReport)]

/-- The body of the loop in `Shell::run`, for a line that is not empty. -/
def runLine (plan : Plan) (unset : Int32) (line : String) : FrontProg (Handler E) Output := do
  let cmd ← interpret J unset line
  let result ← cmd.execute J plan
  printData J result.data
  pure result

end Cmd
end Yess

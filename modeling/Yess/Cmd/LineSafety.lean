import Yess.Cmd.Marks
import Yess.Cmd.Shell
import Yess.Ext.SampleEngine
import Yess.Handler.EntityValues
import Yess.Handler.History
import Yess.Handler.PlayOutcome

namespace Yess
namespace Cmd

open Foundation ValueStack Db Ext Replay ActionHandler

/-!
# Which lines the shell survives

No line should end the session other than by `quit`, and a malformed line should be
answered by an error and change nothing.  `line_safe_iff` says for which lines this is
so.  The others are: a quote that is not closed, for which `tokenize` throws; a number
out of range, which `stoi` reports by an exception that no clause catches; an initial
state that is not JSON, the same; a play whose outcome cannot be reported, and a list
with text that is no UTF-8, which cannot be printed; and malformed lines that are taken
for well-formed ones, since `stoi` stops at the first character that is no digit, and
since `help` and `quit` take any number of arguments.
-/

/-! ## Malformed lines -/

def IsInt (text : String) : Prop := (intNumeral text).isSome

/-- The arguments of the command are too many or too few, or a number is not the
numeral of an `int`, or an initial state is not JSON. -/
def MalformedArgs (J : JsonLib) : ShellCmd → List String → Prop
  | .none, _ => False
  | .unknown, _ => False
  | .quit, argv => argv ≠ []
  | .help, argv => argv ≠ []
  | .createStream, argv => argv.length ≠ 1
  | .deleteStream, argv => ∀ id, argv = [id] → ¬IsInt id
  | .push, argv => ∀ streamId type payload version,
      argv = [streamId, type, payload, version] → ¬(IsInt streamId ∧ IsInt version)
  | .createProjection, argv => argv.length ≠ 1 ∧ argv.length ≠ 2
  | .getStreams, argv => 1 < argv.length
  | .getProjections, argv => 1 < argv.length
  | .deleteProjection, argv => ∀ id, argv = [id] → ¬IsInt id
  | .play, argv =>
      (∀ projectionId target, argv = [projectionId, target] → ¬IsInt projectionId) ∧
        ∀ projectionId target init, argv = [projectionId, target, init] →
          ¬(IsInt projectionId ∧ (J.parse init).isSome)

/-- The scan of the whole line, however long it is. -/
def wholeScan (line : String) : Scan := scan .head [] line.toList

def Malformed (J : JsonLib) (line : String) : Prop :=
  LeavesQuoteOpen line.toList ∨
    MalformedArgs J (commandWords (wholeScan line).words).1
      (commandWords (wholeScan line).words).2

def IsQuit (line : String) : Prop := (commandWords (wholeScan line).words).1 = .quit

/-- The line is answered by a result, which ends the session only for `quit`; a
malformed line is answered by an error and leaves the store as it is. -/
def LineSafe (J : JsonLib) {E : Duktape} (plan : Plan) (unset : Int32) (h : Handler E)
    (line : String) : Prop :=
  ∃ result h', runLine J plan unset line h = .returned result h' ∧
    (result.status = .exit → IsQuit line) ∧
    (Malformed J line →
      result.status = .error ∧ h'.connection.database = h.connection.database)

/-! ## What the shell makes of the words -/

section

variable (J : JsonLib) {E : Duktape} (plan : Plan) (unset : Int32) (h : Handler E)

/-- `stoi` does not throw `std::out_of_range`. -/
def StoiInRange (text : String) : Prop := stoi text ≠ .error (.outOfRange "stoi")

/-- Every outcome of the play can be reported. -/
def PlayReportable (request : PlayReq) : Prop :=
  ∀ proj events, load plan request.toPlayRequest h.connection =
      .returned (proj, events) h.connection →
    OutcomesReportable J.toJsonText shellCaller h.context.stack proj.data "projection" events
      request.init h.context.heap

/-- The play gives no state. -/
def PlayFails (request : PlayReq) : Prop :=
  ∀ proj events, load plan request.toPlayRequest h.connection =
      .returned (proj, events) h.connection →
    ∀ state heap, playFrom J.toJsonText (slotZero h.context.stack) proj.data "projection"
      events request.init h.context.heap ≠ .returned state heap

def PlayRuns (projectionId target : String) (init : Option String) : Prop :=
  StoiInRange projectionId ∧ ∀ n, stoi projectionId = .ok n →
    ∃ value, initialValue J init = some value ∧
      PlayReportable J plan h (playReq unset n target value)

def PlayRejected (projectionId target : String) (init : Option String) : Prop :=
  ∀ n value, stoi projectionId = .ok n → initialValue J init = some value →
    PlayFails J plan h (playReq unset n target value)

/-- What is listed is UTF-8. -/
def StreamsPrintable (type : String) : Prop :=
  ∀ row ∈ h.connection.database.streams, (type = "" ∨ row.type = type) →
    isUtf8 row.type = true

def ProjectionsPrintable (type : String) : Prop :=
  ∀ row ∈ h.connection.database.projections, (type = "" ∨ row.type = type) →
    isUtf8 row.data = true ∧ isUtf8 row.type = true

/-- With these arguments no exception comes out of the command. -/
def ArgsRun : ShellCmd → List String → Prop
  | .deleteStream, [id] => StoiInRange id
  | .push, [streamId, _, _, version] =>
      StoiInRange streamId ∧ ∀ n, stoi streamId = .ok n → StoiInRange version
  | .getStreams, [] => StreamsPrintable h ""
  | .getStreams, [type] => StreamsPrintable h type
  | .getProjections, [] => ProjectionsPrintable h ""
  | .getProjections, [type] => ProjectionsPrintable h type
  | .deleteProjection, [id] => StoiInRange id
  | .play, [projectionId, target] => PlayRuns J plan unset h projectionId target none
  | .play, [projectionId, target, init] =>
      PlayRuns J plan unset h projectionId target (some init)
  | _, _ => True

/-- With these arguments the command is answered by an error and changes nothing, if it
is answered at all. -/
def ArgsRejected : ShellCmd → List String → Prop
  | .none, _ => False
  | .quit, _ => False
  | .help, _ => False
  | .createStream, [_] => False
  | .deleteStream, [id] => ∀ n, stoi id ≠ .ok n
  | .push, [streamId, type, payload, version] =>
      ∀ n m, stoi streamId = .ok n → stoi version = .ok m →
        ¬EventFits h.connection (PushReq.toEvent ⟨n, type, payload, m⟩)
  | .createProjection, [_] => False
  | .createProjection, [_, _] => False
  | .getStreams, [] => False
  | .getStreams, [_] => False
  | .getProjections, [] => False
  | .getProjections, [_] => False
  | .deleteProjection, [id] => ∀ n, stoi id ≠ .ok n
  | .play, [projectionId, target] => PlayRejected J plan unset h projectionId target none
  | .play, [projectionId, target, init] =>
      PlayRejected J plan unset h projectionId target (some init)
  | _, _ => True

/-- The lines that are safe. -/
structure LineOk (line : String) : Prop where
  indexInRange : indexOverflows line = false
  quotesClosed : ¬LeavesQuoteOpen (seen line)
  runs : ArgsRun J plan unset h (commandWords (scanLine line).words).1
    (commandWords (scanLine line).words).2
  rejected : Malformed J line → ArgsRejected J plan unset h
    (commandWords (scanLine line).words).1 (commandWords (scanLine line).words).2
  quits : (commandWords (scanLine line).words).1 = .quit → IsQuit line

end

/-! ## Answers -/

section

variable {J : JsonLib} {E : Duktape} {plan : Plan} {unset : Int32} {h h' : Handler E}

/-- When the program gives a result, and what this result is like. -/
structure Answers (h : Handler E) (p : FrontProg (Handler E) Output)
    (runs rejected exits : Prop) : Prop where
  returned_iff : (∃ result h', p h = .returned result h') ↔ runs
  exit_iff : ∀ result h', p h = .returned result h' → (result.status = .exit ↔ exits)
  error_iff : ∀ result h', p h = .returned result h' →
    ((result.status = .error ∧ h'.connection.database = h.connection.database) ↔ rejected)

variable {p : FrontProg (Handler E) Output} {runs rejected exits : Prop}

theorem answers_of_returned {result : Output} (hReturned : p h = .returned result h')
    (hRuns : runs) (hExits : result.status = .exit ↔ exits)
    (hRejected : (result.status = .error ∧
      h'.connection.database = h.connection.database) ↔ rejected) :
    Answers h p runs rejected exits := by
  refine ⟨iff_of_true ⟨_, _, hReturned⟩ hRuns, ?_, ?_⟩
  · intro result' h'' hReturned'
    rw [hReturned, Outcome.returned.injEq] at hReturned'
    rw [← hReturned'.1]
    exact hExits
  · intro result' h'' hReturned'
    rw [hReturned, Outcome.returned.injEq] at hReturned'
    rw [← hReturned'.1, ← hReturned'.2]
    exact hRejected

theorem answers_of_not_returned (hNot : ∀ result h', p h ≠ .returned result h')
    (hRuns : ¬runs) : Answers h p runs rejected exits where
  returned_iff := iff_of_false (fun ⟨result, h', hReturned⟩ => hNot result h' hReturned) hRuns
  exit_iff := fun result h' hReturned => absurd hReturned (hNot result h')
  error_iff := fun result h' hReturned => absurd hReturned (hNot result h')

theorem Answers.congr {runs' rejected' exits' : Prop} (hAnswers : Answers h p runs rejected exits)
    (hRuns : runs ↔ runs') (hRejected : runs' → (rejected ↔ rejected'))
    (hExits : exits ↔ exits') : Answers h p runs' rejected' exits' where
  returned_iff := hAnswers.returned_iff.trans hRuns
  exit_iff := fun result h' hReturned => (hAnswers.exit_iff result h' hReturned).trans hExits
  error_iff := by
    intro result h' hReturned
    have hRuns' := (hAnswers.returned_iff.trans hRuns).mp ⟨result, h', hReturned⟩
    exact (hAnswers.error_iff result h' hReturned).trans (hRejected hRuns')

theorem Answers.notQuit {cmd : ShellCmd} (hAnswers : Answers h p runs rejected False)
    (hCmd : cmd ≠ .quit) : Answers h p runs rejected (cmd = .quit) :=
  hAnswers.congr Iff.rfl (fun _ => Iff.rfl) (iff_of_false id hCmd)

/-! ## Executing and printing -/

/-- What comes after `interpret`. -/
def finish (J : JsonLib) (plan : Plan) (cmd : Command) : FrontProg (Handler E) Output := do
  let result ← cmd.execute J plan
  printData J result.data
  pure result

theorem finish_of_executed {cmd : Command} {result : Output}
    (hExecuted : cmd.execute J plan h = .returned result h')
    (hPrinted : printData J result.data h' = .returned () h') :
    finish J plan cmd h = .returned result h' := by
  rw [finish, Prog.bind_of_returned hExecuted, Prog.bind_of_returned hPrinted]
  rfl

theorem connection_executed {q : DbProg Output} {c : Connection} {result : Output}
    (hExecuted : q h.connection = .returned result c) :
    (call (onConnection q) : FrontProg (Handler E) Output) h =
      .returned result { h with connection := c } :=
  call_of_returned (onConnection_of_returned hExecuted)

theorem finish_invalid (usage : String) :
    Answers h (finish J plan (.invalid usage)) True True False :=
  answers_of_returned rfl trivial (by simp) (by simp)

/-- A command that ends with `OK` and prints what it has to. -/
theorem answers_of_ok {cmd : Command} {result : Output}
    (hExecuted : cmd.execute J plan h = .returned result h')
    (hPrinted : printData J result.data h' = .returned () h') (hOk : result.status = .ok) :
    Answers h (finish J plan cmd) True False False :=
  answers_of_returned (finish_of_executed hExecuted hPrinted) trivial (by simp [hOk])
    (by simp [hOk])

theorem finish_createStream (type : String) (hReady : h.connection.Ready) :
    Answers h (finish J plan (.createStream type)) True False False :=
  answers_of_ok (connection_executed (CreateStream.execute_apply type hReady)) rfl rfl

theorem finish_deleteStream (id : Int32) (hReady : h.connection.Ready) :
    Answers h (finish J plan (.deleteStream id)) True False False :=
  answers_of_ok (connection_executed (DeleteStream.execute_apply id hReady)) rfl rfl

theorem finish_deleteProjection (id : Int32) (hReady : h.connection.Ready) :
    Answers h (finish J plan (.deleteProjection id)) True False False :=
  answers_of_ok (connection_executed (DeleteProjection.execute_apply id hReady)) rfl rfl

theorem finish_createProjection (request : CreateProjectionReq) (hReady : h.connection.Ready) :
    Answers h (finish J plan (.createProjection request)) True False False := by
  obtain ⟨c, hExecuted⟩ := CreateProjection.execute_apply request hReady
  exact answers_of_ok (connection_executed hExecuted) rfl rfl

theorem finish_push (request : PushReq) (hInv : StoreInvariant h.connection) :
    Answers h (finish J plan (.push request)) True
      (¬EventFits h.connection request.toEvent) False := by
  have hFits := insertError_newEventRow_iff hInv request.toEvent
  have hExecuted := Push.execute_apply request hInv.ready
  cases hError : insertError h.connection
      (newEventRow h.connection.database request.toEvent) with
  | none =>
      simp only [hError] at hExecuted
      refine answers_of_returned (finish_of_executed (connection_executed hExecuted) rfl)
        trivial (by simp) ?_
      simp [hFits.mp hError]
  | some error =>
      simp only [hError] at hExecuted
      refine answers_of_returned (finish_of_executed (connection_executed hExecuted) rfl)
        trivial (by simp) ?_
      have hNot : ¬EventFits h.connection request.toEvent := by
        rw [← hFits, hError]
        simp
      simp [hNot]

/-! ### Lists -/

/-- A result whose data are printed as JSON comes back exactly when they are UTF-8. -/
theorem answers_of_printed {cmd : Command} {result : Output} {value : Json}
    (hExecuted : cmd.execute J plan h = .returned result h')
    (hPrint : ∀ {σ : Type}, (printData J result.data : FrontProg σ Unit) = do
      let _ ← dumpJson J value
      pure ())
    (hOk : result.status = .ok) :
    Answers h (finish J plan cmd) (value.isUtf8 = true) False False := by
  by_cases hUtf8 : value.isUtf8 = true
  · have hPrinted : printData J result.data h' = .returned () h' := by
      rw [hPrint, dumpJson_of_utf8 J hUtf8]
      rfl
    exact (answers_of_ok hExecuted hPrinted hOk).congr (iff_of_true trivial hUtf8)
      (fun _ => Iff.rfl) Iff.rfl
  · have hPrinted : printData J result.data h' =
        .threw (.json (J.dumpError value)) h' := by
      rw [hPrint, dumpJson, if_neg hUtf8]
      rfl
    refine answers_of_not_returned (fun result' h'' hReturned => ?_) hUtf8
    rw [finish, Prog.bind_of_returned hExecuted, Prog.bind_of_threw hPrinted] at hReturned
    simp at hReturned

theorem projection_json_isUtf8 (projection : Projection) :
    projection.json.isUtf8 = (isUtf8 projection.data && isUtf8 projection.type) := by
  have hData : isUtf8 "data" = true := by decide +kernel
  have hId : isUtf8 "id" = true := by decide +kernel
  have hType : isUtf8 "type" = true := by decide +kernel
  simp [Projection.json, Json.isUtf8, Json.membersUtf8, hData, hId, hType]

theorem finish_getStreams (type : String) (hReady : h.connection.Ready) :
    Answers h (finish J plan (.getStreams type)) (StreamsPrintable h type) False False := by
  have hAnswers : Answers h (finish J plan (.getStreams type)) _ False False :=
    answers_of_printed (connection_executed (GetStreams.execute_apply type hReady)) rfl rfl
  refine hAnswers.congr ?_ (fun _ => Iff.rfl) Iff.rfl
  rw [Json.isUtf8, Json.allUtf8_iff]
  simp only [List.forall_mem_map, stream_json_isUtf8]
  simp [StreamsPrintable, StreamRow.toStream]

theorem finish_getProjections (type : String) (hReady : h.connection.Ready) :
    Answers h (finish J plan (.getProjections type)) (ProjectionsPrintable h type) False
      False := by
  have hAnswers : Answers h (finish J plan (.getProjections type)) _ False False :=
    answers_of_printed (connection_executed (GetProjections.execute_apply type hReady)) rfl rfl
  refine hAnswers.congr ?_ (fun _ => Iff.rfl) Iff.rfl
  rw [Json.isUtf8, Json.allUtf8_iff]
  unfold ProjectionsPrintable
  by_cases hType : type = ""
  -- Here the two columns are exchanged.
  · simp only [if_pos hType, List.forall_mem_map, projection_json_isUtf8]
    simp [hType, Projection.new, and_comm]
  · simp only [if_neg hType, List.forall_mem_map, projection_json_isUtf8]
    simp [hType, Projection.new]

/-! ### Plays -/

/-- Where its outcomes can be reported, a play fails when its code does not return. -/
theorem playFails_iff {request : PlayReq} (hReportable : PlayReportable J plan h request) :
    PlayFails J plan h request ↔
      ¬(playProjection J.toJsonText plan request.toPlayRequest h).EndsWell fun _ => False := by
  rcases reads_load plan request.toPlayRequest h.connection with
    ⟨⟨proj, events⟩, hLoad⟩ | ⟨error, hLoad⟩
  · rw [playProjection_of_loaded hLoad, Outcome.endsWell_mapState]
    refine Iff.trans ?_
      (not_congr (endsWell_play_iff J.toJsonText (hReportable proj events hLoad))).symm
    rw [Outcome.endsWell_false_iff]
    constructor
    · rintro hFails ⟨state, heap, hReturned⟩
      exact hFails proj events hLoad state heap hReturned
    · intro hNot proj' events' hLoad' state heap hReturned
      obtain ⟨rfl, rfl⟩ := load_unique hLoad hLoad'
      exact hNot ⟨state, heap, hReturned⟩
  · rw [playProjection_of_not_loaded hLoad]
    refine iff_of_true (fun proj events hLoad' => ?_) id
    rw [hLoad] at hLoad'
    simp at hLoad'

/-- What a play returns is UTF-8 when its initial state is. -/
theorem playProjection_isUtf8 {request : PlayRequest} {state : Json}
    (hParse : ParsesUtf8 J.toJsonText) (hInit : request.init.isUtf8 = true)
    (hReturned : playProjection J.toJsonText plan request h = .returned state h') :
    state.isUtf8 = true := by
  have hYields : Prog.Yields (fun state => state.isUtf8 = true)
      (playProjection J.toJsonText plan request : HandlerProg E Json) := by
    unfold playProjection
    iterate 3 refine Prog.yields_bind fun _ => ?_
    intro h₁ state h₂ hCall
    rw [onContext_apply] at hCall
    generalize hContext : DukContext.callProjection J.toJsonText request.fnName _
      request.init h₁.context = outcome at hCall
    cases outcome with
    | returned state' c =>
        rw [Outcome.mapState_returned, Outcome.returned.injEq] at hCall
        rw [← hCall.1]
        exact yields_callProjection J.toJsonText hParse _ _ hInit _ _ _ hContext
    | threw error c => simp at hCall
    | aborted => simp at hCall
  exact hYields h state h' hReturned

theorem finish_play {request : PlayReq} (hParse : ParsesUtf8 J.toJsonText)
    (hInit : request.init.isUtf8 = true) :
    Answers h (finish J plan (.play request)) (PlayReportable J plan h request)
      (PlayFails J plan h request) False := by
  have hRuns : Reported shellCaller
      (playProjection J.toJsonText plan request.toPlayRequest h) ↔
      PlayReportable J plan h request := reported_playProjection_iff shellCaller
  have hExecute := Command.execute_play J plan request h
  cases hPlay : playProjection J.toJsonText plan request.toPlayRequest h with
  | returned state h' =>
      rw [hPlay] at hRuns hExecute
      have hReportable := hRuns.mp trivial
      have hPrinted : printData J (.state state) h' = .returned () h' := by
        rw [printData, dumpJson_of_utf8 J (playProjection_isUtf8 hParse hInit hPlay)]
        rfl
      refine answers_of_returned (finish_of_executed hExecute hPrinted) hReportable ?_ ?_
      · simp
      · rw [playFails_iff hReportable, hPlay]
        simp [Outcome.EndsWell]
  | threw error h' =>
      rw [hPlay] at hRuns
      simp only [hPlay] at hExecute
      have hConnection : h'.connection = h.connection :=
        playProjection_connection (by rw [hPlay]; rfl)
      by_cases hRuntime : error.isRuntimeError = true
      · have hReportable := hRuns.mp hRuntime
        rw [if_pos hRuntime] at hExecute
        refine answers_of_returned (finish_of_executed hExecute rfl) hReportable ?_ ?_
        · simp
        · rw [playFails_iff hReportable, hPlay, hConnection]
          simp [Outcome.EndsWell]
      · rw [if_neg hRuntime] at hExecute
        refine answers_of_not_returned (fun result h'' hReturned => ?_) ?_
        · rw [finish, Prog.bind_of_threw hExecute] at hReturned
          simp at hReturned
        · rw [← hRuns]
          exact hRuntime
  | aborted =>
      rw [hPlay] at hRuns hExecute
      refine answers_of_not_returned (fun result h'' hReturned => ?_) ?_
      · rw [finish, Prog.bind_of_aborted hExecute] at hReturned
        simp at hReturned
      · rw [← hRuns]
        exact id

/-! ## Interpreting -/

/-- A number that is read inside a `try` block. -/
theorem answers_stoi {usage text : String} {block : Int32 → FrontProg (Handler E) Command}
    {runs rejected : Int32 → Prop}
    (hBlock : ∀ n, Answers h (catchInvalid usage (block n) >>= finish J plan) (runs n)
      (rejected n) False) :
    Answers h
      (catchInvalid usage (do
        let n ← Prog.ofExcept (stoi text)
        block n) >>= finish J plan)
      (StoiInRange text ∧ ∀ n, stoi text = .ok n → runs n)
      (∀ n, stoi text = .ok n → rejected n) False := by
  rcases stoi_cases text with ⟨n, hOk⟩ | hInvalid | hRange
  · rw [hOk]
    refine Answers.congr (hBlock n) ?_ (fun _ => ?_) Iff.rfl
    · simp [StoiInRange, hOk]
    · simp
  · rw [hInvalid]
    have hUsage : Answers h (finish J plan (.invalid usage)) True True False :=
      finish_invalid usage
    refine Answers.congr hUsage ?_ (fun _ => ?_) Iff.rfl
    · simp [StoiInRange, hInvalid]
    · simp
  · rw [hRange]
    refine answers_of_not_returned (fun result h' => ?_) ?_
    · show Outcome.threw _ _ ≠ _
      simp
    · simp [StoiInRange, hRange]

theorem initialValue_isUtf8 {init : Option String} {value : Json}
    (hParse : ParsesUtf8 J.toJsonText) (hValue : initialValue J init = some value) :
    value.isUtf8 = true := by
  cases init with
  | some text => exact hParse text value hValue
  | none =>
      rw [← Option.some.inj hValue]
      rfl

/-- A play once its projection id is read. -/
theorem answers_initialState {init : Option String} (n : Int32) (target : String)
    (hParse : ParsesUtf8 J.toJsonText) :
    Answers h
      (catchInvalid Play.usage (do
        let value ← initialState J init
        pure (.play (playReq unset n target value))) >>= finish J plan)
      (∃ value, initialValue J init = some value ∧
        PlayReportable J plan h (playReq unset n target value))
      (∀ value, initialValue J init = some value →
        PlayFails J plan h (playReq unset n target value)) False := by
  cases hValue : initialValue J init with
  | some value =>
      have hInit : (playReq unset n target value).init.isUtf8 = true := by
        rw [playReq_init unset n target value]
        exact initialValue_isUtf8 hParse hValue
      rw [initialState_of_some hValue]
      refine Answers.congr (finish_play hParse hInit) ?_ (fun _ => ?_) Iff.rfl
      · simp
      · simp
  | none =>
      obtain ⟨message, hThrow⟩ := @initialState_of_none J (Handler E) init hValue
      rw [hThrow]
      refine answers_of_not_returned (fun result h' => ?_) (by simp)
      show Outcome.threw _ _ ≠ _
      simp

theorem answers_interpretPlayWith (projectionId target : String) (init : Option String)
    (hParse : ParsesUtf8 J.toJsonText) :
    Answers h (interpretPlayWith J unset projectionId target init >>= finish J plan)
      (PlayRuns J plan unset h projectionId target init)
      (PlayRejected J plan unset h projectionId target init) False := by
  refine Answers.congr (answers_stoi fun n => answers_initialState n target hParse) Iff.rfl
    (fun _ => ?_) Iff.rfl
  unfold PlayRejected
  exact forall_congr' fun n => forall_comm

theorem answers_interpretPush (streamId type payload version : String)
    (hInv : StoreInvariant h.connection) :
    Answers h (interpretPush [streamId, type, payload, version] >>= finish J plan)
      (ArgsRun J plan unset h .push [streamId, type, payload, version])
      (ArgsRejected J plan unset h .push [streamId, type, payload, version]) False := by
  have hPush : ∀ n m : Int32, Answers h
      (catchInvalid Push.usage (pure (.push ⟨n, type, payload, m⟩)) >>= finish J plan) True
      (¬EventFits h.connection (PushReq.toEvent ⟨n, type, payload, m⟩)) False :=
    fun n m => finish_push ⟨n, type, payload, m⟩ hInv
  refine Answers.congr (answers_stoi fun n => answers_stoi fun m => hPush n m) ?_
    (fun _ => ?_) Iff.rfl
  · simp [ArgsRun]
  · rw [ArgsRejected]
    exact forall_congr' fun n => forall_comm

theorem answers_deleteStream (id : String) (hReady : h.connection.Ready) :
    Answers h (interpretDeleteStream [id] >>= finish J plan) (StoiInRange id)
      (∀ n, stoi id ≠ .ok n) False := by
  refine Answers.congr (answers_stoi fun n => finish_deleteStream n hReady) ?_
    (fun _ => Iff.rfl) Iff.rfl
  simp

theorem answers_deleteProjection (id : String) (hReady : h.connection.Ready) :
    Answers h (interpretDeleteProjection [id] >>= finish J plan) (StoiInRange id)
      (∀ n, stoi id ≠ .ok n) False := by
  refine Answers.congr (answers_stoi fun n => finish_deleteProjection n hReady) ?_
    (fun _ => Iff.rfl) Iff.rfl
  simp

/-- Every command, with any number of arguments. -/
theorem answers_interpretWords (cmd : ShellCmd) (argv : List String)
    (hInv : StoreInvariant h.connection) (hParse : ParsesUtf8 J.toJsonText) :
    Answers h (interpretWords J unset cmd argv >>= finish J plan)
      (ArgsRun J plan unset h cmd argv) (ArgsRejected J plan unset h cmd argv)
      (cmd = .quit) := by
  have hReady := hInv.ready
  have hUsage : ∀ usage, Answers h (finish J plan (.invalid usage)) True True False :=
    fun usage => finish_invalid usage
  cases cmd with
  | none => exact answers_of_returned rfl trivial (by simp) (by simp [ArgsRejected])
  | unknown => exact answers_of_returned rfl trivial (by simp) (by simp [ArgsRejected])
  | quit => exact answers_of_returned rfl trivial (by simp) (by simp [ArgsRejected])
  | help => exact answers_of_returned rfl trivial (by simp) (by simp [ArgsRejected])
  | createStream =>
      rcases argv with _ | ⟨type, _ | ⟨_, _⟩⟩
      · exact (hUsage _).notQuit (by decide)
      · exact (finish_createStream type hReady).notQuit (by decide)
      · exact (hUsage _).notQuit (by decide)
  | deleteStream =>
      rcases argv with _ | ⟨id, _ | ⟨_, _⟩⟩
      · exact (hUsage _).notQuit (by decide)
      · exact (answers_deleteStream id hReady).notQuit (by decide)
      · exact (hUsage _).notQuit (by decide)
  | push =>
      rcases argv with
        _ | ⟨streamId, _ | ⟨type, _ | ⟨payload, _ | ⟨version, _ | ⟨_, _⟩⟩⟩⟩⟩
      case cons.cons.cons.cons.nil =>
        exact (answers_interpretPush streamId type payload version hInv).notQuit
          (by decide)
      all_goals exact (hUsage _).notQuit (by decide)
  | createProjection =>
      rcases argv with _ | ⟨data, _ | ⟨type, _ | ⟨_, _⟩⟩⟩
      · exact (hUsage _).notQuit (by decide)
      · exact (finish_createProjection { data } hReady).notQuit (by decide)
      · exact (finish_createProjection { data, type } hReady).notQuit (by decide)
      · exact (hUsage _).notQuit (by decide)
  | getStreams =>
      rcases argv with _ | ⟨type, _ | ⟨_, _⟩⟩
      · exact (finish_getStreams "" hReady).notQuit (by decide)
      · exact (finish_getStreams type hReady).notQuit (by decide)
      · exact (hUsage _).notQuit (by decide)
  | getProjections =>
      rcases argv with _ | ⟨type, _ | ⟨_, _⟩⟩
      · exact (finish_getProjections "" hReady).notQuit (by decide)
      · exact (finish_getProjections type hReady).notQuit (by decide)
      · exact (hUsage _).notQuit (by decide)
  | deleteProjection =>
      rcases argv with _ | ⟨id, _ | ⟨_, _⟩⟩
      · exact (hUsage _).notQuit (by decide)
      · exact (answers_deleteProjection id hReady).notQuit (by decide)
      · exact (hUsage _).notQuit (by decide)
  | play =>
      rcases argv with _ | ⟨projectionId, _ | ⟨target, _ | ⟨init, _ | ⟨_, _⟩⟩⟩⟩
      case cons.cons.nil =>
        exact (answers_interpretPlayWith projectionId target none hParse).notQuit
          (by decide)
      case cons.cons.cons.nil =>
        exact (answers_interpretPlayWith projectionId target (some init) hParse).notQuit
          (by decide)
      all_goals exact (hUsage _).notQuit (by decide)

/-! ## Lines -/

theorem runLine_eq (line : String) :
    (runLine J plan unset line : FrontProg (Handler E) Output) = (do
      let words ← tokenize line
      interpretWords J unset (commandWords words).1 (commandWords words).2 >>= finish J plan) := by
  rw [runLine, interpret, tokens]
  simp only [bind_assoc, pure_bind]
  rfl

theorem runLine_of_overflow {line : String} (hOverflow : indexOverflows line = true) :
    runLine J plan unset line h = .aborted := by
  rw [runLine_eq, Prog.bind_of_aborted (tokenize_of_overflow h hOverflow)]

theorem runLine_of_open {line : String} (hRange : indexOverflows line = false)
    (hOpen : (scanLine line).quoteOpen = true) :
    runLine J plan unset line h =
      .threw (.std (.runtimeError "One of the quotes is open")) h := by
  rw [runLine_eq, Prog.bind_of_threw (tokenize_of_open h hRange hOpen)]

theorem runLine_of_words {line : String} (hRange : indexOverflows line = false)
    (hClosed : (scanLine line).quoteOpen = false) :
    (runLine J plan unset line : FrontProg (Handler E) Output) =
      interpretWords J unset (commandWords (scanLine line).words).1
        (commandWords (scanLine line).words).2 >>= finish J plan := by
  funext h
  rw [runLine_eq, Prog.bind_of_returned (tokenize_of_closed h hRange hClosed)]

/-- On every reachable store and for every line: the line is safe exactly when the
index of the scan has room, no quote is left open, the command that the code makes of
the line comes back, and where the line is malformed it is rejected. -/
theorem line_safe_iff (line : String) (hReachable : Reachable h.connection)
    (hParse : ParsesUtf8 J.toJsonText) :
    LineSafe J plan unset h line ↔ LineOk J plan unset h line := by
  cases hRange : indexOverflows line with
  | true =>
      refine iff_of_false ?_ fun hOk => ?_
      · rintro ⟨result, h', hReturned, -⟩
        rw [runLine_of_overflow hRange] at hReturned
        simp at hReturned
      · simp [hOk.indexInRange] at hRange
  | false =>
      cases hQuotes : (scanLine line).quoteOpen with
      | true =>
          refine iff_of_false ?_ fun hOk => ?_
          · rintro ⟨result, h', hReturned, -⟩
            rw [runLine_of_open hRange hQuotes] at hReturned
            simp at hReturned
          · exact hOk.quotesClosed ((leavesQuoteOpen_seen_iff line).mpr hQuotes)
      | false =>
          have hAnswers := @answers_interpretWords J E plan unset h
            (commandWords (scanLine line).words).1 (commandWords (scanLine line).words).2
            hReachable.invariant.store hParse
          rw [← runLine_of_words hRange hQuotes] at hAnswers
          constructor
          · rintro ⟨result, h', hReturned, hExit, hMalformed⟩
            have hClosed := not_leavesQuoteOpen_seen hQuotes
            refine ⟨hRange, hClosed, hAnswers.returned_iff.mp ⟨result, h', hReturned⟩, ?_, ?_⟩
            · intro hBad
              exact (hAnswers.error_iff result h' hReturned).mp (hMalformed hBad)
            · intro hQuit
              exact hExit ((hAnswers.exit_iff result h' hReturned).mpr hQuit)
          · intro hOk
            obtain ⟨result, h', hReturned⟩ := hAnswers.returned_iff.mpr hOk.runs
            refine ⟨result, h', hReturned, ?_, ?_⟩
            · intro hExit
              exact hOk.quits ((hAnswers.exit_iff result h' hReturned).mp hExit)
            · intro hBad
              exact (hAnswers.error_iff result h' hReturned).mpr (hOk.rejected hBad)

end

/-- A handler on the store with one event. -/
def oneEventHandler : Handler Sample.engine :=
  ⟨oneEventConnection, DukContext.fresh Sample.engine⟩

theorem sample_parsesUtf8 : ParsesUtf8 Sample.jsonLib.toJsonText := by
  intro text value hValue
  change Sample.parse text = some value at hValue
  unfold Sample.parse at hValue
  split at hValue <;> first
    | (rw [← Option.some.inj hValue]; decide +kernel)
    | simp at hValue

theorem scanLine_delete_users :
    scanLine "delete_stream Users" = ⟨["delete_stream", "Users"], false, 1⟩ := by
  decide +kernel

example : scanLine "push '" = ⟨["push", ""], true, 2⟩ := by decide +kernel

/-- An id that is no number is rejected. -/
theorem line_safe_delete_users :
    LineSafe Sample.jsonLib ⟨.streamsOuter, .rowid⟩ 0 oneEventHandler "delete_stream Users" := by
  refine (line_safe_iff "delete_stream Users" oneEventConnection_reachable
    sample_parsesUtf8).mpr ?_
  have hStoi : stoi "Users" = .error (.invalidArgument "stoi") := by decide +kernel
  constructor
  · decide +kernel
  · exact not_leavesQuoteOpen_seen (by rw [scanLine_delete_users])
  · rw [scanLine_delete_users]
    show StoiInRange "Users"
    simp [StoiInRange, hStoi]
  · intro _
    rw [scanLine_delete_users]
    show ∀ n, stoi "Users" ≠ .ok n
    simp [hStoi]
  · intro hQuit
    rw [scanLine_delete_users] at hQuit
    exact absurd hQuit (by decide +kernel)

/-- What the small shell does with a line. -/
def sampleRun (line : String) : Outcome FrontExn (Handler Sample.engine) Output :=
  runLine Sample.jsonLib ⟨.streamsOuter, .rowid⟩ 0 line oneEventHandler

theorem sampleRun_of_scan {line : String} {words : List String} {past : Nat}
    (hScan : scanLine line = ⟨words, false, past⟩) (hRange : indexOverflows line = false) :
    sampleRun line = (interpretWords Sample.jsonLib 0 (commandWords words).1
      (commandWords words).2 >>= finish Sample.jsonLib ⟨.streamsOuter, .rowid⟩)
        oneEventHandler := by
  rw [sampleRun, runLine_of_words hRange (by rw [hScan]), hScan]

theorem scanLine_delete_prefix :
    scanLine "delete_stream 1x" = ⟨["delete_stream", "1x"], false, 1⟩ := by
  decide +kernel

/-- A number with a letter behind it deletes the stream. -/
theorem sampleRun_delete_prefix :
    ∃ h', sampleRun "delete_stream 1x" = .returned ⟨.ok, "OK", .null⟩ h' ∧
      h'.connection.database.streams = [] := by
  have hStoi : stoi "1x" = .ok 1 := by decide +kernel
  rw [sampleRun_of_scan scanLine_delete_prefix (by decide +kernel)]
  refine ⟨{ oneEventHandler with connection := freshConnection }, ?_, rfl⟩
  show (interpretDeleteStream ["1x"] >>= finish _ _) oneEventHandler = _
  rw [interpretDeleteStream, hStoi]
  rfl

/-- Lines that are not safe, on a store that comes about: an open quote, a number out of
range and a text that is not JSON end the session, and a number with a letter behind it
deletes the stream. -/
theorem lines_not_safe :
    Reachable oneEventHandler.connection ∧
      sampleRun "push '" =
        .threw (.std (.runtimeError "One of the quotes is open")) oneEventHandler ∧
      sampleRun "delete_stream 3000000000" = .threw (.outOfRange "stoi") oneEventHandler ∧
      sampleRun "play 1 User x" = .threw (.json "parse error") oneEventHandler ∧
      (∃ h', sampleRun "delete_stream 1x" = .returned ⟨.ok, "OK", .null⟩ h' ∧
        h'.connection.database.streams = []) ∧
      ∀ line ∈ ["push '", "delete_stream 3000000000", "play 1 User x", "delete_stream 1x"],
        ¬LineSafe Sample.jsonLib ⟨.streamsOuter, .rowid⟩ 0 oneEventHandler line := by
  have hQuote : sampleRun "push '" =
      .threw (.std (.runtimeError "One of the quotes is open")) oneEventHandler :=
    runLine_of_open (by decide +kernel) (by decide +kernel)
  have hRange : sampleRun "delete_stream 3000000000" =
      .threw (.outOfRange "stoi") oneEventHandler := by
    have hScan : scanLine "delete_stream 3000000000" =
        ⟨["delete_stream", "3000000000"], false, 1⟩ := by decide +kernel
    have hStoi : stoi "3000000000" = .error (.outOfRange "stoi") := by decide +kernel
    rw [sampleRun_of_scan hScan (by decide +kernel)]
    show (interpretDeleteStream ["3000000000"] >>= finish _ _) oneEventHandler = _
    rw [interpretDeleteStream, hStoi]
    rfl
  have hJson : sampleRun "play 1 User x" = .threw (.json "parse error") oneEventHandler := by
    have hScan : scanLine "play 1 User x" = ⟨["play", "1", "User", "x"], false, 1⟩ := by
      decide +kernel
    have hStoi : stoi "1" = .ok 1 := by decide +kernel
    rw [sampleRun_of_scan hScan (by decide +kernel)]
    show (interpretPlayWith Sample.jsonLib 0 "1" "User" (some "x") >>= finish _ _)
      oneEventHandler = _
    rw [interpretPlayWith, hStoi]
    rfl
  refine ⟨oneEventConnection_reachable, hQuote, hRange, hJson, sampleRun_delete_prefix, ?_⟩
  intro line hLine hSafe
  obtain ⟨result, h', hReturned, -, hMalformed⟩ := hSafe
  simp only [List.mem_cons, List.not_mem_nil, or_false] at hLine
  rcases hLine with rfl | rfl | rfl | rfl
  · exact absurd (hReturned.symm.trans hQuote) (by simp)
  · exact absurd (hReturned.symm.trans hRange) (by simp)
  · exact absurd (hReturned.symm.trans hJson) (by simp)
  · obtain ⟨h'', hOk, -⟩ := sampleRun_delete_prefix
    have hSame := hReturned.symm.trans hOk
    rw [Outcome.returned.injEq] at hSame
    -- The id is no numeral, and the line is answered by `OK`.
    have hBad : Malformed Sample.jsonLib "delete_stream 1x" := by
      have hScan : wholeScan "delete_stream 1x" = ⟨["delete_stream", "1x"], false, 1⟩ := by
        decide +kernel
      right
      rw [hScan]
      show ∀ id, ["1x"] = [id] → ¬IsInt id
      rintro id hId
      rw [← (List.cons.inj hId).1, IsInt]
      decide +kernel
    have hStatus := (hMalformed hBad).1
    rw [hSame.1] at hStatus
    simp at hStatus

end Cmd
end Yess

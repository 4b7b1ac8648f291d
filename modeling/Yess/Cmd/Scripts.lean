import Yess.Cmd.Rendering
import Yess.Cmd.Session

namespace Yess
namespace Cmd

open Foundation Db Ext ActionHandler

/-!
# Scripts for the shell

A command written as a line is interpreted as that command, in whatever style its words
are written (`interpret_written`).  So a script, written line by line and followed by
`quit`, makes the shell execute the commands of the script in their order and return
(`script_runs_iff`).
-/

/-! ## Numerals -/

/-- The numeral of an `int`. -/
def decimal (n : Int32) : String :=
  match n.toInt with
  | .ofNat m => String.ofList (Nat.toDigits 10 m)
  | .negSucc m => String.ofList ('-' :: Nat.toDigits 10 (m + 1))

theorem digitsValue_toDigits (m : Nat) : digitsValue (Nat.toDigits 10 m) = m :=
  Nat.ofDigitChars_ten_toDigits

theorem all_isDigit_toDigits (m : Nat) : (Nat.toDigits 10 m).all Char.isDigit = true :=
  List.all_eq_true.mpr fun _ hMem => Nat.isDigit_of_mem_toDigits (by omega) (by omega) hMem

/-- A numeral without a sign. -/
theorem readSign_of_digits {digits : List Char} (hDigits : digits.all Char.isDigit = true) :
    readSign digits = (false, digits) := by
  cases digits with
  | nil => rfl
  | cons c rest =>
      have hDigit : c.isDigit = true := List.all_eq_true.mp hDigits c List.mem_cons_self
      have hMinus : c ≠ '-' := by
        rintro rfl
        revert hDigit
        decide
      have hPlus : c ≠ '+' := by
        rintro rfl
        revert hDigit
        decide
      unfold readSign
      split <;> simp_all

theorem numeral_decimal (n : Int32) : numeral (decimal n) = some n.toInt := by
  unfold decimal numeral
  cases n.toInt with
  | ofNat m =>
      rw [String.toList_ofList, readSign_of_digits (all_isDigit_toDigits m)]
      simp only [if_pos (And.intro (Nat.toDigits_ne_nil) (all_isDigit_toDigits m))]
      rw [digitsValue_toDigits]
      rfl
  | negSucc m =>
      have hSign : readSign ('-' :: Nat.toDigits 10 (m + 1)) = (true, Nat.toDigits 10 (m + 1)) := rfl
      rw [String.toList_ofList, hSign]
      simp only [if_pos (And.intro (Nat.toDigits_ne_nil) (all_isDigit_toDigits (m + 1)))]
      rw [digitsValue_toDigits]
      rfl

theorem fitsInt_toInt (n : Int32) : fitsInt n.toInt = true := by
  simp only [fitsInt, Bool.and_eq_true, decide_eq_true_eq]
  exact ⟨Int32.minValue_le_toInt n, Int32.toInt_le n⟩

/-- `stoi` reads the numeral back. -/
theorem stoi_decimal (n : Int32) : stoi (decimal n) = .ok n := by
  rw [stoi_of_numeral (numeral_decimal n), if_pos (fitsInt_toInt n), Int32.ofInt_toInt]

/-! ## Commands as words -/

/-- The words of a command. -/
def Command.words (J : JsonLib) : Command → List String
  | .none => []
  | .unknown => []
  | .invalid _ => []
  | .quit => ["quit"]
  | .help => ["help"]
  | .createStream type => ["create_stream", type]
  | .deleteStream id => ["delete_stream", decimal id]
  | .push request =>
      ["push", decimal request.streamId, request.type, request.payload, decimal request.version]
  | .createProjection request => ["create_projection", request.data, request.type]
  | .getStreams type => ["get_streams", type]
  | .getProjections type => ["get_projections", type]
  | .deleteProjection id => ["delete_projection", decimal id]
  | .play request => ["play", decimal request.projectionId,
      if request.type = "" then decimal request.streamId else request.type,
      J.dump request.init]

/-- The commands that a line can ask for.  A stream type in which `stoi` finds a number
would be taken for the id of a stream. -/
def Command.Expressible (J : JsonLib) : Command → Prop
  | .none => False
  | .unknown => False
  | .invalid _ => False
  | .play request =>
      (request.type ≠ "" → request.streamId = 0 ∧ ∃ ex, stoi request.type = .error ex) ∧
        J.parse (J.dump request.init) = some request.init
  | _ => True

section

variable {J : JsonLib} {σ : Type} {cmd : Command}

/-- The words are interpreted as the command. -/
theorem interpretWords_words (unset : Int32) (hExpressible : cmd.Expressible J) :
    (interpretWords J unset (commandWords (cmd.words J)).1 (commandWords (cmd.words J)).2 :
      FrontProg σ Command) = pure cmd := by
  cases cmd with
  | none => exact hExpressible.elim
  | unknown => exact hExpressible.elim
  | invalid usage => exact hExpressible.elim
  | quit => rfl
  | help => rfl
  | createStream type => rfl
  | deleteStream id =>
      show catchInvalid DeleteStream.usage (do
        let id ← Prog.ofExcept (stoi (decimal id))
        pure (.deleteStream id)) = _
      rw [stoi_decimal]
      rfl
  | push request =>
      show catchInvalid Push.usage (do
        let streamId ← Prog.ofExcept (stoi (decimal request.streamId))
        let version ← Prog.ofExcept (stoi (decimal request.version))
        pure (.push ⟨streamId, request.type, request.payload, version⟩)) = _
      rw [stoi_decimal, stoi_decimal]
      rfl
  | createProjection request => rfl
  | getStreams type => rfl
  | getProjections type => rfl
  | deleteProjection id =>
      show catchInvalid DeleteProjection.usage (do
        let id ← Prog.ofExcept (stoi (decimal id))
        pure (.deleteProjection id)) = _
      rw [stoi_decimal]
      rfl
  | play request =>
      obtain ⟨hType, hInit⟩ := hExpressible
      have hPlay := @interpretPlay_eq J σ (some (J.dump request.init)) unset
        (decimal request.projectionId)
        (if request.type = "" then decimal request.streamId else request.type)
        request.projectionId request.init (stoi_decimal _) hInit
      have hRequest : playReq unset request.projectionId
          (if request.type = "" then decimal request.streamId else request.type)
          request.init = request := by
        obtain ⟨projectionId, streamId, type, init⟩ := request
        by_cases hEmpty : type = ""
        · subst hEmpty
          rw [if_pos rfl, playReq, stoi_decimal]
        · obtain ⟨hId, ex, hStoi⟩ := hType hEmpty
          simp only at hId hStoi
          rw [if_neg hEmpty, playReq, hStoi]
          simp only [if_neg hEmpty, hId]
      rw [hRequest] at hPlay
      exact hPlay

/-- The line has the words of the command, each in one of the styles that it can be
written in, and is shorter than the largest `int`. -/
structure WrittenAs (J : JsonLib) (cmd : Command) (args : List (Style × String)) : Prop where
  words : args.map Prod.snd = cmd.words J
  writable : AllWritable args
  short : ((writeLine args).length : Int) < Int32.maxValue.toInt

/-- A written command is interpreted as the command. -/
theorem interpret_written (unset : Int32) {args : List (Style × String)}
    (hExpressible : cmd.Expressible J) (hWritten : WrittenAs J cmd args) (s : σ) :
    interpret J unset (writeLine args) s = .returned cmd s := by
  have hTokens := tokenize_writeLine_of_short s hWritten.writable hWritten.short
  have hWords : tokens (writeLine args) s = .returned (commandWords (args.map Prod.snd)) s :=
    Prog.bind_of_returned hTokens
  rw [interpret, Prog.bind_of_returned hWords, hWritten.words, interpretWords_words unset hExpressible]
  rfl

end

/-! ## Running a script -/

section

variable {J : JsonLib} {E : Duktape} {cmd : Command} {choices : Nat → Choice} {h h' : Handler E}

/-- The commands, executed one after the other, all come back, and the last of them
leaves this handler. -/
inductive Executed (J : JsonLib) {E : Duktape} :
    (Nat → Choice) → List Command → Handler E → Handler E → Prop
  | nil (choices : Nat → Choice) (h : Handler E) : Executed J choices [] h h
  | cons {choices : Nat → Choice} {cmd : Command} {cmds : List Command} {h h₁ h₂ : Handler E}
      {result : Output} (hFirst : finish J (choices 0).plan cmd h = .returned result h₁)
      (hRest : Executed J (fun n => choices (n + 1)) cmds h₁ h₂) :
      Executed J choices (cmd :: cmds) h h₂

theorem executed_nil_iff : Executed J choices [] h h' ↔ h = h' := by
  constructor
  · rintro ⟨⟩
    rfl
  · rintro rfl
    exact .nil _ _

theorem executed_cons_iff {cmds : List Command} :
    Executed J choices (cmd :: cmds) h h' ↔
      ∃ result h₁, finish J (choices 0).plan cmd h = .returned result h₁ ∧
        Executed J (fun n => choices (n + 1)) cmds h₁ h' := by
  constructor
  · rintro (_ | ⟨hFirst, hRest⟩)
    exact ⟨_, _, hFirst, hRest⟩
  · rintro ⟨result, h₁, hFirst, hRest⟩
    exact .cons hFirst hRest

theorem writeLine_ne_empty {args : List (Style × String)} (hWritten : WrittenAs J cmd args)
    (hWords : cmd.words J ≠ []) : writeLine args ≠ "" := by
  intro hEmpty
  have hTokens := tokenize_writeLine_of_short () hWritten.writable hWritten.short
  have hNone : (tokenize "" : FrontProg Unit (List String)) () = .returned [] () := by
    rw [tokenize_of_closed () (by decide +kernel) (by decide +kernel)]
    rfl
  rw [hEmpty, hNone, Outcome.returned.injEq, hWritten.words] at hTokens
  exact hWords hTokens.1.symm

theorem words_ne_nil (hExpressible : cmd.Expressible J) : cmd.words J ≠ [] := by
  cases cmd with
  | none => exact hExpressible.elim
  | unknown => exact hExpressible.elim
  | invalid usage => exact hExpressible.elim
  | _ => exact List.cons_ne_nil _ _

theorem runLine_written {args : List (Style × String)} (plan : Plan) (unset : Int32)
    (hExpressible : cmd.Expressible J) (hWritten : WrittenAs J cmd args) (h : Handler E) :
    runLine J plan unset (writeLine args) h = finish J plan cmd h :=
  Prog.bind_of_returned (interpret_written unset hExpressible hWritten h)

/-- A pass of the loop over a written command. -/
theorem pass_written {args : List (Style × String)} {choice : Choice} {lines : List String}
    (hExpressible : cmd.Expressible J) (hWritten : WrittenAs J cmd args) :
    Shell.pass J choice ⟨writeLine args :: lines, h⟩ =
      match finish J choice.plan cmd h with
      | .returned result h' => .returned (result.status = .exit) ⟨lines, h'⟩
      | .threw ex h' => .threw ex ⟨lines, h'⟩
      | .aborted => .aborted := by
  have hNonempty := writeLine_ne_empty hWritten (words_ne_nil hExpressible)
  have hLine := runLine_written choice.plan choice.unset hExpressible hWritten h
  cases hFinish : finish J choice.plan cmd h <;>
    simp only [pass_of_line choice hNonempty, hLine, hFinish]

/-- A command and its line. -/
abbrev ScriptItem : Type := Command × List (Style × String)

/-- The commands of a script can be written and are written so, and none of them
quits. -/
def IsScript (J : JsonLib) (script : List ScriptItem) : Prop :=
  ∀ item ∈ script, item.1.Expressible J ∧ item.1 ≠ .quit ∧ WrittenAs J item.1 item.2

def scriptLines (script : List ScriptItem) : List String :=
  script.map fun item => writeLine item.2

/-- The shell on the lines of a script, followed by `quit` and anything else: it ends
after the line with `quit`, with some handler, exactly when the commands of the script,
executed in their order, come back and leave this handler. -/
theorem script_runs_iff {script : List ScriptItem} (hScript : IsScript J script)
    {quitArgs : List (Style × String)} (hQuit : WrittenAs J .quit quitArgs)
    (choices : Nat → Choice) (rest : List String) (h h' : Handler E) :
    Shell.runFor J (script.length + 1) choices
        ⟨scriptLines script ++ writeLine quitArgs :: rest, h⟩ = .returned true ⟨rest, h'⟩ ↔
      Executed J choices (script.map Prod.fst) h h' := by
  induction script generalizing choices h with
  | nil =>
      have hPass := @pass_written J E .quit h quitArgs (choices 0) rest trivial hQuit
      have hExits : Shell.pass J (choices 0) ⟨writeLine quitArgs :: rest, h⟩ =
          .returned true ⟨rest, h⟩ := by
        rw [hPass]
        rfl
      show Shell.runFor J 1 choices ⟨writeLine quitArgs :: rest, h⟩ = _ ↔ _
      rw [runFor_succ, hExits]
      rw [List.map_nil, executed_nil_iff]
      simp only [Outcome.returned.injEq, true_and, ShellState.mk.injEq]
  | cons item script ih =>
      obtain ⟨cmd, args⟩ := item
      obtain ⟨hExpressible, hNotQuit, hWritten⟩ := hScript _ List.mem_cons_self
      have hRest : IsScript J script := fun item hMem => hScript item (List.mem_cons_of_mem _ hMem)
      have hPass := @pass_written J E cmd h args (choices 0)
        (scriptLines script ++ writeLine quitArgs :: rest) hExpressible hWritten
      show Shell.runFor J (script.length + 1 + 1) choices
        ⟨writeLine args :: (scriptLines script ++ writeLine quitArgs :: rest), h⟩ = _ ↔ _
      rw [runFor_succ, hPass, List.map_cons, executed_cons_iff]
      cases hFinish : finish J (choices 0).plan cmd h with
      | returned result h₁ =>
          have hGoesOn : result.status ≠ .exit := yields_finish _ hNotQuit _ _ _ hFinish
          simp only [hGoesOn, decide_false]
          rw [ih hRest]
          simp
      | threw ex h₁ => simp
      | aborted => simp

end

/-- Create a stream and push its first event. -/
def sampleScript : List ScriptItem :=
  [(.createStream "User", [(.bare, "create_stream"), (.double, "User")]),
    (.push ⟨1, "UserCreated", "{}", 1⟩, [(.bare, "push"), (.bare, "1"),
      (.single, "UserCreated"), (.double, "{}"), (.bare, "1")])]

example : scriptLines sampleScript =
    ["create_stream \"User\"", "push 1 'UserCreated' \"{}\" 1"] := by
  decide +kernel

theorem sampleScript_isScript : IsScript Sample.jsonLib sampleScript := by
  intro item hItem
  simp only [sampleScript, List.mem_cons, List.not_mem_nil, or_false] at hItem
  rcases hItem with rfl | rfl
  · exact ⟨trivial, by simp, by decide +kernel, by decide +kernel, by decide +kernel⟩
  · exact ⟨trivial, by simp, by decide +kernel, by decide +kernel, by decide +kernel⟩

theorem sampleQuit_written : WrittenAs Sample.jsonLib .quit [(.bare, "quit")] :=
  ⟨rfl, by decide +kernel, by decide +kernel⟩

def freshHandler : Handler Sample.engine := ⟨freshConnection, DukContext.fresh Sample.engine⟩

theorem sampleScript_executed :
    Executed Sample.jsonLib sampleChoices (sampleScript.map Prod.fst) freshHandler
      oneEventHandler := by
  have hCreate : finish Sample.jsonLib (sampleChoices 0).plan (.createStream "User") freshHandler =
      .returned ⟨.ok, "OK", .null⟩
        ⟨{ freshConnection with database := { freshConnection.database with
          streams := [⟨1, "User", 0⟩] } }, DukContext.fresh Sample.engine⟩ := rfl
  refine .cons hCreate ?_
  have hPush : finish Sample.jsonLib (sampleChoices 1).plan
      (.push ⟨1, "UserCreated", "{}", 1⟩)
        ⟨{ freshConnection with database := { freshConnection.database with
          streams := [⟨1, "User", 0⟩] } }, DukContext.fresh Sample.engine⟩ =
      .returned ⟨.ok, "OK", .none⟩ oneEventHandler := rfl
  exact .cons hPush (.nil _ _)

/-- The script makes a new file the store with one event. -/
theorem sampleScript_runs :
    Shell.runFor Sample.jsonLib (sampleScript.length + 1) sampleChoices
      ⟨scriptLines sampleScript ++ writeLine [(.bare, "quit")] :: [], freshHandler⟩ =
        .returned true ⟨[], oneEventHandler⟩ :=
  (script_runs_iff sampleScript_isScript sampleQuit_written sampleChoices [] _ _).mpr
    sampleScript_executed

end Cmd
end Yess

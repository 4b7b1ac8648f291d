import Yess.Cmd.LineSafety

namespace Yess
namespace Cmd

open Foundation Db Ext ActionHandler

/-!
# The loop of the shell

`Shell::run` reads a line, executes it and goes on until a command says that it should
exit.  At the end of the input `getline` leaves the line empty, and an empty line makes
the loop start over: nothing tests the stream.  So the loop comes to its end only by
`quit` (`shell_returns_iff`), and on any other input it goes round for ever.
-/

/-- The lines that were not yet read, and the handler. -/
structure ShellState (E : Duktape) where
  input : List String
  handler : Handler E

/-- What the program text leaves open in one pass of the loop: the plan of its queries,
and what an unset variable holds. -/
structure Choice where
  plan : Plan
  unset : Int32

section

variable (J : JsonLib) {E : Duktape}

/-- `std::getline` into an empty string. -/
def getline : FrontProg (ShellState E) String := fun s =>
  match s.input with
  | [] => .returned "" s
  | line :: rest => .returned line { s with input := rest }

/-- The body of the loop; the result is `should_exit`. -/
def Shell.pass (choice : Choice) : FrontProg (ShellState E) Bool := do
  let line ← getline
  if line = "" then pure false
  else do
    let result ← Prog.zoom ShellState.handler (fun h s => { s with handler := h })
      (runLine J choice.plan choice.unset line)
    pure (result.status = .exit)

/-- `Shell::run`, for a number of passes; the result says whether the loop has ended. -/
def Shell.runFor : Nat → (Nat → Choice) → FrontProg (ShellState E) Bool
  | 0, _ => pure false
  | passes + 1, choices => do
      let shouldExit ← Shell.pass J (choices 0)
      if shouldExit then pure true else Shell.runFor passes fun n => choices (n + 1)

/-- `Shell::run` returns after some number of passes, and what it has not consumed by
then is the tail of the lines. -/
def ShellReturns (choices : Nat → Choice) (lines : List String) (h : Handler E) : Prop :=
  ∃ passes s', Shell.runFor J passes choices ⟨lines, h⟩ = .returned true s' ∧
    s'.input <:+ lines

/-- `tokenize` returns the words of the line, and the first one is `quit`. -/
structure ReadsQuit (line : String) : Prop where
  indexInRange : indexOverflows line = false
  quotesClosed : (scanLine line).quoteOpen = false
  isQuit : (commandWords (scanLine line).words).1 = .quit

/-- The commands on the lines, executed one after the other, all come back. -/
def ComeBack : (Nat → Choice) → List String → Handler E → Prop
  | _, [], _ => True
  | choices, line :: rest, h =>
      if line = "" then ComeBack (fun n => choices (n + 1)) rest h
      else ∃ result h', runLine J (choices 0).plan (choices 0).unset line h =
          .returned result h' ∧ ComeBack (fun n => choices (n + 1)) rest h'

end

/-! ## Which command exits -/

section

variable {J : JsonLib} {E : Duktape}

theorem yields_catchRuntimeError (block : DbProg Data) :
    Prog.Yields (fun result => result.status ≠ .exit) (catchRuntimeError block) := by
  apply Prog.Yields.tryCatch
  · exact Prog.yields_bind fun data => Prog.yields_pure (by simp)
  · intro err
    by_cases hErr : err.isRuntimeError = true
    · rw [if_pos hErr]
      exact Prog.yields_pure (by simp)
    · rw [if_neg hErr]
      exact Prog.yields_throw _

theorem yields_createStream (type : String) :
    Prog.Yields (fun result => result.status ≠ .exit) (CreateStream.execute type) := by
  apply Prog.Yields.tryCatch
  · exact Prog.yields_bind fun _ => Prog.yields_pure (by simp)
  · exact fun _ => Prog.yields_pure (by simp)

theorem yields_push (request : PushReq) :
    Prog.Yields (fun result => result.status ≠ .exit) (Push.execute request) := by
  apply Prog.Yields.tryCatch
  · exact Prog.yields_bind fun _ => Prog.yields_pure (by simp)
  · intro err
    by_cases hErr : err.isRuntimeError = true
    · rw [if_pos hErr]
      exact Prog.yields_pure (by simp)
    · rw [if_neg hErr]
      exact Prog.yields_pure (by simp)

theorem yields_play (plan : Plan) (request : PlayReq) :
    Prog.Yields (fun result => result.status ≠ .exit)
      (Play.execute J.toJsonText plan request : HandlerProg E CommandResult) := by
  rw [Play.execute_eq]
  apply Prog.Yields.tryCatch
  · exact Prog.yields_bind fun _ => Prog.yields_pure (by simp)
  · intro err
    by_cases hErr : err.isRuntimeError = true
    · rw [if_pos hErr]
      exact Prog.yields_pure (by simp)
    · rw [if_neg hErr]
      exact Prog.yields_throw _

/-- No other command than `quit` ends the session. -/
theorem yields_execute (plan : Plan) {cmd : Command} (hCmd : cmd ≠ .quit) :
    Prog.Yields (fun result => result.status ≠ .exit)
      (cmd.execute J plan : FrontProg (Handler E) Output) := by
  have hCall : ∀ q : DbProg Output, Prog.Yields (fun result => result.status ≠ .exit) q →
      Prog.Yields (fun result => result.status ≠ .exit)
        (call (onConnection q) : FrontProg (Handler E) Output) :=
    fun q hYields => (hYields.zoom _ _).mapError _
  cases cmd with
  | none => exact Prog.yields_pure (by simp)
  | unknown => exact Prog.yields_pure (by simp)
  | quit => exact absurd rfl hCmd
  | help => exact Prog.yields_pure (by simp)
  | invalid usage => exact Prog.yields_pure (by simp)
  | createStream type => exact hCall _ (yields_createStream type)
  | deleteStream id => exact hCall _ (yields_catchRuntimeError _)
  | push request => exact hCall _ (yields_push request)
  | createProjection request => exact hCall _ (yields_catchRuntimeError _)
  | getStreams type => exact hCall _ (yields_catchRuntimeError _)
  | getProjections type => exact hCall _ (yields_catchRuntimeError _)
  | deleteProjection id => exact hCall _ (yields_catchRuntimeError _)
  | play request =>
      exact ((yields_play plan request).mapError _).bind fun result hResult =>
        Prog.yields_pure hResult

theorem yields_finish (plan : Plan) {cmd : Command} (hCmd : cmd ≠ .quit) :
    Prog.Yields (fun result => result.status ≠ .exit)
      (finish J plan cmd : FrontProg (Handler E) Output) :=
  (yields_execute plan hCmd).bind fun _ hResult =>
    Prog.yields_bind fun _ => Prog.yields_pure hResult

theorem yields_catchInvalid {property : Command → Prop} {σ : Type} {usage : String}
    {block : FrontProg σ Command} (hUsage : property (.invalid usage))
    (hBlock : Prog.Yields property block) : Prog.Yields property (catchInvalid usage block) := by
  apply hBlock.tryCatch
  intro ex
  cases ex with
  | invalidArgument message => exact Prog.yields_pure hUsage
  | std ex => exact Prog.yields_throw _
  | json message => exact Prog.yields_throw _
  | outOfRange message => exact Prog.yields_throw _

theorem yields_interpretPush {σ : Type} (streamId type payload version : String) :
    Prog.Yields (fun made => made ≠ .quit)
      (interpretPush [streamId, type, payload, version] : FrontProg σ Command) := by
  rw [interpretPush]
  refine yields_catchInvalid (by simp) ?_
  exact Prog.yields_bind fun _ => Prog.yields_bind fun _ => Prog.yields_pure (by simp)

theorem yields_interpretPlayWith {σ : Type} (unset : Int32) (projectionId target : String)
    (init : Option String) :
    Prog.Yields (fun made => made ≠ .quit)
      (interpretPlayWith J unset projectionId target init : FrontProg σ Command) := by
  rw [interpretPlayWith]
  refine yields_catchInvalid (by simp) ?_
  exact Prog.yields_bind fun _ => Prog.yields_bind fun _ => Prog.yields_pure (by simp)

/-- Only the word `quit` is made the command. -/
theorem yields_interpretWords {σ : Type} (unset : Int32) {cmd : ShellCmd} (hCmd : cmd ≠ .quit)
    (argv : List String) :
    Prog.Yields (fun made => made ≠ .quit)
      (interpretWords J unset cmd argv : FrontProg σ Command) := by
  have hUsage : ∀ usage, Prog.Yields (fun made => made ≠ .quit)
      (pure (.invalid usage) : FrontProg σ Command) := fun usage => Prog.yields_pure (by simp)
  cases cmd with
  | none => exact Prog.yields_pure (by simp)
  | unknown => exact Prog.yields_pure (by simp)
  | quit => exact absurd rfl hCmd
  | help => exact Prog.yields_pure (by simp)
  | createStream =>
      rcases argv with _ | ⟨type, _ | ⟨_, _⟩⟩
      case cons.nil => exact Prog.yields_pure (by simp)
      all_goals exact hUsage _
  | deleteStream =>
      rcases argv with _ | ⟨id, _ | ⟨_, _⟩⟩
      case cons.nil =>
        exact yields_catchInvalid (by simp) (Prog.yields_bind fun _ => Prog.yields_pure (by simp))
      all_goals exact hUsage _
  | push =>
      rcases argv with
        _ | ⟨streamId, _ | ⟨type, _ | ⟨payload, _ | ⟨version, _ | ⟨_, _⟩⟩⟩⟩⟩
      case cons.cons.cons.cons.nil =>
        exact yields_interpretPush streamId type payload version
      all_goals exact hUsage _
  | createProjection =>
      rcases argv with _ | ⟨data, _ | ⟨type, _ | ⟨_, _⟩⟩⟩
      all_goals exact Prog.yields_pure (by simp)
  | getStreams =>
      rcases argv with _ | ⟨type, _ | ⟨_, _⟩⟩
      all_goals exact Prog.yields_pure (by simp)
  | getProjections =>
      rcases argv with _ | ⟨type, _ | ⟨_, _⟩⟩
      all_goals exact Prog.yields_pure (by simp)
  | deleteProjection =>
      rcases argv with _ | ⟨id, _ | ⟨_, _⟩⟩
      case cons.nil =>
        exact yields_catchInvalid (by simp) (Prog.yields_bind fun _ => Prog.yields_pure (by simp))
      all_goals exact hUsage _
  | play =>
      rcases argv with _ | ⟨projectionId, _ | ⟨target, _ | ⟨init, _ | ⟨_, _⟩⟩⟩⟩
      case cons.cons.nil => exact yields_interpretPlayWith unset _ _ none
      case cons.cons.cons.nil => exact yields_interpretPlayWith unset _ _ (some init)
      all_goals exact hUsage _

variable {plan : Plan} {unset : Int32} {h h' : Handler E} {line : String}

theorem ReadsQuit.runLine_eq (hQuit : ReadsQuit line) :
    runLine J plan unset line h = .returned ⟨.exit, "Bye!", .none⟩ h := by
  rw [runLine_of_words hQuit.indexInRange hQuit.quotesClosed, hQuit.isQuit]
  rfl

/-- The result of a line says that the shell should exit exactly when the line reads
`quit`. -/
theorem exit_iff {result : Output} (hReturned : runLine J plan unset line h = .returned result h') :
    result.status = .exit ↔ ReadsQuit line := by
  constructor
  · intro hExit
    cases hRange : indexOverflows line with
    | true =>
        rw [runLine_of_overflow hRange] at hReturned
        simp at hReturned
    | false =>
        cases hQuotes : (scanLine line).quoteOpen with
        | true =>
            rw [runLine_of_open hRange hQuotes] at hReturned
            simp at hReturned
        | false =>
            refine ⟨hRange, hQuotes, ?_⟩
            by_contra hCmd
            rw [runLine_of_words hRange hQuotes] at hReturned
            have hMade := @yields_interpretWords J (Handler E) unset _ hCmd
              (commandWords (scanLine line).words).2
            exact (hMade.bind fun cmd hCmd => yields_finish plan hCmd) _ _ _ hReturned hExit
  · intro hQuit
    rw [hQuit.runLine_eq, Outcome.returned.injEq] at hReturned
    rw [← hReturned.1]

theorem not_readsQuit_empty : ¬ReadsQuit "" := by
  intro hQuit
  have hWords := hQuit.isQuit
  revert hWords
  decide +kernel

end

/-! ## Passes of the loop -/

section

variable {J : JsonLib} {E : Duktape} {choices : Nat → Choice} {h : Handler E} {line : String}
  {lines : List String}

/-- At the end of the input nothing happens any more. -/
theorem pass_of_end (choice : Choice) :
    Shell.pass J choice ⟨[], h⟩ = .returned false ⟨[], h⟩ := rfl

theorem pass_of_empty (choice : Choice) :
    Shell.pass J choice ⟨"" :: lines, h⟩ = .returned false ⟨lines, h⟩ := rfl

theorem pass_of_line (choice : Choice) (hLine : line ≠ "") :
    Shell.pass J choice ⟨line :: lines, h⟩ =
      match runLine J choice.plan choice.unset line h with
      | .returned result h' => .returned (result.status = .exit) ⟨lines, h'⟩
      | .threw ex h' => .threw ex ⟨lines, h'⟩
      | .aborted => .aborted := by
  have hRead : (getline : FrontProg (ShellState E) String) ⟨line :: lines, h⟩ =
      .returned line ⟨lines, h⟩ := rfl
  rw [Shell.pass, Prog.bind_of_returned hRead, if_neg hLine, Prog.bind_apply, Prog.zoom]
  cases runLine J choice.plan choice.unset line h <;> rfl

theorem runFor_succ (passes : Nat) (s : ShellState E) :
    Shell.runFor J (passes + 1) choices s =
      match Shell.pass J (choices 0) s with
      | .returned true s' => .returned true s'
      | .returned false s' => Shell.runFor J passes (fun n => choices (n + 1)) s'
      | .threw ex s' => .threw ex s'
      | .aborted => .aborted := by
  rw [Shell.runFor, Prog.bind_apply]
  cases Shell.pass J (choices 0) s with
  | returned shouldExit s' => cases shouldExit <;> rfl
  | threw ex s' => rfl
  | aborted => rfl

theorem pass_suffix {choice : Choice} {s s' : ShellState E} {exits : Bool}
    (hPass : Shell.pass J choice s = .returned exits s') : s'.input <:+ s.input := by
  obtain ⟨input, h⟩ := s
  cases input with
  | nil =>
      rw [pass_of_end, Outcome.returned.injEq] at hPass
      obtain ⟨-, rfl⟩ := hPass
      exact List.suffix_rfl
  | cons line lines =>
      have hSuffix : lines <:+ line :: lines := List.suffix_cons line lines
      by_cases hLine : line = ""
      · subst hLine
        rw [pass_of_empty, Outcome.returned.injEq] at hPass
        rw [← hPass.2]
        exact hSuffix
      · rw [pass_of_line choice hLine] at hPass
        cases hRun : runLine J choice.plan choice.unset line h with
        | returned result h' =>
            rw [hRun, Outcome.returned.injEq] at hPass
            rw [← hPass.2]
            exact hSuffix
        | threw ex h' => simp [hRun] at hPass
        | aborted => simp [hRun] at hPass

/-- The lines are consumed in their order. -/
theorem runFor_suffix {passes : Nat} {choices : Nat → Choice} {s s' : ShellState E} {ended : Bool}
    (hRun : Shell.runFor J passes choices s = .returned ended s') : s'.input <:+ s.input := by
  induction passes generalizing choices s with
  | zero =>
      obtain rfl : s = s' := (Outcome.returned.inj hRun).2
      exact List.suffix_rfl
  | succ passes ih =>
      rw [runFor_succ] at hRun
      cases hPass : Shell.pass J (choices 0) s with
      | returned exits s₁ =>
          have hFirst := pass_suffix hPass
          rw [hPass] at hRun
          cases exits with
          | true =>
              rw [← (Outcome.returned.inj hRun).2]
              exact hFirst
          | false => exact (ih hRun).trans hFirst
      | threw ex s₁ => simp [hPass] at hRun
      | aborted => simp [hPass] at hRun

theorem shellReturns_iff_ends :
    ShellReturns J choices lines h ↔
      ∃ passes s', Shell.runFor J passes choices ⟨lines, h⟩ = .returned true s' := by
  constructor
  · rintro ⟨passes, s', hRun, -⟩
    exact ⟨passes, s', hRun⟩
  · rintro ⟨passes, s', hRun⟩
    exact ⟨passes, s', hRun, runFor_suffix hRun⟩

/-- Once the input is at its end, the loop does not end. -/
theorem runFor_of_end (passes : Nat) (choices : Nat → Choice) :
    Shell.runFor J passes choices ⟨[], h⟩ = .returned false ⟨[], h⟩ := by
  induction passes generalizing choices with
  | zero => rfl
  | succ passes ih =>
      rw [runFor_succ, pass_of_end]
      exact ih _

theorem not_shellReturns_nil : ¬ShellReturns J choices [] h := by
  rintro ⟨passes, s', hRun, -⟩
  rw [runFor_of_end] at hRun
  simp at hRun

/-- After a pass that does not exit, the run ends when the run from there does. -/
theorem shellReturns_of_pass {rest : List String} {h' : Handler E}
    (hPass : Shell.pass J (choices 0) ⟨lines, h⟩ = .returned false ⟨rest, h'⟩) :
    ShellReturns J choices lines h ↔ ShellReturns J (fun n => choices (n + 1)) rest h' := by
  rw [shellReturns_iff_ends, shellReturns_iff_ends]
  constructor
  · rintro ⟨passes, s', hRun⟩
    cases passes with
    | zero => simp [Shell.runFor] at hRun
    | succ passes =>
        rw [runFor_succ, hPass] at hRun
        exact ⟨passes, s', hRun⟩
  · rintro ⟨passes, s', hRun⟩
    refine ⟨passes + 1, s', ?_⟩
    rw [runFor_succ, hPass]
    exact hRun

theorem shellReturns_of_exit {s' : ShellState E}
    (hPass : Shell.pass J (choices 0) ⟨lines, h⟩ = .returned true s') :
    ShellReturns J choices lines h := by
  rw [shellReturns_iff_ends]
  exact ⟨1, s', by rw [runFor_succ, hPass]⟩

/-- A run that ends has a first pass that returns. -/
theorem ShellReturns.pass (hReturns : ShellReturns J choices lines h) :
    ∃ exits s', Shell.pass J (choices 0) ⟨lines, h⟩ = .returned exits s' := by
  obtain ⟨passes, s', hRun, -⟩ := hReturns
  cases passes with
  | zero => simp [Shell.runFor] at hRun
  | succ passes =>
      rw [runFor_succ] at hRun
      cases hPass : Shell.pass J (choices 0) ⟨lines, h⟩ with
      | returned exits s₁ => exact ⟨exits, s₁, rfl⟩
      | threw ex s₁ => simp [hPass] at hRun
      | aborted => simp [hPass] at hRun

/-- A line that is not empty. -/
theorem shellReturns_of_line (hLine : line ≠ "") :
    ShellReturns J choices (line :: lines) h ↔
      ReadsQuit line ∨ ∃ result h', runLine J (choices 0).plan (choices 0).unset line h =
        .returned result h' ∧ ShellReturns J (fun n => choices (n + 1)) lines h' := by
  have hPass := @pass_of_line J E h line lines (choices 0) hLine
  constructor
  · intro hReturns
    obtain ⟨exits, s', hFirst⟩ := hReturns.pass
    cases hRun : runLine J (choices 0).plan (choices 0).unset line h with
    | returned result h' =>
        by_cases hExit : result.status = .exit
        · exact Or.inl ((exit_iff hRun).mp hExit)
        · have hNext : Shell.pass J (choices 0) ⟨line :: lines, h⟩ = .returned false ⟨lines, h'⟩ := by
            rw [hPass, hRun]
            simp [hExit]
          exact Or.inr ⟨result, h', rfl, (shellReturns_of_pass hNext).mp hReturns⟩
    | threw ex h' => simp [hPass, hRun] at hFirst
    | aborted => simp [hPass, hRun] at hFirst
  · rintro (hQuit | ⟨result, h', hRun, hRest⟩)
    · have hExits : Shell.pass J (choices 0) ⟨line :: lines, h⟩ = .returned true ⟨lines, h⟩ := by
        rw [hPass, hQuit.runLine_eq]
        rfl
      exact shellReturns_of_exit hExits
    · by_cases hExit : result.status = .exit
      · have hExits : Shell.pass J (choices 0) ⟨line :: lines, h⟩ = .returned true ⟨lines, h'⟩ := by
          rw [hPass, hRun]
          simp [hExit]
        exact shellReturns_of_exit hExits
      · have hNext : Shell.pass J (choices 0) ⟨line :: lines, h⟩ = .returned false ⟨lines, h'⟩ := by
          rw [hPass, hRun]
          simp [hExit]
        exact (shellReturns_of_pass hNext).mpr hRest

/-- A quit among the lines is the first line, or is among the others. -/
theorem exists_quit_cons :
    (∃ before quit after, line :: lines = before ++ quit :: after ∧ ReadsQuit quit ∧
        ComeBack J choices before h) ↔
      ReadsQuit line ∨ ∃ before quit after, lines = before ++ quit :: after ∧ ReadsQuit quit ∧
        ComeBack J choices (line :: before) h := by
  constructor
  · rintro ⟨before, quit, after, hLines, hQuit, hBack⟩
    cases before with
    | nil =>
        rw [List.nil_append, List.cons.injEq] at hLines
        rw [← hLines.1] at hQuit
        exact Or.inl hQuit
    | cons first before =>
        rw [List.cons_append, List.cons.injEq] at hLines
        rw [← hLines.1] at hBack
        exact Or.inr ⟨before, quit, after, hLines.2, hQuit, hBack⟩
  · rintro (hQuit | ⟨before, quit, after, rfl, hQuit, hBack⟩)
    · exact ⟨[], line, lines, rfl, hQuit, trivial⟩
    · exact ⟨line :: before, quit, after, rfl, hQuit, hBack⟩

/-- For every sequence of lines followed by the end of the input, and whatever the store:
`Shell::run` returns exactly when one of the lines reads `quit` and the commands before
it come back. -/
theorem shell_returns_iff (J : JsonLib) (choices : Nat → Choice) (lines : List String)
    (h : Handler E) :
    ShellReturns J choices lines h ↔
      ∃ before quit after, lines = before ++ quit :: after ∧ ReadsQuit quit ∧
        ComeBack J choices before h := by
  induction lines generalizing choices h with
  | nil => simp [not_shellReturns_nil]
  | cons line lines ih =>
      rw [exists_quit_cons]
      by_cases hLine : line = ""
      · subst hLine
        rw [shellReturns_of_pass (pass_of_empty (choices 0)), ih,
          or_iff_right not_readsQuit_empty]
        simp only [ComeBack, if_true]
      · rw [shellReturns_of_line hLine]
        apply or_congr_right
        simp only [ComeBack, if_neg hLine, ih]
        constructor
        · rintro ⟨result, h', hRun, before, quit, after, hLines, hQuit, hBack⟩
          exact ⟨before, quit, after, hLines, hQuit, result, h', hRun, hBack⟩
        · rintro ⟨before, quit, after, hLines, hQuit, result, h', hRun, hBack⟩
          exact ⟨result, h', hRun, before, quit, after, hLines, hQuit, hBack⟩

end

/-- The same plan and the same unset value in every pass. -/
def sampleChoices : Nat → Choice := fun _ => ⟨⟨.streamsOuter, .rowid⟩, 0⟩

theorem scanLine_help : scanLine "help" = ⟨["help"], false, 1⟩ := by decide +kernel

theorem runLine_help : runLine Sample.jsonLib ⟨.streamsOuter, .rowid⟩ 0 "help" oneEventHandler =
    .returned ⟨.ok, helpMessage, .none⟩ oneEventHandler := by
  have hRange : indexOverflows "help" = false := by decide +kernel
  have hClosed : (scanLine "help").quoteOpen = false := by rw [scanLine_help]
  rw [runLine_of_words hRange hClosed, scanLine_help]
  rfl

/-- After `help` the input is at its end, the command came back, and the loop goes on,
however many passes it is given. -/
theorem shell_spins_at_end :
    ComeBack Sample.jsonLib sampleChoices ["help"] oneEventHandler ∧
      (∀ passes, 0 < passes → Shell.runFor Sample.jsonLib passes sampleChoices
        ⟨["help"], oneEventHandler⟩ = .returned false ⟨[], oneEventHandler⟩) ∧
      ¬ShellReturns Sample.jsonLib sampleChoices ["help"] oneEventHandler := by
  have hPass : Shell.pass Sample.jsonLib (sampleChoices 0) ⟨["help"], oneEventHandler⟩ =
      .returned false ⟨[], oneEventHandler⟩ := by
    rw [pass_of_line _ (by decide), sampleChoices, runLine_help]
    rfl
  refine ⟨?_, ?_, ?_⟩
  · rw [ComeBack, if_neg (by decide)]
    exact ⟨_, _, runLine_help, trivial⟩
  · intro passes hPos
    obtain ⟨n, rfl⟩ := Nat.exists_eq_add_one_of_ne_zero hPos.ne'
    rw [runFor_succ, hPass]
    exact runFor_of_end n _
  · intro hReturns
    have hIff := @shellReturns_of_pass _ _ sampleChoices _ _ _ _ hPass
    exact not_shellReturns_nil (hIff.mp hReturns)

end Cmd
end Yess

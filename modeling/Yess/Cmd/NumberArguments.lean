import Yess.Cmd.PlayAgreement
import Yess.Cmd.TokenCoverage

namespace Yess
namespace Cmd

open Foundation Db Ext ActionHandler

/-!
# Numbers in the arguments of commands

Four commands take numbers: `delete_stream`, `delete_projection`, `push` and `play`.  A
text in the place of a number should be a numeral in full, or the line be refused; the
target of a play is a stream id if it is a numeral in full, and a type otherwise.  The
commands leave it to `stoi` to tell, which takes a number at the head of any text, and
which throws an exception of another class when that number is out of range.
`acts_as_written_iff` says for which lines the two agree.
-/

/-! ## What the words say -/

/-- The stream that the target of a play names. -/
def writtenTarget (target : String) : StreamRef :=
  match intNumeral target with
  | some n => .id n
  | none => .type target

section

variable (J : JsonLib) {E : Duktape} (plan : Plan) (h : Handler E)
  (p : FrontProg (Handler E) Command)

/-- The line is answered by `Invalid`, and nothing is changed. -/
def Refused : Prop :=
  ∃ usage output, p h = .returned (.invalid usage) h ∧
    Command.execute J plan (.invalid usage) h = .returned output h

def PlaysAsWritten (projectionId target : String) (init : Option String) : Prop :=
  match intNumeral projectionId with
  | none => Refused J plan h p
  | some n => ∀ value, initialValue J init = some value → ∃ request,
      p h = .returned (.play request) h ∧
        request.toPlayRequest = ⟨n, value, writtenTarget target, "projection"⟩

/-- What is made of the words acts on the numbers that are written in full, and on
nothing if another text stands in the place of one. -/
def ActsAsWritten : ShellCmd → List String → Prop
  | .deleteStream, [id] =>
      match intNumeral id with
      | some n => p h = .returned (.deleteStream n) h
      | none => Refused J plan h p
  | .deleteProjection, [id] =>
      match intNumeral id with
      | some n => p h = .returned (.deleteProjection n) h
      | none => Refused J plan h p
  | .push, [streamId, type, payload, version] =>
      match intNumeral streamId, intNumeral version with
      | some n, some m => p h = .returned (.push ⟨n, type, payload, m⟩) h
      | _, _ => Refused J plan h p
  | .play, [projectionId, target] => PlaysAsWritten J plan h p projectionId target none
  | .play, [projectionId, target, init] =>
      PlaysAsWritten J plan h p projectionId target (some init)
  | .deleteStream, _ => Refused J plan h p
  | .deleteProjection, _ => Refused J plan h p
  | .push, _ => Refused J plan h p
  | .play, _ => Refused J plan h p
  | _, _ => True

/-- `Shell::interpret` does so with the line, whatever the unset variable holds. -/
def LineActsAsWritten (unset : Int32) (line : String) : Prop :=
  ∀ words h', tokens line h = .returned words h' →
    ActsAsWritten J plan h (interpret J unset line) words.1 words.2

end

/-! ## When the code tells -/

/-- The digits at the head of the text, behind white space and a sign. -/
def leadingDigits (text : String) : List Char :=
  (readSign (text.toList.dropWhile isSpace)).2.takeWhile Char.isDigit

/-- The number that they stand for. -/
def leadingNumber (text : String) : Int :=
  signed (readSign (text.toList.dropWhile isSpace)).1 (digitsValue (leadingDigits text))

def NoNumber (text : String) : Prop := leadingDigits text = []

def LeadsWithInt (text : String) : Prop := ¬NoNumber text ∧ fitsInt (leadingNumber text) = true

/-- A target that is not a numeral does not start with the numeral of an `int`, and is
not empty. -/
def TargetClear (target : String) : Prop :=
  IsInt target ∨ target ≠ "" ∧ ¬LeadsWithInt target

def PlayClear (J : JsonLib) (projectionId target : String) (init : Option String) : Prop :=
  NoNumber projectionId ∨
    IsInt projectionId ∧ ((initialValue J init).isSome → TargetClear target)

/-- In the place of a number stands a numeral of an `int`, or a text that does not start
with digits.  The version of a push is not looked at when there is no number in the place
of the stream id, and if there is none in the place of the version, the stream id need
only start with one. -/
def NumbersClear (J : JsonLib) : ShellCmd → List String → Prop
  | .deleteStream, [id] => IsInt id ∨ NoNumber id
  | .deleteProjection, [id] => IsInt id ∨ NoNumber id
  | .push, [streamId, _, _, version] =>
      NoNumber streamId ∨ LeadsWithInt streamId ∧ NoNumber version ∨
        IsInt streamId ∧ IsInt version
  | .play, [projectionId, target] => PlayClear J projectionId target none
  | .play, [projectionId, target, init] => PlayClear J projectionId target (some init)
  | _, _ => True

/-- The line is none for `tokenize`, or its numbers are clear. -/
def LineClear (J : JsonLib) (line : String) : Prop :=
  indexOverflows line = false → (scanLine line).quoteOpen = false →
    NumbersClear J (commandWords (scanLine line).words).1 (commandWords (scanLine line).words).2

/-! ## Numbers -/

theorem stoi_eq (text : String) :
    stoi text = if leadingDigits text = [] then .error (.invalidArgument "stoi")
      else if fitsInt (leadingNumber text) then .ok (Int32.ofInt (leadingNumber text))
      else .error (.outOfRange "stoi") := rfl

theorem stoi_invalid_iff (text : String) :
    stoi text = .error (.invalidArgument "stoi") ↔ NoNumber text := by
  rw [stoi_eq, NoNumber]
  by_cases hDigits : leadingDigits text = []
  · simp [hDigits]
  · by_cases hFits : fitsInt (leadingNumber text) = true <;> simp [hDigits, hFits]

theorem stoi_ok_iff (text : String) : (∃ n, stoi text = .ok n) ↔ LeadsWithInt text := by
  rw [stoi_eq, LeadsWithInt, NoNumber]
  by_cases hDigits : leadingDigits text = []
  · simp [hDigits]
  · by_cases hFits : fitsInt (leadingNumber text) = true <;> simp [hDigits, hFits]

theorem isInt_iff (text : String) : IsInt text ↔ ∃ n, intNumeral text = some n :=
  Option.isSome_iff_exists

/-- A text in the place of a number. -/
inductive NumberText (text : String) : Prop
  /-- It is a numeral in full. -/
  | full (n : Int32) (hFull : intNumeral text = some n) (hStoi : stoi text = .ok n)
      (hLeads : LeadsWithInt text) (hSome : ¬NoNumber text)
  | noNumber (hNot : intNumeral text = none) (hStoi : stoi text = .error (.invalidArgument "stoi"))
      (hLeads : ¬LeadsWithInt text) (hNone : NoNumber text)
  /-- There is more around the number. -/
  | more (n : Int32) (hNot : intNumeral text = none) (hStoi : stoi text = .ok n)
      (hLeads : LeadsWithInt text) (hSome : ¬NoNumber text)
  | outOfRange (hNot : intNumeral text = none) (hStoi : stoi text = .error (.outOfRange "stoi"))
      (hLeads : ¬LeadsWithInt text) (hSome : ¬NoNumber text)

theorem numberText (text : String) : NumberText text := by
  have hInvalid := stoi_invalid_iff text
  have hOk := stoi_ok_iff text
  cases hNumeral : intNumeral text with
  | some n =>
      have hStoi := stoi_of_intNumeral hNumeral
      exact .full n hNumeral hStoi (hOk.mp ⟨n, hStoi⟩) (by rw [← hInvalid, hStoi]; simp)
  | none =>
      rcases stoi_cases text with ⟨n, hStoi⟩ | hStoi | hStoi
      · exact .more n hNumeral hStoi (hOk.mp ⟨n, hStoi⟩) (by rw [← hInvalid, hStoi]; simp)
      · exact .noNumber hNumeral hStoi (by rw [← hOk, hStoi]; simp) (hInvalid.mp hStoi)
      · exact .outOfRange hNumeral hStoi (by rw [← hOk, hStoi]; simp)
          (by rw [← hInvalid, hStoi]; simp)

/-! ## One number -/

section

variable {J : JsonLib} {E : Duktape} {plan : Plan} {h : Handler E}
  {p : FrontProg (Handler E) Command} {usage text : String}

theorem refused_invalid (hInvalid : p h = .returned (.invalid usage) h) : Refused J plan h p :=
  ⟨usage, _, hInvalid, rfl⟩

theorem not_refused_of_returned {cmd : Command} (hReturned : p h = .returned cmd h)
    (hActs : ∀ usage, cmd ≠ .invalid usage) : ¬Refused J plan h p := by
  rintro ⟨usage, output, hInvalid, -⟩
  rw [hReturned, Outcome.returned.injEq] at hInvalid
  exact hActs usage hInvalid.1

theorem not_refused_of_threw {ex : FrontExn} {h' : Handler E} (hThrew : p h = .threw ex h') :
    ¬Refused J plan h p := by
  rintro ⟨usage, output, hInvalid, -⟩
  rw [hThrew] at hInvalid
  simp at hInvalid

section

variable {σ : Type} (block : Int32 → FrontProg σ Command)

theorem catchInvalid_of_ok {n : Int32} (hStoi : stoi text = .ok n) :
    catchInvalid usage (do
      let n ← Prog.ofExcept (stoi text)
      block n) = catchInvalid usage (block n) := by
  rw [hStoi]
  rfl

theorem catchInvalid_of_invalid (hStoi : stoi text = .error (.invalidArgument "stoi")) :
    catchInvalid usage (do
      let n ← Prog.ofExcept (stoi text)
      block n) = pure (.invalid usage) := by
  rw [hStoi]
  rfl

theorem catchInvalid_of_outOfRange (hStoi : stoi text = .error (.outOfRange "stoi")) :
    catchInvalid usage (do
      let n ← Prog.ofExcept (stoi text)
      block n) = Prog.throw (.outOfRange "stoi") := by
  rw [hStoi]
  rfl

end

/-- A command with one number is refused exactly when `stoi` finds none. -/
theorem refused_iff_noNumber (make : Int32 → Command) (hMake : ∀ n usage, make n ≠ .invalid usage)
    (hp : p = catchInvalid usage (do
      let n ← Prog.ofExcept (stoi text)
      pure (make n))) : Refused J plan h p ↔ NoNumber text := by
  cases numberText text with
  | full n _ hStoi _ hSome =>
      rw [catchInvalid_of_ok _ hStoi] at hp
      have hReturned : p h = .returned (make n) h := by rw [hp]; rfl
      exact iff_of_false (not_refused_of_returned hReturned (hMake n)) hSome
  | noNumber _ hStoi _ hNone =>
      rw [catchInvalid_of_invalid _ hStoi] at hp
      exact iff_of_true (refused_invalid (by rw [hp]; rfl)) hNone
  | more n _ hStoi _ hSome =>
      rw [catchInvalid_of_ok _ hStoi] at hp
      have hReturned : p h = .returned (make n) h := by rw [hp]; rfl
      exact iff_of_false (not_refused_of_returned hReturned (hMake n)) hSome
  | outOfRange _ hStoi _ hSome =>
      rw [catchInvalid_of_outOfRange _ hStoi] at hp
      have hThrew : p h = .threw (.outOfRange "stoi") h := by rw [hp]; rfl
      exact iff_of_false (not_refused_of_threw hThrew) hSome

theorem one_number_iff (make : Int32 → Command) (hMake : ∀ n usage, make n ≠ .invalid usage)
    (hp : p = catchInvalid usage (do
      let n ← Prog.ofExcept (stoi text)
      pure (make n))) :
    (match intNumeral text with
      | some n => p h = .returned (make n) h
      | none => Refused J plan h p) ↔ IsInt text ∨ NoNumber text := by
  rw [isInt_iff]
  cases hNumeral : intNumeral text with
  | some n =>
      rw [catchInvalid_of_ok _ (stoi_of_intNumeral hNumeral)] at hp
      exact iff_of_true (by rw [hp]; rfl) (Or.inl ⟨n, rfl⟩)
  | none =>
      refine (refused_iff_noNumber make hMake hp).trans ?_
      simp

theorem refused_of_delete {id : String} (hActs : ActsAsWritten J plan h p .deleteStream [id])
    (hNot : intNumeral id = none) : Refused J plan h p := by
  rw [ActsAsWritten, hNot] at hActs
  exact hActs

/-! ## Push -/

theorem push_iff {streamId type payload version : String}
    (hp : p = interpretPush [streamId, type, payload, version]) :
    ActsAsWritten J plan h p .push [streamId, type, payload, version] ↔
      NumbersClear J .push [streamId, type, payload, version] := by
  rw [interpretPush] at hp
  simp only [ActsAsWritten, NumbersClear, isInt_iff]
  cases numberText streamId with
  | full n hFull hStoi hLeads hSome =>
      rw [catchInvalid_of_ok _ hStoi] at hp
      rw [hFull]
      -- What is left is a command with one number.
      have hOne := @one_number_iff J E plan h p Push.usage version
        (fun m => .push ⟨n, type, payload, m⟩) (by simp) hp
      rw [isInt_iff] at hOne
      simp only [hSome, hLeads, false_or, true_and]
      cases hVersion : intNumeral version with
      | some m =>
          rw [hVersion] at hOne
          refine hOne.trans ?_
          simp
      | none =>
          rw [hVersion] at hOne
          refine hOne.trans ?_
          simp
  | noNumber hNot hStoi hLeads hNone =>
      rw [catchInvalid_of_invalid _ hStoi] at hp
      rw [hNot]
      exact iff_of_true (refused_invalid (by rw [hp]; rfl)) (Or.inl hNone)
  | more n hNot hStoi hLeads hSome =>
      rw [catchInvalid_of_ok _ hStoi] at hp
      rw [hNot]
      simp only [hSome, hLeads, false_or, true_and, reduceCtorEq, exists_false, false_and, or_false]
      exact refused_iff_noNumber (fun m => .push ⟨n, type, payload, m⟩) (by simp) hp
  | outOfRange hNot hStoi hLeads hSome =>
      rw [catchInvalid_of_outOfRange _ hStoi] at hp
      have hThrew : p h = .threw (.outOfRange "stoi") h := by rw [hp]; rfl
      rw [hNot]
      exact iff_of_false (not_refused_of_threw hThrew) (by simp [hSome, hLeads])

/-! ## Play -/

/-- The target is taken as it is written exactly when it is clear. -/
theorem playReq_written_iff (unset n : Int32) (target : String) (value : Json) :
    (playReq unset n target value).toPlayRequest =
        ⟨n, value, writtenTarget target, "projection"⟩ ↔ TargetClear target := by
  rw [TargetClear, isInt_iff, writtenTarget]
  by_cases hEmpty : target = ""
  · subst hEmpty
    have hNumeral : intNumeral "" = none := by decide +kernel
    have hStoi : stoi "" = .error (.invalidArgument "stoi") := by decide +kernel
    rw [hNumeral, playReq, hStoi]
    exact iff_of_false (by simp [PlayReq.toPlayRequest]) (by simp)
  · rw [playReq_toPlayRequest unset n value hEmpty, shellTarget]
    cases numberText target with
    | full m hFull hStoi hLeads hSome =>
        rw [hFull, hStoi]
        simp
    | noNumber hNot hStoi hLeads hNone =>
        rw [hNot, hStoi]
        simp [hEmpty, hLeads]
    | more m hNot hStoi hLeads hSome =>
        rw [hNot, hStoi]
        simp [hLeads]
    | outOfRange hNot hStoi hLeads hSome =>
        rw [hNot, hStoi]
        simp [hEmpty, hLeads]

theorem play_iff (unset : Int32) {projectionId target : String} {init : Option String}
    (hp : p = interpretPlayWith J unset projectionId target init) :
    PlaysAsWritten J plan h p projectionId target init ↔ PlayClear J projectionId target init := by
  rw [interpretPlayWith] at hp
  rw [PlaysAsWritten, PlayClear, isInt_iff]
  cases numberText projectionId with
  | full n hFull hStoi hLeads hSome =>
      rw [catchInvalid_of_ok _ hStoi] at hp
      rw [hFull]
      simp only [hSome, false_or, Option.some.injEq, exists_eq', true_and]
      cases hValue : initialValue J init with
      | none => simp
      | some value =>
          rw [initialState_of_some hValue] at hp
          have hReturned : p h = .returned (.play (playReq unset n target value)) h := by
            rw [hp]
            rfl
          have hTarget := playReq_written_iff unset n target value
          simp only [Option.some.injEq, forall_eq', Option.isSome_some, forall_const]
          rw [← hTarget]
          constructor
          · rintro ⟨request, hPlay, hRequest⟩
            rw [hReturned, Outcome.returned.injEq, Command.play.injEq] at hPlay
            rw [hPlay.1]
            exact hRequest
          · intro hRequest
            exact ⟨_, hReturned, hRequest⟩
  | noNumber hNot hStoi hLeads hNone =>
      rw [catchInvalid_of_invalid _ hStoi] at hp
      rw [hNot]
      exact iff_of_true (refused_invalid (by rw [hp]; rfl)) (Or.inl hNone)
  | more n hNot hStoi hLeads hSome =>
      rw [catchInvalid_of_ok _ hStoi] at hp
      rw [hNot]
      refine iff_of_false ?_ (by simp [hSome])
      cases hValue : initialValue J init with
      | some value =>
          rw [initialState_of_some hValue] at hp
          have hReturned : p h = .returned (.play (playReq unset n target value)) h := by
            rw [hp]
            rfl
          exact not_refused_of_returned hReturned (by simp)
      | none =>
          obtain ⟨message, hThrow⟩ := @initialState_of_none J (Handler E) init hValue
          rw [hThrow] at hp
          have hThrew : p h = .threw (.json message) h := by rw [hp]; rfl
          exact not_refused_of_threw hThrew
  | outOfRange hNot hStoi hLeads hSome =>
      rw [catchInvalid_of_outOfRange _ hStoi] at hp
      have hThrew : p h = .threw (.outOfRange "stoi") h := by rw [hp]; rfl
      rw [hNot]
      exact iff_of_false (not_refused_of_threw hThrew) (by simp [hSome])

theorem written_of_play {projectionId target : String}
    (hActs : ActsAsWritten J plan h p .play [projectionId, target]) :
    PlaysAsWritten J plan h p projectionId target none := hActs

/-! ## Lines -/

/-- Every command, with any number of arguments. -/
theorem words_act_as_written_iff (unset : Int32) (cmd : ShellCmd) (argv : List String)
    (hp : p = interpretWords J unset cmd argv) :
    ActsAsWritten J plan h p cmd argv ↔ NumbersClear J cmd argv := by
  have hUsage : ∀ usage, p = pure (.invalid usage) → Refused J plan h p := by
    intro usage hInvalid
    exact refused_invalid (by rw [hInvalid]; rfl)
  cases cmd with
  | deleteStream =>
      rcases argv with _ | ⟨id, _ | ⟨_, _⟩⟩
      case cons.nil => exact one_number_iff .deleteStream (by simp) hp
      all_goals exact iff_of_true (hUsage _ hp) trivial
  | deleteProjection =>
      rcases argv with _ | ⟨id, _ | ⟨_, _⟩⟩
      case cons.nil => exact one_number_iff .deleteProjection (by simp) hp
      all_goals exact iff_of_true (hUsage _ hp) trivial
  | push =>
      rcases argv with
        _ | ⟨streamId, _ | ⟨type, _ | ⟨payload, _ | ⟨version, _ | ⟨_, _⟩⟩⟩⟩⟩
      case cons.cons.cons.cons.nil => exact push_iff hp
      all_goals exact iff_of_true (hUsage _ hp) trivial
  | play =>
      rcases argv with _ | ⟨projectionId, _ | ⟨target, _ | ⟨init, _ | ⟨_, _⟩⟩⟩⟩
      case cons.cons.nil => exact play_iff unset hp
      case cons.cons.cons.nil => exact play_iff unset hp
      all_goals exact iff_of_true (hUsage _ hp) trivial
  | _ => exact Iff.rfl

/-- For every line and every store: the shell acts on the numbers that are written, and
refuses the line where something else stands in the place of one, exactly when the
numbers of the line are clear. -/
theorem acts_as_written_iff (J : JsonLib) (plan : Plan) (h : Handler E) (unset : Int32)
    (line : String) : LineActsAsWritten J plan h unset line ↔ LineClear J line := by
  unfold LineActsAsWritten LineClear
  cases hRange : indexOverflows line with
  | true =>
      have hTokens : tokens line h = .aborted := by
        rw [tokens, Prog.bind_of_aborted (tokenize_of_overflow h hRange)]
      simp [hTokens]
  | false =>
      cases hQuotes : (scanLine line).quoteOpen with
      | true =>
          have hTokens : tokens line h = .threw (.std (.runtimeError "One of the quotes is open")) h := by
            rw [tokens, Prog.bind_of_threw (tokenize_of_open h hRange hQuotes)]
          simp [hTokens]
      | false =>
          have hTokens : (tokens line : FrontProg (Handler E) (ShellCmd × List String)) =
              pure (commandWords (scanLine line).words) := by
            rw [tokens, tokenize, if_neg (by simp [hRange]), if_neg (by simp [hQuotes]), pure_bind]
          have hInterpret : (interpret J unset line : FrontProg (Handler E) Command) =
              interpretWords J unset (commandWords (scanLine line).words).1
                (commandWords (scanLine line).words).2 := by
            rw [interpret, hTokens, pure_bind]
          have hIff := @words_act_as_written_iff J E plan h _ unset _ _ hInterpret
          rw [hTokens]
          constructor
          · intro hActs _ _
            exact hIff.mp (hActs _ _ rfl)
          · intro hClear words h' hReturned
            rw [Prog.pure_apply, Outcome.returned.injEq] at hReturned
            rw [← hReturned.1]
            exact hIff.mpr (hClear rfl rfl)

end

/-- What the shell makes of a line on the store with one event. -/
def sampleInterpret (unset : Int32) (line : String) :
    Outcome FrontExn (Handler Sample.engine) Command :=
  interpret Sample.jsonLib unset line oneEventHandler

theorem sampleInterpret_of_scan {line : String} {words : List String} {past : Nat}
    (hScan : scanLine line = ⟨words, false, past⟩) (hRange : indexOverflows line = false)
    (unset : Int32) :
    sampleInterpret unset line = interpretWords Sample.jsonLib unset (commandWords words).1
      (commandWords words).2 oneEventHandler := by
  rw [sampleInterpret, interpret, tokens, tokenize, if_neg (by simp [hRange]),
    if_neg (by simp [hScan]), pure_bind, pure_bind, hScan]

theorem LineActsAsWritten.of_scan {line : String} {words : List String} {past : Nat} {unset : Int32}
    (hActs : LineActsAsWritten Sample.jsonLib ⟨.streamsOuter, .rowid⟩ oneEventHandler unset line)
    (hScan : scanLine line = ⟨words, false, past⟩) (hRange : indexOverflows line = false) :
    ActsAsWritten Sample.jsonLib ⟨.streamsOuter, .rowid⟩ oneEventHandler
      (interpret Sample.jsonLib unset line) (commandWords words).1 (commandWords words).2 := by
  apply hActs
  rw [tokens, tokenize, if_neg (by simp [hRange]), if_neg (by simp [hScan]), hScan]
  rfl

/-- `1x` deletes stream 1, a number out of range ends the session, and a play of the
empty type plays whatever stream the unset variable names. -/
theorem near_numbers_taken :
    sampleInterpret 0 "delete_stream 1x" = .returned (.deleteStream 1) oneEventHandler ∧
      (∃ h', runLine Sample.jsonLib ⟨.streamsOuter, .rowid⟩ 0 "delete_stream 1x"
          oneEventHandler = .returned ⟨.ok, "OK", .null⟩ h' ∧
        h'.connection.database.streams = []) ∧
      sampleInterpret 0 "delete_stream 3000000000" =
        .threw (.outOfRange "stoi") oneEventHandler ∧
      (∀ unset, sampleInterpret unset "play 1 \"\"" = .returned
        (.play { projectionId := 1, streamId := unset, init := .object [] }) oneEventHandler) ∧
      ∀ unset, ∀ line ∈ ["delete_stream 1x", "delete_stream 3000000000", "play 1 \"\""],
        ¬LineActsAsWritten Sample.jsonLib ⟨.streamsOuter, .rowid⟩ oneEventHandler unset line := by
  have hScanRange : scanLine "delete_stream 3000000000" =
      ⟨["delete_stream", "3000000000"], false, 1⟩ := by decide +kernel
  have hScanPlay : scanLine "play 1 \"\"" = ⟨["play", "1", ""], false, 1⟩ := by decide +kernel
  have hDelete : ∀ unset, sampleInterpret unset "delete_stream 1x" =
      .returned (.deleteStream 1) oneEventHandler := by
    intro unset
    have hStoi : stoi "1x" = .ok 1 := by decide +kernel
    rw [sampleInterpret_of_scan scanLine_delete_prefix (by decide +kernel)]
    show interpretDeleteStream ["1x"] oneEventHandler = _
    rw [interpretDeleteStream, hStoi]
    rfl
  have hRange : ∀ unset, sampleInterpret unset "delete_stream 3000000000" =
      .threw (.outOfRange "stoi") oneEventHandler := by
    intro unset
    have hStoi : stoi "3000000000" = .error (.outOfRange "stoi") := by decide +kernel
    rw [sampleInterpret_of_scan hScanRange (by decide +kernel)]
    show interpretDeleteStream ["3000000000"] oneEventHandler = _
    rw [interpretDeleteStream, hStoi]
    rfl
  have hPlay : ∀ unset, sampleInterpret unset "play 1 \"\"" = .returned
      (.play { projectionId := 1, streamId := unset, init := .object [] }) oneEventHandler := by
    intro unset
    have hStoi : stoi "1" = .ok 1 := by decide +kernel
    have hEmpty : stoi "" = .error (.invalidArgument "stoi") := by decide +kernel
    rw [sampleInterpret_of_scan hScanPlay (by decide +kernel)]
    show interpretPlayWith Sample.jsonLib unset "1" "" none oneEventHandler = _
    rw [interpretPlayWith, hStoi]
    show Outcome.returned (Command.play (playReq unset 1 "" (.object []))) oneEventHandler = _
    rw [playReq, hEmpty]
    rfl
  refine ⟨hDelete 0, sampleRun_delete_prefix, hRange 0, hPlay, ?_⟩
  intro unset line hLine hActs
  simp only [List.mem_cons, List.not_mem_nil, or_false] at hLine
  rcases hLine with rfl | rfl | rfl
  · have hRefused := hActs.of_scan scanLine_delete_prefix (by decide +kernel)
    exact not_refused_of_returned (hDelete unset) (by simp)
      (refused_of_delete hRefused (by decide +kernel))
  · have hRefused := hActs.of_scan hScanRange (by decide +kernel)
    exact not_refused_of_threw (hRange unset) (refused_of_delete hRefused (by decide +kernel))
  · have hWritten := written_of_play (hActs.of_scan hScanPlay (by decide +kernel))
    have hOne : intNumeral "1" = some 1 := by decide +kernel
    have hEmpty : intNumeral "" = none := by decide +kernel
    rw [PlaysAsWritten, hOne] at hWritten
    obtain ⟨request, hReturned, hRequest⟩ := hWritten (.object []) rfl
    rw [show interpret Sample.jsonLib unset "play 1 \"\"" oneEventHandler =
        sampleInterpret unset "play 1 \"\"" from rfl, hPlay, Outcome.returned.injEq,
      Command.play.injEq] at hReturned
    rw [← hReturned.1, writtenTarget, hEmpty] at hRequest
    simp [PlayReq.toPlayRequest] at hRequest

end Cmd
end Yess

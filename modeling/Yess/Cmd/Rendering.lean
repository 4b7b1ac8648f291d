import Yess.Cmd.TokenCoverage

namespace Yess
namespace Cmd

open Foundation Ext

/-!
# Writing arguments so that they are read back

A line that `tokenize` reads back as given arguments: each of them in quotes of a kind
that it does not contain, or bare where it can be, with single spaces between them.  The
scan reads every such line back, and `tokenize` does as long as the line is shorter than
the largest `int`.
-/

/-- How an argument is written. -/
inductive Style where
  | double
  | single
  | bare
  deriving DecidableEq

/-- The argument can be written in this way. -/
def Writable (arg : String) : Style → Prop
  | .double => '"' ∉ arg.toList
  | .single => '\'' ∉ arg.toList
  | .bare => arg ≠ "" ∧ ' ' ∉ arg.toList ∧ ∀ c ∈ arg.toList.head?, c ≠ '"' ∧ c ≠ '\''

instance (arg : String) (style : Style) : Decidable (Writable arg style) :=
  match style with
  | .double => inferInstanceAs (Decidable ('"' ∉ arg.toList))
  | .single => inferInstanceAs (Decidable ('\'' ∉ arg.toList))
  | .bare => decidable_of_iff
      (arg ≠ "" ∧ ' ' ∉ arg.toList ∧ arg.toList.head?.all (fun c => c ≠ '"' && c ≠ '\'') = true)
      (by simp [Writable, Option.all_eq_true])

def writeChars : Style → List Char → List Char
  | .double, cs => '"' :: cs ++ ['"']
  | .single, cs => '\'' :: cs ++ ['\'']
  | .bare, cs => cs

def writeArg (arg : Style × String) : String := String.ofList (writeChars arg.1 arg.2.toList)

/-- The arguments, joined by single spaces. -/
def writeLine (args : List (Style × String)) : String :=
  String.intercalate " " (args.map writeArg)

def AllWritable (args : List (Style × String)) : Prop := ∀ arg ∈ args, Writable arg.2 arg.1

instance (args : List (Style × String)) : Decidable (AllWritable args) :=
  inferInstanceAs (Decidable (∀ arg ∈ args, Writable arg.2 arg.1))

/-! ## Scanning one argument -/

theorem scan_quoted {quote : Char} (word cs rest : List Char) (hFree : quote ∉ cs) :
    scan (.quoted quote) word (cs ++ quote :: rest) = (scan .closed [] rest).push (word ++ cs) := by
  induction cs generalizing word with
  | nil =>
      rw [List.nil_append, List.append_nil]
      simp only [scan, if_true]
  | cons c cs ih =>
      rw [List.mem_cons, not_or] at hFree
      rw [List.cons_append]
      simp only [scan, if_neg (Ne.symm hFree.1)]
      rw [ih _ hFree.2, List.append_assoc, List.singleton_append]

/-- A quote without its partner stays open. -/
theorem scan_quoted_open {quote : Char} (word cs : List Char) (hFree : quote ∉ cs) :
    (scan (.quoted quote) word cs).quoteOpen = true := by
  induction cs generalizing word with
  | nil => rfl
  | cons c cs ih =>
      rw [List.mem_cons, not_or] at hFree
      simp only [scan, if_neg (Ne.symm hFree.1)]
      exact ih _ hFree.2

theorem scan_bare_end (word cs : List Char) (hFree : ' ' ∉ cs) :
    scan .bare word cs = ⟨[String.ofList (word ++ cs)], false, 1⟩ := by
  induction cs generalizing word with
  | nil => rw [List.append_nil, scan]
  | cons c cs ih =>
      rw [List.mem_cons, not_or] at hFree
      simp only [scan, if_neg (Ne.symm hFree.1)]
      rw [ih _ hFree.2, List.append_assoc, List.singleton_append]

theorem scan_bare_space (word cs rest : List Char) (hFree : ' ' ∉ cs) :
    scan .bare word (cs ++ ' ' :: rest) = (scan .head [] rest).push (word ++ cs) := by
  induction cs generalizing word with
  | nil =>
      rw [List.nil_append, List.append_nil]
      simp only [scan, if_true]
  | cons c cs ih =>
      rw [List.mem_cons, not_or] at hFree
      rw [List.cons_append]
      simp only [scan, if_neg (Ne.symm hFree.1)]
      rw [ih _ hFree.2, List.append_assoc, List.singleton_append]

/-- A bare argument starts a bare word. -/
theorem scan_head_of_bare {arg : String} (hWritable : Writable arg .bare) :
    ∃ c cs, arg.toList = c :: cs ∧ ' ' ∉ cs ∧
      ∀ more, scan .head [] (c :: more) = scan .bare [c] more := by
  obtain ⟨hNonempty, hSpace, hQuote⟩ := hWritable
  cases hChars : arg.toList with
  | nil => exact absurd (String.toList_eq_nil_iff.mp hChars) hNonempty
  | cons c cs =>
      rw [hChars, List.mem_cons, not_or] at hSpace
      have hFirst := hQuote c (by rw [hChars]; rfl)
      refine ⟨c, cs, rfl, hSpace.2, ?_⟩
      intro more
      rw [scan, if_neg (by simp [hFirst.1, hFirst.2]), if_neg (Ne.symm hSpace.1)]

/-- The last argument of a line. -/
theorem scan_writeArg_end {arg : String} {style : Style} (hWritable : Writable arg style) :
    scan .head [] (writeChars style arg.toList) = ⟨[arg], false, 1⟩ := by
  cases style with
  | double =>
      show scan .head [] ('"' :: (arg.toList ++ '"' :: [])) = _
      rw [scan, if_pos (by simp), scan_quoted _ _ _ hWritable]
      simp [scan, Scan.push]
  | single =>
      show scan .head [] ('\'' :: (arg.toList ++ '\'' :: [])) = _
      rw [scan, if_pos (by simp), scan_quoted _ _ _ hWritable]
      simp [scan, Scan.push]
  | bare =>
      obtain ⟨c, cs, hChars, hSpace, hScan⟩ := scan_head_of_bare hWritable
      show scan .head [] arg.toList = _
      rw [hChars, hScan, scan_bare_end _ _ hSpace, List.singleton_append, ← hChars,
        String.ofList_toList]

/-- An argument before others. -/
theorem scan_writeArg_space {arg : String} {style : Style} (hWritable : Writable arg style)
    (rest : List Char) :
    scan .head [] (writeChars style arg.toList ++ ' ' :: rest) =
      (scan .head [] rest).push arg.toList := by
  cases style with
  | double =>
      show scan .head [] ('"' :: ((arg.toList ++ ['"']) ++ ' ' :: rest)) = _
      rw [scan, if_pos (by simp), List.append_assoc, List.singleton_append,
        scan_quoted _ _ _ hWritable]
      rfl
  | single =>
      show scan .head [] ('\'' :: ((arg.toList ++ ['\'']) ++ ' ' :: rest)) = _
      rw [scan, if_pos (by simp), List.append_assoc, List.singleton_append,
        scan_quoted _ _ _ hWritable]
      rfl
  | bare =>
      obtain ⟨c, cs, hChars, hSpace, hScan⟩ := scan_head_of_bare hWritable
      show scan .head [] (arg.toList ++ ' ' :: rest) = _
      rw [hChars, List.cons_append, hScan, scan_bare_space _ _ _ hSpace, List.singleton_append]

/-! ## Scanning a line -/

/-- The characters of the line. -/
def lineChars (args : List (Style × String)) : List Char :=
  [' '].intercalate (args.map fun arg => writeChars arg.1 arg.2.toList)

theorem toList_writeLine (args : List (Style × String)) :
    (writeLine args).toList = lineChars args := by
  rw [writeLine, String.toList_intercalate, lineChars, List.map_map]
  congr 1
  apply List.map_congr_left
  intro arg _
  exact String.toList_ofList

theorem lineChars_cons_cons (arg arg' : Style × String) (args : List (Style × String)) :
    lineChars (arg :: arg' :: args) =
      writeChars arg.1 arg.2.toList ++ ' ' :: lineChars (arg' :: args) := by
  simp [lineChars, List.intercalate_cons_cons]

theorem lineChars_singleton (arg : Style × String) :
    lineChars [arg] = writeChars arg.1 arg.2.toList := by
  simp [lineChars]

theorem push_words (arg : String) (words : List String) (quoteOpen : Bool) (pastEnd : Nat) :
    Scan.push ⟨words, quoteOpen, pastEnd⟩ arg.toList = ⟨arg :: words, quoteOpen, pastEnd⟩ := by
  rw [Scan.push, String.ofList_toList]

/-- The scan reads the arguments back. -/
theorem scan_lineChars {args : List (Style × String)} (hWritable : AllWritable args)
    (hNonempty : args ≠ []) :
    scan .head [] (lineChars args) = ⟨args.map Prod.snd, false, 1⟩ := by
  induction args with
  | nil => exact absurd rfl hNonempty
  | cons arg args ih =>
      have hArg := hWritable arg List.mem_cons_self
      cases args with
      | nil => rw [lineChars_singleton, scan_writeArg_end hArg, List.map_singleton]
      | cons arg' args =>
          have hRest := ih (fun other hMem => hWritable other (List.mem_cons_of_mem _ hMem))
            (List.cons_ne_nil _ _)
          rw [lineChars_cons_cons, scan_writeArg_space hArg, hRest, push_words]
          rfl

/-! ## Scanning the head of a line -/

/-- A part of a written argument leaves a quote open or does not give the argument. -/
theorem scan_take_writeArg {arg : String} {style : Style} (hWritable : Writable arg style)
    {k : Nat} (hShort : k < (writeChars style arg.toList).length) (words : List String) :
    (scan .head [] ((writeChars style arg.toList).take k)).quoteOpen = true ∨
      (scan .head [] ((writeChars style arg.toList).take k)).words ≠ arg :: words := by
  cases k with
  | zero => exact Or.inr (by simp [scan])
  | succ k =>
      cases style with
      | double =>
          have hLe : k ≤ arg.toList.length := by simp [writeChars] at hShort; omega
          left
          show (scan .head [] ('"' :: (arg.toList ++ ['"']).take k)).quoteOpen = true
          rw [scan, if_pos (by simp), List.take_append_of_le_length hLe]
          exact scan_quoted_open _ _ fun hMem => hWritable (List.mem_of_mem_take hMem)
      | single =>
          have hLe : k ≤ arg.toList.length := by simp [writeChars] at hShort; omega
          left
          show (scan .head [] ('\'' :: (arg.toList ++ ['\'']).take k)).quoteOpen = true
          rw [scan, if_pos (by simp), List.take_append_of_le_length hLe]
          exact scan_quoted_open _ _ fun hMem => hWritable (List.mem_of_mem_take hMem)
      | bare =>
          obtain ⟨c, cs, hChars, hSpace, hScan⟩ := scan_head_of_bare hWritable
          have hFree : ' ' ∉ cs.take k := fun hMem => hSpace (List.mem_of_mem_take hMem)
          right
          intro hWords
          change k + 1 < arg.toList.length at hShort
          change (scan .head [] (arg.toList.take (k + 1))).words = arg :: words at hWords
          rw [hChars, List.take_succ_cons, hScan, scan_bare_end _ _ hFree] at hWords
          -- The word is shorter than the argument.
          have hWord := congrArg String.toList (List.cons.inj hWords).1
          rw [String.toList_ofList] at hWord
          have hLength := congrArg List.length hWord
          simp [hChars] at hLength hShort
          omega

/-- No proper head of the line gives the arguments. -/
theorem scan_take_lineChars {args : List (Style × String)} (hWritable : AllWritable args) {k : Nat}
    (hShort : k < (lineChars args).length) :
    (scan .head [] ((lineChars args).take k)).quoteOpen = true ∨
      (scan .head [] ((lineChars args).take k)).words ≠ args.map Prod.snd := by
  induction args generalizing k with
  | nil => simp [lineChars] at hShort
  | cons arg args ih =>
      have hArg := hWritable arg List.mem_cons_self
      cases args with
      | nil =>
          rw [lineChars_singleton] at hShort ⊢
          exact scan_take_writeArg hArg hShort []
      | cons arg' args =>
          rw [lineChars_cons_cons] at hShort ⊢
          rcases Nat.lt_trichotomy k (writeChars arg.1 arg.2.toList).length with hLt | hEq | hGt
          · rw [List.take_append_of_le_length hLt.le]
            exact scan_take_writeArg hArg hLt _
          · rw [hEq, List.take_left, scan_writeArg_end hArg]
            exact Or.inr (by simp)
          · obtain ⟨j, rfl⟩ := Nat.exists_eq_add_of_lt hGt
            have hRest : j < (lineChars (arg' :: args)).length := by simp at hShort; omega
            rw [Nat.add_assoc, List.take_length_add_append, List.take_succ_cons,
              scan_writeArg_space hArg]
            rcases ih (fun other hMem => hWritable other (List.mem_cons_of_mem _ hMem)) hRest with
              hOpen | hWords
            · exact Or.inl hOpen
            · right
              intro hSame
              exact hWords (List.cons.inj hSame).2

/-! ## Reading the line back -/

theorem length_writeLine (args : List (Style × String)) :
    (writeLine args).length = (lineChars args).length := by
  rw [← String.length_toList, toList_writeLine]

/-- On a line that is not shorter than the largest `int`, the index has no room, or the
loop sees a proper head of the line only. -/
theorem long_line {line : String} (hLong : Int32.maxValue.toInt ≤ line.length)
    (hPast : (scan .head [] line.toList).pastEnd = 1) :
    indexOverflows line = true ∨ ∃ k, k < line.length ∧ seen line = line.toList.take k := by
  have hMax : Int32.maxValue.toInt = 2147483647 := rfl
  by_cases hLength : (line.length : Int) = Int32.maxValue.toInt
  · left
    rw [indexOverflows, scanLine, seen_of_short hLength.le, lineLength_of_short hLength.le, hPast]
    simp only [decide_eq_true_eq]
    omega
  · have hLe : (lineLength line).toInt ≤ Int32.maxValue.toInt := Int32.toInt_le _
    exact Or.inr ⟨_, by omega, rfl⟩

section

variable {σ : Type} (s : σ) {args : List (Style × String)}

theorem tokenize_writeLine_of_short (hWritable : AllWritable args)
    (hShort : ((writeLine args).length : Int) < Int32.maxValue.toInt) :
    tokenize (writeLine args) s = .returned (args.map Prod.snd) s := by
  have hScan : scanLine (writeLine args) = scan .head [] (lineChars args) := by
    rw [scanLine, seen_of_short hShort.le, toList_writeLine]
  have hLength := lineLength_of_short hShort.le
  by_cases hEmpty : args = []
  · subst hEmpty
    rfl
  · have hWords := scan_lineChars hWritable hEmpty
    rw [hWords] at hScan
    have hRange : indexOverflows (writeLine args) = false := by
      rw [indexOverflows, hScan, hLength]
      simp only [decide_eq_false_iff_not]
      omega
    rw [tokenize_of_closed s hRange (by rw [hScan]), hScan]

theorem tokenize_writeLine_of_long (hWritable : AllWritable args)
    (hLong : Int32.maxValue.toInt ≤ (writeLine args).length) :
    tokenize (writeLine args) s ≠ .returned (args.map Prod.snd) s := by
  have hNonempty : args ≠ [] := by
    rintro rfl
    exact absurd hLong (by decide)
  have hPast : (scan .head [] (writeLine args).toList).pastEnd = 1 := by
    rw [toList_writeLine, scan_lineChars hWritable hNonempty]
  intro hReturned
  cases hRange : indexOverflows (writeLine args) with
  | true =>
      rw [tokenize_of_overflow s hRange] at hReturned
      simp at hReturned
  | false =>
      obtain ⟨k, hShort, hSeen⟩ := (long_line hLong hPast).resolve_left (by simp [hRange])
      have hScan : scanLine (writeLine args) = scan .head [] ((lineChars args).take k) := by
        rw [scanLine, hSeen, toList_writeLine]
      rw [length_writeLine] at hShort
      rcases scan_take_lineChars hWritable hShort with hOpen | hWords
      · rw [tokenize_of_open s hRange (by rw [hScan, hOpen])] at hReturned
        simp at hReturned
      · cases hQuotes : (scanLine (writeLine args)).quoteOpen with
        | true =>
            rw [tokenize_of_open s hRange hQuotes] at hReturned
            simp at hReturned
        | false =>
            rw [tokenize_of_closed s hRange hQuotes, Outcome.returned.injEq, hScan] at hReturned
            exact hWords hReturned.1

/-- For any arguments, each in quotes that it does not contain or bare: `tokenize`
returns them from the line exactly when the line is shorter than the largest `int`. -/
theorem tokenize_writeLine_iff (hWritable : AllWritable args) :
    tokenize (writeLine args) s = .returned (args.map Prod.snd) s ↔
      ((writeLine args).length : Int) < Int32.maxValue.toInt := by
  constructor
  · intro hReturned
    by_contra hLong
    exact tokenize_writeLine_of_long s hWritable (Int.not_lt.mp hLong) hReturned
  · exact tokenize_writeLine_of_short s hWritable

end

/-- Arguments in all three ways, one of them empty. -/
def sampleArgs : List (Style × String) :=
  [(.bare, "push"), (.bare, "1"), (.double, ""), (.single, "[\"A B\"]"), (.double, "it's 1")]

theorem tokenize_writeLine_sample :
    (tokenize (writeLine sampleArgs) () : Outcome FrontExn Unit (List String)) =
        .returned (sampleArgs.map Prod.snd) () ↔
      ((writeLine sampleArgs).length : Int) < Int32.maxValue.toInt :=
  tokenize_writeLine_iff () (by decide +kernel)

/-- One argument in double quotes. -/
theorem length_writeLine_double (arg : String) :
    (writeLine [(.double, arg)]).length = arg.length + 2 := by
  rw [length_writeLine, lineChars_singleton]
  simp [writeChars, String.length_toList]

/-- A line one character too long for an `int` has a negative length for `tokenize`, which
sees nothing of it. -/
theorem tokenize_of_wrapped {σ : Type} (s : σ) {line : String}
    (hLength : line.length = 2147483648) : tokenize line s = .returned [] s := by
  have hNegative : (lineLength line).toInt = -2147483648 := by
    rw [lineLength, hLength]
    decide +kernel
  have hScan : scanLine line = ⟨[], false, 0⟩ := by
    rw [scanLine, seen, hNegative]
    rfl
  have hRange : indexOverflows line = false := by
    rw [indexOverflows, hScan, hNegative]
    rfl
  rw [tokenize_of_closed s hRange (by rw [hScan]), hScan]

/-- One argument of less than `2^31` characters, in double quotes: `tokenize` returns no
argument. -/
theorem long_argument_lost :
    ∃ arg : String, arg.length < 2147483648 ∧ AllWritable [(.double, arg)] ∧
      (tokenize (writeLine [(.double, arg)]) () : Outcome FrontExn Unit (List String)) =
        .returned [] () ∧
      tokenize (writeLine [(.double, arg)]) () ≠ .returned [arg] () := by
  obtain ⟨n, hn⟩ : ∃ n, n = 2147483646 := ⟨_, rfl⟩
  have hLength : (String.ofList (List.replicate n 'a')).length = n := by simp
  have hWritable : Writable (String.ofList (List.replicate n 'a')) .double := by
    show '"' ∉ (String.ofList (List.replicate n 'a')).toList
    rw [String.toList_ofList, List.mem_replicate]
    simp
  have hReturned : (tokenize (writeLine [(.double, String.ofList (List.replicate n 'a'))]) () :
      Outcome FrontExn Unit (List String)) = .returned [] () :=
    tokenize_of_wrapped () (by rw [length_writeLine_double, hLength, hn])
  refine ⟨_, by omega, ?_, hReturned, ?_⟩
  · intro arg hMem
    rw [List.mem_singleton] at hMem
    rw [hMem]
    exact hWritable
  · rw [hReturned]
    simp

end Cmd
end Yess

import Yess.Cmd.Tokenizer

namespace Yess
namespace Cmd

open Foundation Ext

/-!
# The marks of a line

What a line has in it is said here character by character, with no word of what the scan
makes of it: which characters separate words, which open and close them, and whether the
end of the line is inside a quote.  `charsOf_scan` and `quoteOpen_scan_iff` compare the
words of the scan and its flag with that.
-/

/-! ## What the characters are -/

/-- What a character of a line is: a quote that opens or closes a word, a space outside
quotes, part of a word, or none of these, where it follows a closing quote. -/
inductive Mark where
  | quote
  | space
  | word
  | behind
  deriving DecidableEq

def mark : Place → Char → Mark
  | .head, c => if c = '"' ∨ c = '\'' then .quote else if c = ' ' then .space else .word
  | .quoted quote, c => if c = quote then .quote else .word
  | .bare, c => if c = ' ' then .space else .word
  | .closed, c => if c = ' ' then .space else .behind

/-- Where one stands after the character. -/
def next : Place → Char → Place
  | .head, c => if c = '"' ∨ c = '\'' then .quoted c else if c = ' ' then .head else .bare
  | .quoted quote, c => if c = quote then .closed else .quoted quote
  | .bare, c => if c = ' ' then .head else .bare
  | .closed, _ => .head

/-- The characters of the rest of a line with their marks. -/
def marks : Place → List Char → List (Char × Mark)
  | _, [] => []
  | place, c :: rest => (c, mark place c) :: marks (next place c) rest

/-- Where one stands after the characters. -/
def endPlace : Place → List Char → Place
  | place, [] => place
  | place, c :: rest => endPlace (next place c) rest

/-- A quote that opens a word is never closed. -/
def LeavesQuoteOpen (cs : List Char) : Prop := ∃ quote, endPlace .head cs = .quoted quote

def isWord (entry : Char × Mark) : Bool := entry.2 = .word

def isBehind (entry : Char × Mark) : Bool := entry.2 = .behind

/-- The characters of the line without the separating spaces and without the quotes that
open and close words. -/
def remaining (cs : List Char) : List Char :=
  ((marks .head cs).filter fun entry => isWord entry || isBehind entry).map Prod.fst

/-- The characters of the words, one word after the other. -/
def charsOf (words : List String) : List Char := words.flatMap String.toList

/-- Only spaces follow the closing quotes. -/
def NothingBehindQuotes (cs : List Char) : Prop := ∀ entry ∈ marks .head cs, entry.2 ≠ .behind

/-! ## What the scan says of quotes -/

/-- The flag of the scan tells whether the characters end inside a quote. -/
theorem quoteOpen_scan_iff (place : Place) (word cs : List Char) :
    (scan place word cs).quoteOpen = true ↔ ∃ quote, endPlace place cs = .quoted quote := by
  induction cs generalizing place word with
  | nil => cases place <;> simp [scan, endPlace]
  | cons c rest ih =>
      cases place with
      | head =>
          simp only [scan, endPlace, next]
          by_cases hQuote : c = '"' ∨ c = '\''
          · simp only [if_pos hQuote]
            exact ih _ _
          · by_cases hSpace : c = ' '
            · simp only [if_neg hQuote, if_pos hSpace]
              exact ih _ _
            · simp only [if_neg hQuote, if_neg hSpace]
              exact ih _ _
      | quoted quote =>
          simp only [scan, endPlace, next]
          by_cases hQuote : c = quote
          · simp only [if_pos hQuote]
            exact ih _ _
          · simp only [if_neg hQuote]
            exact ih _ _
      | bare =>
          simp only [scan, endPlace, next]
          by_cases hSpace : c = ' '
          · simp only [if_pos hSpace]
            exact ih _ _
          · simp only [if_neg hSpace]
            exact ih _ _
      | closed => exact ih _ _

theorem leavesQuoteOpen_seen_iff (line : String) :
    LeavesQuoteOpen (seen line) ↔ (scanLine line).quoteOpen = true :=
  (quoteOpen_scan_iff .head [] (seen line)).symm

theorem not_leavesQuoteOpen_seen {line : String} (hClosed : (scanLine line).quoteOpen = false) :
    ¬LeavesQuoteOpen (seen line) := by
  rw [leavesQuoteOpen_seen_iff, hClosed]
  simp

/-! ## What the scan keeps -/

/-- The part of a word that was read before the scan came to this place. -/
def pending : Place → List Char → List Char
  | .quoted _, word => word
  | .bare, word => word
  | _, _ => []

theorem charsOf_push (scan : Scan) (word : List Char) :
    charsOf (scan.push word).words = word ++ charsOf scan.words := by
  simp [charsOf, Scan.push]

/-- The words have the characters that are marked as theirs. -/
theorem charsOf_scan (place : Place) (word cs : List Char) :
    charsOf (scan place word cs).words =
      pending place word ++ ((marks place cs).filter isWord).map Prod.fst := by
  induction cs generalizing place word with
  | nil => cases place <;> simp [scan, charsOf, pending, marks]
  | cons c rest ih =>
      cases place with
      | head =>
          simp only [scan, marks, mark, next]
          by_cases hQuote : c = '"' ∨ c = '\''
          · simp only [if_pos hQuote, ih]
            rfl
          · by_cases hSpace : c = ' '
            · simp only [if_neg hQuote, if_pos hSpace, charsOf_push, ih]
              rfl
            · simp only [if_neg hQuote, if_neg hSpace, ih]
              rfl
      | quoted quote =>
          simp only [scan, marks, mark, next]
          by_cases hQuote : c = quote
          · simp only [if_pos hQuote, charsOf_push, ih]
            rfl
          · simp only [if_neg hQuote, ih]
            simp [pending, isWord]
      | bare =>
          simp only [scan, marks, mark, next]
          by_cases hSpace : c = ' '
          · simp only [if_pos hSpace, charsOf_push, ih]
            rfl
          · simp only [if_neg hSpace, ih]
            simp [pending, isWord]
      | closed =>
          simp only [scan, marks, mark, next, ih]
          by_cases hSpace : c = ' '
          · simp only [if_pos hSpace]
            rfl
          · simp only [if_neg hSpace]
            rfl

/-- The marks of a line begin with those of its head. -/
theorem prefix_marks (place : Place) (cs more : List Char) :
    marks place cs <+: marks place (cs ++ more) := by
  induction cs generalizing place with
  | nil => exact List.nil_prefix
  | cons c rest ih => exact (List.prefix_cons_inj _).mpr (ih (next place c))

theorem prefix_remaining (cs more : List Char) : remaining cs <+: remaining (cs ++ more) :=
  ((prefix_marks .head cs more).filter _).map _

/-- Each remaining character belongs to a word or follows a closing quote. -/
theorem length_remaining (cs : List Char) :
    (remaining cs).length =
      ((marks .head cs).filter isWord).length + ((marks .head cs).filter isBehind).length := by
  unfold remaining
  rw [List.length_map]
  induction marks .head cs with
  | nil => rfl
  | cons entry entries ih =>
      obtain ⟨c, m⟩ := entry
      cases m <;> simp [isWord, isBehind] at ih ⊢ <;> omega

theorem nothingBehindQuotes_iff (cs : List Char) :
    NothingBehindQuotes cs ↔ (marks .head cs).filter isBehind = [] := by
  simp [NothingBehindQuotes, isBehind, List.filter_eq_nil_iff]

/-- What the words of the head of a line have to do with the whole line. -/
theorem charsOf_eq_remaining_iff (cs more : List Char) :
    charsOf (scan .head [] cs).words = remaining (cs ++ more) ↔
      NothingBehindQuotes cs ∧ remaining (cs ++ more) = remaining cs := by
  have hLength := length_remaining cs
  rw [charsOf_scan, nothingBehindQuotes_iff]
  show ((marks .head cs).filter isWord).map Prod.fst = _ ↔ _
  constructor
  · intro hAll
    have hPrefix := prefix_remaining cs more
    have hLe := hPrefix.length_le
    rw [← hAll, List.length_map] at hLe
    -- The head alone has at least as many remaining characters as its words.
    have hNone : ((marks .head cs).filter isBehind).length = 0 := by omega
    refine ⟨List.length_eq_zero_iff.mp hNone, (hPrefix.eq_of_length ?_).symm⟩
    rw [← hAll, List.length_map]
    omega
  · rintro ⟨hNone, hSame⟩
    rw [hSame, remaining]
    congr 1
    apply List.filter_congr
    intro entry hEntry
    have hNot := List.filter_eq_nil_iff.mp hNone entry hEntry
    simp [hNot]

/-! ## What `tokenize` does -/

section

variable {σ : Type} (s : σ) {line : String}

theorem tokenize_of_overflow (hOverflow : indexOverflows line = true) :
    tokenize line s = .aborted := by
  rw [tokenize, if_pos hOverflow]
  rfl

theorem tokenize_of_open (hRange : indexOverflows line = false)
    (hOpen : (scanLine line).quoteOpen = true) :
    tokenize line s = .threw (.std (.runtimeError "One of the quotes is open")) s := by
  rw [tokenize, if_neg (by simp [hRange]), if_pos hOpen]
  rfl

theorem tokenize_of_closed (hRange : indexOverflows line = false)
    (hClosed : (scanLine line).quoteOpen = false) :
    tokenize line s = .returned (scanLine line).words s := by
  rw [tokenize, if_neg (by simp [hRange]), if_neg (by simp [hClosed])]
  rfl

end

end Cmd
end Yess

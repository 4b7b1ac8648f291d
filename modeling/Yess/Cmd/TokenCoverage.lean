import Yess.Cmd.LineSafety

namespace Yess
namespace Cmd

open Foundation Ext

/-!
# The characters of a line and of its words

Apart from the spaces between words and the quotes around them, every character of a
line should come to stand in a word.  The scan loses one kind of character: what follows
a closing quote directly and is no space.  Also, the `int` in which `tokenize` keeps the
length of the line does not hold that of every line.  `drops_nothing_iff` says for which
lines nothing is lost.
-/

/-! ## Lines that keep everything -/

/-- `tokenize` loses no character of the line, and throws exactly when a quote that opens
a word is never closed. -/
structure DropsNothing {σ : Type} (line : String) (s : σ) : Prop where
  kept : ∀ words s', tokenize line s = .returned words s' → charsOf words = remaining line.toList
  throws_iff : (∃ error s', (tokenize line : FrontProg σ (List String)) s = .threw error s') ↔
    LeavesQuoteOpen line.toList

/-- Where the index passes the largest `int`, the line leaves no quote open.  Elsewhere
the loop, which sees the line or the head of a very long one, sees what there is of open
quotes and of remaining characters, and if it leaves no quote open, only spaces follow
the closing quotes. -/
def AllInWords (line : String) : Prop :=
  if indexOverflows line = true then ¬LeavesQuoteOpen line.toList
  else (LeavesQuoteOpen line.toList ↔ LeavesQuoteOpen (seen line)) ∧
    (¬LeavesQuoteOpen (seen line) →
      NothingBehindQuotes (seen line) ∧ remaining line.toList = remaining (seen line))

/-! ## When nothing is dropped -/

section

variable {σ : Type} (s : σ) {line : String}

theorem seen_append (line : String) : ∃ more, line.toList = seen line ++ more :=
  ⟨_, (List.take_append_drop _ _).symm⟩

/-- When `tokenize` aborts, nothing is returned and nothing thrown. -/
theorem dropsNothing_iff_of_aborted (hAborted : tokenize line s = .aborted) :
    DropsNothing line s ↔ ¬LeavesQuoteOpen line.toList := by
  constructor
  · intro hDrops hOpen
    obtain ⟨error, s', hThrew⟩ := hDrops.throws_iff.mpr hOpen
    rw [hAborted] at hThrew
    simp at hThrew
  · intro hClosed
    constructor
    · intro words s' hReturned
      rw [hAborted] at hReturned
      simp at hReturned
    · rw [hAborted]
      exact iff_of_false (by simp) hClosed

theorem dropsNothing_iff_of_threw {error : FrontExn} (hThrew : tokenize line s = .threw error s) :
    DropsNothing line s ↔ LeavesQuoteOpen line.toList := by
  constructor
  · intro hDrops
    exact hDrops.throws_iff.mp ⟨_, _, hThrew⟩
  · intro hOpen
    constructor
    · intro words s' hReturned
      rw [hThrew] at hReturned
      simp at hReturned
    · exact iff_of_true ⟨_, _, hThrew⟩ hOpen

theorem dropsNothing_iff_of_returned {words : List String}
    (hReturned : tokenize line s = .returned words s) :
    DropsNothing line s ↔
      ¬LeavesQuoteOpen line.toList ∧ charsOf words = remaining line.toList := by
  constructor
  · intro hDrops
    refine ⟨fun hOpen => ?_, hDrops.kept _ _ hReturned⟩
    obtain ⟨error, s', hThrew⟩ := hDrops.throws_iff.mpr hOpen
    rw [hReturned] at hThrew
    simp at hThrew
  · rintro ⟨hClosed, hKept⟩
    constructor
    · intro words' s' hReturned'
      rw [hReturned, Outcome.returned.injEq] at hReturned'
      rw [← hReturned'.1]
      exact hKept
    · rw [hReturned]
      exact iff_of_false (by simp) hClosed

/-- For every line: `tokenize` drops nothing exactly when no character other than a space
directly follows a closing quote, unless a quote is open anyway; and on a line beyond the
range of `int`, when in addition nothing is lost with the part that the loop does not
see. -/
theorem drops_nothing_iff (line : String) : DropsNothing line s ↔ AllInWords line := by
  unfold AllInWords
  cases hRange : indexOverflows line with
  | true =>
      rw [if_pos rfl]
      exact dropsNothing_iff_of_aborted s (tokenize_of_overflow s hRange)
  | false =>
      rw [if_neg (by simp)]
      cases hQuotes : (scanLine line).quoteOpen with
      | true =>
          have hOpen := (leavesQuoteOpen_seen_iff line).mpr hQuotes
          refine (dropsNothing_iff_of_threw s (tokenize_of_open s hRange hQuotes)).trans ?_
          simp [hOpen]
      | false =>
          have hClosed := not_leavesQuoteOpen_seen hQuotes
          obtain ⟨more, hMore⟩ := seen_append line
          have hKept := charsOf_eq_remaining_iff (seen line) more
          rw [← hMore] at hKept
          refine (dropsNothing_iff_of_returned s (tokenize_of_closed s hRange hQuotes)).trans ?_
          rw [iff_false_right hClosed, imp_iff_right hClosed]
          exact and_congr_right fun _ => hKept

end

/-! ## Lines within the range of `int` -/

theorem lineLength_of_short {line : String}
    (hShort : (line.length : Int) ≤ Int32.maxValue.toInt) :
    (lineLength line).toInt = line.length := by
  have hMax : Int32.maxValue.toInt = 2147483647 := rfl
  rw [lineLength, Int32.toInt_ofNat_of_lt (by omega)]

/-- The loop sees the whole line. -/
theorem seen_of_short {line : String}
    (hShort : (line.length : Int) ≤ Int32.maxValue.toInt) : seen line = line.toList := by
  rw [seen, lineLength_of_short hShort, Int.toNat_natCast, List.take_of_length_le]
  rw [String.length_toList]

theorem pastEnd_le_two (place : Place) (word cs : List Char) :
    (scan place word cs).pastEnd ≤ 2 := by
  induction cs generalizing place word with
  | nil => cases place <;> simp [scan]
  | cons c rest ih =>
      have hPush : ∀ place word word',
          ((scan place word rest).push word').pastEnd ≤ 2 := fun place word _ => ih place word
      cases place with
      | head =>
          simp only [scan]
          split
          · exact ih _ _
          · split
            · exact hPush _ _ _
            · exact ih _ _
      | quoted quote =>
          simp only [scan]
          split
          · exact hPush _ _ _
          · exact ih _ _
      | bare =>
          simp only [scan]
          split
          · exact hPush _ _ _
          · exact ih _ _
      | closed => exact ih _ _

/-- On a line that leaves the index room, only what follows the closing quotes matters. -/
theorem allInWords_of_short {line : String}
    (hShort : (line.length : Int) + 2 ≤ Int32.maxValue.toInt) :
    AllInWords line ↔
      (LeavesQuoteOpen line.toList ∨ NothingBehindQuotes line.toList) := by
  have hSeen := @seen_of_short line (by omega)
  have hWhole : scanLine line = wholeScan line := by rw [scanLine, wholeScan, hSeen]
  have hPast := pastEnd_le_two .head [] line.toList
  have hRange : indexOverflows line = false := by
    rw [indexOverflows, @lineLength_of_short line (by omega), hWhole, wholeScan]
    simp only [decide_eq_false_iff_not]
    omega
  rw [AllInWords, if_neg (by simp [hRange]), hSeen]
  simp only [true_and, and_true, iff_self]
  exact Classical.or_iff_not_imp_left.symm

/-- The letter behind the closing quote is lost, and the stream is created under another
type than the line says. -/
theorem letter_behind_quote_dropped :
    (tokenize "create_stream \"User\"s" () : Outcome FrontExn Unit (List String)) =
        .returned ["create_stream", "User"] () ∧
      remaining "create_stream \"User\"s".toList = "create_streamUsers".toList ∧
      ¬DropsNothing "create_stream \"User\"s" () := by
  have hReturned : (tokenize "create_stream \"User\"s" () : Outcome FrontExn Unit (List String)) =
      .returned ["create_stream", "User"] () := by
    have hScan : scanLine "create_stream \"User\"s" = ⟨["create_stream", "User"], false, 0⟩ := by
      decide +kernel
    rw [tokenize_of_closed () (by decide +kernel) (by rw [hScan]), hScan]
  have hRemaining : remaining "create_stream \"User\"s".toList = "create_streamUsers".toList := by
    decide +kernel
  refine ⟨hReturned, hRemaining, fun hDrops => ?_⟩
  have hKept := hDrops.kept _ _ hReturned
  rw [hRemaining] at hKept
  revert hKept
  decide +kernel

end Cmd
end Yess

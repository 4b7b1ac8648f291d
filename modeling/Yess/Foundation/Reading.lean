import Mathlib.Data.List.Forall2
import Mathlib.Data.List.TakeWhile

namespace Yess
namespace Foundation

/-!
# Reading a text from the left

A reader takes a value off the front of a text and leaves what follows it.  `Reads`
says that it does so with one text and one value, whatever stands behind the text, as
long as that starts with a character that ends the value.

The module names nothing of the modelled program.
-/

/-- A reader returns a value and the rest of the text, or fails. -/
abbrev Reader (α : Type) : Type := List Char → Option (α × List Char)

/-- Nothing stands there, or a character that ends what stands before it. -/
def StartsWith (stop : Char → Prop) (rest : List Char) : Prop := ∀ c ∈ rest.head?, stop c

def Reads (stop : Char → Prop) {α : Type} (read : Reader α) (text : List Char) (value : α) :
    Prop :=
  ∀ rest, StartsWith stop rest → read (text ++ rest) = some (value, rest)

namespace Reader

variable {α : Type} {stop : Char → Prop}

/-! ## Numbers -/

/-- A row of decimal digits. -/
def digits : Reader Nat := fun text =>
  match text.takeWhile Char.isDigit with
  | [] => none
  | c :: cs => some (Nat.ofDigitChars 10 (c :: cs) 0, text.dropWhile Char.isDigit)

theorem takeWhile_append_startsWith {p : Char → Bool} {text rest : List Char}
    (hText : ∀ c ∈ text, p c = true) (hRest : StartsWith (fun c => p c = false) rest) :
    (text ++ rest).takeWhile p = text ∧ (text ++ rest).dropWhile p = rest := by
  induction text with
  | nil =>
      cases rest with
      | nil => exact ⟨rfl, rfl⟩
      | cons c rest =>
          have hStop : p c = false := hRest c rfl
          constructor
          · show (c :: rest).takeWhile p = []
            rw [List.takeWhile_cons_of_neg (by simp [hStop])]
          · show (c :: rest).dropWhile p = c :: rest
            rw [List.dropWhile_cons_of_neg (by simp [hStop])]
  | cons c text ih =>
      have hFirst : p c = true := hText c List.mem_cons_self
      obtain ⟨hTake, hDrop⟩ := ih fun d hMem => hText d (List.mem_cons_of_mem c hMem)
      constructor
      · rw [List.cons_append, List.takeWhile_cons_of_pos hFirst, hTake]
      · rw [List.cons_append, List.dropWhile_cons_of_pos hFirst, hDrop]

theorem isDigit_of_mem_toDigits {n : Nat} {c : Char} (hMem : c ∈ Nat.toDigits 10 n) :
    c.isDigit = true :=
  Nat.isDigit_of_mem_toDigits (by omega) (by omega) hMem

/-- The digits of a number are read as the number. -/
theorem digits_reads (n : Nat) (hStop : ∀ c, stop c → c.isDigit = false) :
    Reads stop digits (Nat.toDigits 10 n) n := by
  intro rest hRest
  have hSplit := takeWhile_append_startsWith
    (fun c hMem => @isDigit_of_mem_toDigits n c hMem) fun c hMem => hStop c (hRest c hMem)
  unfold digits
  rw [hSplit.1, hSplit.2]
  cases hDigits : Nat.toDigits 10 n with
  | nil => exact absurd hDigits Nat.toDigits_ne_nil
  | cons c cs =>
      show some (Nat.ofDigitChars 10 (c :: cs) 0, rest) = some (n, rest)
      rw [← hDigits, Nat.ofDigitChars_ten_toDigits]

/-! ## Lists -/

/-- What follows the first item of a list: a comma and the next item, or the closing
bracket.  The fuel bounds the number of items. -/
def more (close : Char) (item : Reader α) : Nat → Reader (List α)
  | 0, _ => none
  | _ + 1, [] => none
  | fuel + 1, c :: text =>
      if c = close then some ([], text)
      else if c = ',' then
        match item text with
        | none => none
        | some (value, text) =>
            (more close item fuel text).map fun read => (value :: read.1, read.2)
      else none

/-- The items of a list behind its opening bracket. -/
def list (close : Char) (item : Reader α) (fuel : Nat) : Reader (List α) := fun text =>
  if text.head? = some close then some ([], text.tail)
  else match item text with
    | none => none
    | some (value, text) =>
        (more close item fuel text).map fun read => (value :: read.1, read.2)

theorem intercalate_cons (separator : Char) (text : List Char) (texts : List (List Char)) :
    [separator].intercalate (text :: texts) =
      text ++ texts.flatMap fun text => separator :: text := by
  induction texts generalizing text with
  | nil => simp
  | cons next texts ih =>
      rw [List.intercalate_cons_cons, ih]
      simp

theorem count_le_intercalate (separator : Char) (texts : List (List Char)) :
    texts.length ≤ ([separator].intercalate texts).length + 1 := by
  have hMore : ∀ texts : List (List Char),
      texts.length ≤ (texts.flatMap fun text => separator :: text).length := by
    intro texts
    induction texts with
    | nil => simp
    | cons text texts ih =>
        simp only [List.flatMap_cons, List.length_append, List.length_cons]
        omega
  cases texts with
  | nil => simp
  | cons text texts =>
      have hRest := hMore texts
      rw [intercalate_cons, List.length_append, List.length_cons]
      omega

theorem length_le_intercalate (separator : Char) {text : List Char} {texts : List (List Char)}
    (hMem : text ∈ texts) : text.length ≤ ([separator].intercalate texts).length := by
  induction texts with
  | nil => simp at hMem
  | cons first texts ih =>
      rcases List.mem_cons.mp hMem with rfl | hLater
      · rw [intercalate_cons, List.length_append]
        omega
      · have hText := ih hLater
        cases texts with
        | nil => simp at hLater
        | cons second texts =>
            rw [List.intercalate_cons_cons, List.length_append, List.length_append]
            omega

/-- Behind an item stands a comma or the closing bracket. -/
theorem startsWith_more {close : Char} (hComma : stop ',') (hClose : stop close)
    (texts : List (List Char)) (rest : List Char) :
    StartsWith stop ((texts.flatMap fun text => ',' :: text) ++ close :: rest) := by
  intro c hMem
  cases texts with
  | nil =>
      obtain rfl : close = c := by simpa using hMem
      exact hClose
  | cons next texts =>
      obtain rfl : ',' = c := by simpa using hMem
      exact hComma

variable {close : Char} {item : Reader α}

theorem more_reads (hComma : stop ',') (hClose : stop close) (hNotComma : close ≠ ',')
    {texts : List (List Char)} {values : List α}
    (hItems : List.Forall₂ (Reads stop item) texts values) {fuel : Nat}
    (hFuel : texts.length < fuel) (rest : List Char) :
    more close item fuel ((texts.flatMap fun text => ',' :: text) ++ close :: rest) =
      some (values, rest) := by
  induction hItems generalizing fuel with
  | nil =>
      obtain ⟨fuel, rfl⟩ := Nat.exists_eq_succ_of_ne_zero (Nat.ne_of_gt hFuel)
      simp [more]
  | @cons text value texts values hItem hItems ih =>
      obtain ⟨fuel, rfl⟩ := Nat.exists_eq_succ_of_ne_zero (Nat.ne_of_gt (Nat.zero_lt_of_lt hFuel))
      have hFirst := hItem _ (startsWith_more hComma hClose texts rest)
      have hLater := ih (Nat.lt_of_succ_lt_succ hFuel)
      rw [List.flatMap_cons, List.append_assoc, List.cons_append, more,
        if_neg (Ne.symm hNotComma), if_pos rfl, hFirst]
      simp only [hLater, Option.map_some]

/-- A list is read from the texts of its items with commas between them. -/
theorem list_reads (hComma : stop ',') (hClose : stop close) (hNotComma : close ≠ ',')
    {texts : List (List Char)} {values : List α}
    (hItems : List.Forall₂ (Reads stop item) texts values)
    (hHead : ∀ text ∈ texts, ∃ c cs, text = c :: cs ∧ c ≠ close) {fuel : Nat}
    (hFuel : texts.length ≤ fuel) (rest : List Char) :
    list close item fuel ([','].intercalate texts ++ close :: rest) = some (values, rest) := by
  cases hItems with
  | nil => simp [list]
  | @cons text value texts values hItem hItems =>
      obtain ⟨c, cs, rfl, hNe⟩ := hHead text List.mem_cons_self
      have hMore := more_reads hComma hClose hNotComma hItems hFuel rest
      have hFirst := hItem _ (startsWith_more hComma hClose texts rest)
      rw [intercalate_cons, List.append_assoc, list]
      rw [if_neg (by simpa using hNe), hFirst]
      simp only [hMore, Option.map_some]

end Reader

end Foundation
end Yess

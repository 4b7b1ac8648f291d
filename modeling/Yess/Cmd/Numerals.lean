import Mathlib.Data.List.TakeWhile
import Yess.Ext.JsonValue

namespace Yess
namespace Cmd

open Foundation Ext

/-!
# `std::stoi`

The function takes an `int` from the head of a text: white space, a sign, and as many
digits as there are.  What comes after the digits is not looked at.
-/

/-- `std::isspace`. -/
def isSpace (c : Char) : Bool :=
  c = ' ' || c = '\t' || c = '\n' || c = '\x0b' || c = '\x0c' || c = '\r'

/-- The number that a row of digits stands for. -/
def digitsValue (digits : List Char) : Nat :=
  digits.foldl (fun n digit => 10 * n + (digit.toNat - '0'.toNat)) 0

/-- Is there a minus, and what follows the sign. -/
def readSign : List Char → Bool × List Char
  | '-' :: rest => (true, rest)
  | '+' :: rest => (false, rest)
  | rest => (false, rest)

def signed (negative : Bool) (n : Nat) : Int := if negative then -n else n

def fitsInt (n : Int) : Bool := Int32.minValue.toInt ≤ n && n ≤ Int32.maxValue.toInt

/-- `std::stoi`. -/
def stoi (text : String) : Except FrontExn Int32 :=
  let (negative, rest) := readSign (text.toList.dropWhile isSpace)
  let digits := rest.takeWhile Char.isDigit
  if digits = [] then .error (.invalidArgument "stoi")
  else
    let n := signed negative (digitsValue digits)
    if fitsInt n then .ok (Int32.ofInt n) else .error (.outOfRange "stoi")

/-- The number of which the text is in full a decimal numeral. -/
def numeral (text : String) : Option Int :=
  let (negative, digits) := readSign text.toList
  if digits ≠ [] ∧ digits.all Char.isDigit then some (signed negative (digitsValue digits))
  else none

/-- The `int` of which the text is in full a decimal numeral. -/
def intNumeral (text : String) : Option Int32 :=
  match numeral text with
  | some n => if fitsInt n then some (Int32.ofInt n) else none
  | none => none

theorem isSpace_of_isDigit {c : Char} (hDigit : c.isDigit = true) : isSpace c = false := by
  rw [Bool.eq_false_iff]
  intro hSpace
  simp only [isSpace, Bool.or_eq_true, decide_eq_true_eq] at hSpace
  rcases hSpace with ((((rfl | rfl) | rfl) | rfl) | rfl) | rfl <;> simp at hDigit

/-- A numeral starts with no white space. -/
theorem dropWhile_of_numeral {text : String} {n : Int} (hNumeral : numeral text = some n) :
    text.toList.dropWhile isSpace = text.toList := by
  unfold numeral at hNumeral
  cases hText : text.toList with
  | nil => rfl
  | cons c rest =>
      have hFirst : isSpace c = false := by
        by_cases hMinus : c = '-'
        · rw [hMinus]
          rfl
        · by_cases hPlus : c = '+'
          · rw [hPlus]
            rfl
          -- Without a sign the first character is a digit.
          · have hSign : readSign (c :: rest) = (false, c :: rest) := by
              unfold readSign
              split <;> simp_all
            rw [hText, hSign] at hNumeral
            by_cases hDigits : c :: rest ≠ [] ∧ (c :: rest).all Char.isDigit
            · exact isSpace_of_isDigit (List.all_eq_true.mp hDigits.2 c List.mem_cons_self)
            · simp only [if_neg hDigits, reduceCtorEq] at hNumeral
      rw [List.dropWhile_cons_of_neg (by simp [hFirst])]

/-- On a numeral `stoi` is exact. -/
theorem stoi_of_numeral {text : String} {n : Int} (hNumeral : numeral text = some n) :
    stoi text = if fitsInt n then .ok (Int32.ofInt n) else .error (.outOfRange "stoi") := by
  unfold stoi
  rw [dropWhile_of_numeral hNumeral]
  unfold numeral at hNumeral
  generalize readSign text.toList = sign at hNumeral ⊢
  obtain ⟨negative, digits⟩ := sign
  simp only at hNumeral ⊢
  by_cases hDigits : digits ≠ [] ∧ digits.all Char.isDigit
  · rw [if_pos hDigits, Option.some.injEq] at hNumeral
    have hAll : digits.takeWhile Char.isDigit = digits :=
      List.takeWhile_eq_self_iff.mpr (List.all_eq_true.mp hDigits.2)
    rw [hAll, if_neg hDigits.1, hNumeral]
  · simp only [if_neg hDigits, reduceCtorEq] at hNumeral

theorem stoi_cases (text : String) :
    (∃ n, stoi text = .ok n) ∨ stoi text = .error (.invalidArgument "stoi") ∨
      stoi text = .error (.outOfRange "stoi") := by
  unfold stoi
  generalize readSign (text.toList.dropWhile isSpace) = sign
  obtain ⟨negative, rest⟩ := sign
  by_cases hDigits : rest.takeWhile Char.isDigit = []
  · simp [hDigits]
  · by_cases hFits : fitsInt (signed negative (digitsValue (rest.takeWhile Char.isDigit))) = true
    · exact Or.inl ⟨_, by simp only [if_neg hDigits, if_pos hFits]; rfl⟩
    · exact Or.inr (Or.inr (by simp only [if_neg hDigits, if_neg hFits]))

theorem stoi_of_intNumeral {text : String} {n : Int32} (hNumeral : intNumeral text = some n) :
    stoi text = .ok n := by
  unfold intNumeral at hNumeral
  cases hText : numeral text with
  | none => simp [hText] at hNumeral
  | some m =>
      simp only [hText] at hNumeral
      rw [stoi_of_numeral hText]
      by_cases hFits : fitsInt m = true
      · rw [if_pos hFits, Option.some.injEq] at hNumeral
        rw [if_pos hFits, hNumeral]
      · simp only [if_neg hFits, reduceCtorEq] at hNumeral

end Cmd
end Yess

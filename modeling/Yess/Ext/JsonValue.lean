import Mathlib.Algebra.Group.Nat.Defs
import Yess.Ext.Duktape

namespace Yess
namespace Ext

open Foundation

/-!
# JSON values in C++

How the program gets at the parts of an `nlohmann::json` and what can be thrown on
the way.  A `std::string` is a sequence of bytes; here a `String` stands for it with
one character for each byte, so that a string need not be valid UTF-8.  `dump`
refuses one that is not.
-/

/-- The exceptions of the front ends, by the classes that their `catch` clauses tell
apart.  All of them are `std::exception`s. -/
inductive FrontExn where
  | std (ex : Exn)
  /-- `nlohmann::json::exception`. -/
  | json (message : String)
  | invalidArgument (message : String)
  | outOfRange (message : String)
  deriving DecidableEq

/-- `std::exception::what`. -/
def FrontExn.what : FrontExn → String
  | std ex => ex.what
  | json message => message
  | invalidArgument message => message
  | outOfRange message => message

/-- Does `catch (const std::runtime_error&)` take the exception? -/
def FrontExn.isRuntimeError : FrontExn → Bool
  | std ex => ex.isRuntimeError
  | _ => false

abbrev FrontProg (σ α : Type) : Type := Prog FrontExn σ α

/-- Call a function that knows nothing of the other exceptions. -/
def call {σ α : Type} (p : Prog Exn σ α) : FrontProg σ α := Prog.mapError .std p

theorem call_of_returned {σ α : Type} {p : Prog Exn σ α} {s s' : σ} {a : α}
    (hp : p s = .returned a s') : call p s = .returned a s' :=
  Prog.mapError_of_returned hp

theorem call_of_threw {σ α : Type} {p : Prog Exn σ α} {s s' : σ} {ex : Exn}
    (hp : p s = .threw ex s') : call p s = .threw (.std ex) s' :=
  Prog.mapError_of_threw hp

theorem call_of_aborted {σ α : Type} {p : Prog Exn σ α} {s : σ} (hp : p s = .aborted) :
    call p s = .aborted :=
  Prog.mapError_of_aborted hp

/-- The library together with the texts of its exceptions. -/
structure JsonLib extends JsonText where
  parseError : String → String
  typeError : String → Json → String
  dumpError : Json → String

/-! ## UTF-8 -/

/-- A byte that continues a character. -/
def isContinuation (byte : Nat) : Bool := 0x80 ≤ byte && byte ≤ 0xbf

/-- The well-formed byte sequences. -/
def utf8Bytes : List Nat → Bool
  | [] => true
  | a :: rest =>
      if a ≤ 0x7f then utf8Bytes rest
      else match rest with
        | [] => false
        | b :: rest =>
            if 0xc2 ≤ a && a ≤ 0xdf then isContinuation b && utf8Bytes rest
            else match rest with
              | [] => false
              | c :: rest =>
                  if 0xe0 ≤ a && a ≤ 0xef then
                    -- Neither overlong forms nor surrogates.
                    isContinuation b && (a ≠ 0xe0 || 0xa0 ≤ b) && (a ≠ 0xed || b ≤ 0x9f) &&
                      isContinuation c && utf8Bytes rest
                  else match rest with
                    | [] => false
                    | d :: rest =>
                        0xf0 ≤ a && a ≤ 0xf4 &&
                          isContinuation b && (a ≠ 0xf0 || 0x90 ≤ b) &&
                          (a ≠ 0xf4 || b ≤ 0x8f) && isContinuation c && isContinuation d &&
                          utf8Bytes rest

/-- Is the string valid UTF-8? -/
def isUtf8 (s : String) : Bool := utf8Bytes (s.toList.map Char.toNat)

mutual

/-- Are all strings in the value valid UTF-8? -/
def Json.isUtf8 : Json → Bool
  | .string value => Ext.isUtf8 value
  | .array items => Json.allUtf8 items
  | .object members => Json.membersUtf8 members
  | _ => true

def Json.allUtf8 : List Json → Bool
  | [] => true
  | item :: items => item.isUtf8 && Json.allUtf8 items

def Json.membersUtf8 : List (String × Json) → Bool
  | [] => true
  | (key, value) :: members => Ext.isUtf8 key && value.isUtf8 && Json.membersUtf8 members

end

theorem Json.allUtf8_iff {items : List Json} :
    Json.allUtf8 items = true ↔ ∀ item ∈ items, item.isUtf8 = true := by
  induction items with
  | nil => simp [Json.allUtf8]
  | cons item items ih => simp [Json.allUtf8, ih]

/-- `json::parse` refuses a text that is not valid UTF-8. -/
def ParsesUtf8 (J : JsonText) : Prop :=
  ∀ text value, J.parse text = some value → value.isUtf8 = true

/-! ## Access -/

section

variable (J : JsonLib) {σ : Type}

def throwJson {α : Type} (message : String) : FrontProg σ α := Prog.throw (.json message)

/-- `json::parse`. -/
def parseJson (text : String) : FrontProg σ Json :=
  match J.parse text with
  | some value => pure value
  | none => throwJson (J.parseError text)

/-- `json::dump`, with or without line breaks. -/
def dumpJson (value : Json) : FrontProg σ String :=
  if value.isUtf8 then pure (J.dump value) else throwJson (J.dumpError value)

theorem dumpJson_of_utf8 {value : Json} (hUtf8 : value.isUtf8 = true) :
    (dumpJson J value : FrontProg σ String) = pure (J.dump value) :=
  if_pos hUtf8

/-- The member with a key. -/
def findMember (key : String) : List (String × Json) → Option Json
  | [] => none
  | (name, value) :: members => if name = key then some value else findMember key members

/-- `obj[key]` on a `const json&`.  A missing key fails the assertion of the
library, which ends the process. -/
def jsonAt (obj : Json) (key : String) : FrontProg σ Json :=
  match obj with
  | .object members =>
      match findMember key members with
      | some value => pure value
      | none => Prog.abort
  | other => throwJson (J.typeError "object" other)

/-- The conversion to `std::string`. -/
def jsonString (value : Json) : FrontProg σ String :=
  match value with
  | .string text => pure text
  | other => throwJson (J.typeError "string" other)

/-- The whole part of a `double`, given by its bits; `none` for infinities and
NaNs. -/
def doubleTruncate (bits : UInt64) : Option Int :=
  let exponent := (bits.toNat / 2 ^ 52) % 2 ^ 11
  let mantissa := bits.toNat % 2 ^ 52
  if exponent = 2 ^ 11 - 1 then none
  else
    let magnitude : Nat :=
      if exponent = 0 then 0
      else if 1075 ≤ exponent then (2 ^ 52 + mantissa) * 2 ^ (exponent - 1075)
      else (2 ^ 52 + mantissa) / 2 ^ (1075 - exponent)
    some (if bits.toNat < 2 ^ 63 then (magnitude : Int) else -magnitude)

/-- The conversion to `int`: an integer loses its upper bits, a number with a
fraction loses that.  One that does not fit then is undefined. -/
def jsonInt (value : Json) : FrontProg σ Int32 :=
  match value with
  | .integer n => pure (Int32.ofInt n)
  | .bool b => pure (if b then 1 else 0)
  | .float bits =>
      match doubleTruncate bits with
      | none => Prog.abort
      | some n =>
          if Int32.minValue.toInt ≤ n ∧ n ≤ Int32.maxValue.toInt then pure (Int32.ofInt n)
          else Prog.abort
  | other => throwJson (J.typeError "number" other)

/-! ## None of this looks at the state -/

theorem stateless_jsonAt (obj : Json) (key : String) :
    Prog.Stateless (jsonAt J obj key : FrontProg σ Json) (jsonAt J obj key) := by
  cases obj with
  | object members =>
      simp only [jsonAt]
      cases findMember key members with
      | none => exact Prog.stateless_abort
      | some value => exact Prog.stateless_pure value
  | _ => exact Prog.stateless_throw _

theorem stateless_jsonString (value : Json) :
    Prog.Stateless (jsonString J value : FrontProg σ String) (jsonString J value) := by
  cases value with
  | string text => exact Prog.stateless_pure text
  | _ => exact Prog.stateless_throw _

theorem stateless_jsonInt (value : Json) :
    Prog.Stateless (jsonInt J value : FrontProg σ Int32) (jsonInt J value) := by
  cases value with
  | integer n => exact Prog.stateless_pure _
  | bool b => exact Prog.stateless_pure _
  | float bits =>
      simp only [jsonInt]
      cases doubleTruncate bits with
      | none => exact Prog.stateless_abort
      | some n =>
          by_cases hFits : Int32.minValue.toInt ≤ n ∧ n ≤ Int32.maxValue.toInt
          · simp only [if_pos hFits]
            exact Prog.stateless_pure _
          · simp only [if_neg hFits]
            exact Prog.stateless_abort
  | _ => exact Prog.stateless_throw _

end

end Ext
end Yess

import Yess.Ext.SampleEngine
import Yess.Foundation.Reading

namespace Yess
namespace Ext

open Foundation

/-!
# The text form of JSON values

What is documented of `dump` and `parse` on the values that the library can hold, and
a printer and a reader for which it holds.
-/

/-! ## The values of the library -/

/-- Integers are kept in 64 bits, signed or unsigned. -/
def fitsJsonInteger (n : Int) : Bool :=
  -9223372036854775808 ≤ n && n ≤ 18446744073709551615

/-- The keys of an object are those of a `std::map`. -/
def keysSorted (members : List (String × Json)) : Bool :=
  (members.map Prod.fst).Pairwise (· < ·)

mutual

/-- A value that the library can hold and can print: numbers in range, no infinity and
no NaN, all strings valid UTF-8, the keys of each object in order. -/
def Json.wellFormed : Json → Bool
  | .null => true
  | .bool _ => true
  | .integer n => fitsJsonInteger n
  | .float bits => (doubleTruncate bits).isSome
  | .string value => Ext.isUtf8 value
  | .array items => Json.allWellFormed items
  | .object members => keysSorted members && Json.membersWellFormed members

def Json.allWellFormed : List Json → Bool
  | [] => true
  | item :: items => item.wellFormed && Json.allWellFormed items

def Json.membersWellFormed : List (String × Json) → Bool
  | [] => true
  | (key, value) :: members =>
      Ext.isUtf8 key && value.wellFormed && Json.membersWellFormed members

end

theorem Json.allWellFormed_iff {items : List Json} :
    Json.allWellFormed items = true ↔ ∀ item ∈ items, item.wellFormed = true := by
  induction items with
  | nil => simp [Json.allWellFormed]
  | cons item items ih => simp [Json.allWellFormed, ih]

mutual

theorem Json.isUtf8_of_wellFormed : ∀ value : Json, value.wellFormed = true →
    value.isUtf8 = true
  | .null, _ => rfl
  | .bool _, _ => rfl
  | .integer _, _ => rfl
  | .float _, _ => rfl
  | .string value, hWellFormed => hWellFormed
  | .array items, hWellFormed => Json.allUtf8_of_wellFormed items hWellFormed
  | .object members, hWellFormed => by
      rw [Json.wellFormed, Bool.and_eq_true] at hWellFormed
      exact Json.membersUtf8_of_wellFormed members hWellFormed.2

theorem Json.allUtf8_of_wellFormed : ∀ items : List Json,
    Json.allWellFormed items = true → Json.allUtf8 items = true
  | [], _ => rfl
  | item :: items, hWellFormed => by
      rw [Json.allWellFormed, Bool.and_eq_true] at hWellFormed
      rw [Json.allUtf8, Json.isUtf8_of_wellFormed item hWellFormed.1,
        Json.allUtf8_of_wellFormed items hWellFormed.2]
      rfl

theorem Json.membersUtf8_of_wellFormed : ∀ members : List (String × Json),
    Json.membersWellFormed members = true → Json.membersUtf8 members = true
  | [], _ => rfl
  | (key, value) :: members, hWellFormed => by
      rw [Json.membersWellFormed, Bool.and_eq_true, Bool.and_eq_true] at hWellFormed
      rw [Json.membersUtf8, hWellFormed.1.1, Json.isUtf8_of_wellFormed value hWellFormed.1.2,
        Json.membersUtf8_of_wellFormed members hWellFormed.2]
      rfl

end

/-- The text form is as documented: `parse` gives values of the library, and gives back
what was printed; an array is printed without blanks. -/
structure JsonText.Conforms (J : JsonText) : Prop where
  parse_wellFormed : ∀ text value, J.parse text = some value → value.wellFormed = true
  parse_dump : ∀ value, value.wellFormed = true → J.parse (J.dump value) = some value
  dump_array : ∀ items,
    J.dump (.array items) = "[" ++ ",".intercalate (items.map J.dump) ++ "]"

/-- The text of a string is longer than the string: it has quotes around it, and an escape
is no shorter than what it stands for. -/
def JsonText.QuotesStrings (J : JsonText) : Prop :=
  ∀ text value, J.parse text = some (.string value) → value.length < text.length

theorem JsonText.Conforms.parsesUtf8 {J : JsonText} (hConforms : J.Conforms) :
    ParsesUtf8 J :=
  fun text value hParse =>
    Json.isUtf8_of_wellFormed value (hConforms.parse_wellFormed text value hParse)

namespace Compact

/-! ## The printer -/

/-- The characters with an escape of one letter. -/
def shortEscapes : List (Char × Char) :=
  [('"', '"'), ('\\', '\\'), ('\x08', 'b'), ('\t', 't'), ('\n', 'n'), ('\x0c', 'f'),
    ('\r', 'r')]

def escape (c : Char) : List Char :=
  match shortEscapes.lookup c with
  | some letter => ['\\', letter]
  | none =>
      if c.toNat < 0x20 then
        ['\\', 'u', '0', '0', Nat.digitChar (c.toNat / 16), Nat.digitChar (c.toNat % 16)]
      else [c]

def renderString (value : String) : List Char := '"' :: (value.toList.flatMap escape ++ ['"'])

def renderInteger : Int → List Char
  | .ofNat n => Nat.toDigits 10 n
  | .negSucc n => '-' :: Nat.toDigits 10 (n + 1)

mutual

/-- `dump`.  A double stands there by its bits. -/
def render : Json → List Char
  | .null => ['n', 'u', 'l', 'l']
  | .bool true => ['t', 'r', 'u', 'e']
  | .bool false => ['f', 'a', 'l', 's', 'e']
  | .integer n => renderInteger n
  | .float bits => 'd' :: Nat.toDigits 10 bits.toNat
  | .string value => renderString value
  | .array items => '[' :: ([','].intercalate (renderItems items) ++ [']'])
  | .object members => '\x7b' :: ([','].intercalate (renderMembers members) ++ ['\x7d'])

def renderItems : List Json → List (List Char)
  | [] => []
  | item :: items => render item :: renderItems items

def renderMembers : List (String × Json) → List (List Char)
  | [] => []
  | (key, value) :: members => (renderString key ++ ':' :: render value) :: renderMembers members

end

/-! ## The reader -/

def unescape (letter : Char) : Option Char :=
  (shortEscapes.find? fun pair => pair.2 = letter).map Prod.fst

def hexDigit (c : Char) : Option Nat := (List.range 16).find? fun d => Nat.digitChar d = c

/-- `\u00hl`. -/
def hexEscape (high low : Char) : Option Char := do
  let h ← hexDigit high
  let l ← hexDigit low
  pure (Char.ofNat (16 * h + l))

/-- A character in front of what is read of the rest. -/
def push (c : Option Char) (read : Option (List Char × List Char)) :
    Option (List Char × List Char) := do
  let c ← c
  let (cs, rest) ← read
  pure (c :: cs, rest)

/-- The characters of a string behind its opening quote. -/
def readChars : Reader (List Char)
  | [] => none
  | '"' :: text => some ([], text)
  | '\\' :: 'u' :: '0' :: '0' :: high :: low :: text =>
      push (hexEscape high low) (readChars text)
  | '\\' :: letter :: text => push (unescape letter) (readChars text)
  | c :: text => push (some c) (readChars text)

def readString : Reader String
  | '"' :: text => (readChars text).map fun read => (String.ofList read.1, read.2)
  | _ => none

def readWord (word : List Char) (value : Json) : Reader Json := fun text =>
  if word.isPrefixOf text then some (value, text.drop word.length) else none

def readMember (readValue : Reader Json) : Reader (String × Json) := fun text =>
  match readString text with
  | some (key, ':' :: text) => (readValue text).map fun read => ((key, read.1), read.2)
  | _ => none

/-- `parse`, by the first character. -/
def readValue : Nat → Reader Json
  | 0, _ => none
  | _ + 1, [] => none
  | fuel + 1, c :: text =>
      if c = 'n' then readWord ['u', 'l', 'l'] .null text
      else if c = 't' then readWord ['r', 'u', 'e'] (.bool true) text
      else if c = 'f' then readWord ['a', 'l', 's', 'e'] (.bool false) text
      else if c = '"' then
        (readString (c :: text)).map fun read => (.string read.1, read.2)
      else if c = '[' then
        (Reader.list ']' (readValue fuel) fuel text).map fun read => (.array read.1, read.2)
      else if c = '\x7b' then
        (Reader.list '\x7d' (readMember (readValue fuel)) fuel text).map fun read =>
          (.object read.1, read.2)
      else if c = 'd' then
        (Reader.digits text).map fun read => (.float (UInt64.ofNat read.1), read.2)
      else if c = '-' then (Reader.digits text).map fun read => (.integer (-read.1), read.2)
      else (Reader.digits (c :: text)).map fun read => (.integer read.1, read.2)

def parse (text : String) : Option Json :=
  match readValue (text.toList.length + 1) text.toList with
  | some (value, []) => if value.wellFormed then some value else none
  | _ => none

/-! ## What is printed is read -/

theorem hexEscape_digitChar : ∀ n < 32,
    hexEscape (Nat.digitChar (n / 16)) (Nat.digitChar (n % 16)) = some (Char.ofNat n) := by
  decide

theorem readChars_escape (c : Char) (text : List Char) :
    readChars (escape c ++ text) = push (some c) (readChars text) := by
  unfold escape
  cases hLookup : shortEscapes.lookup c with
  | some letter =>
      obtain ⟨before, after, hPairs, -⟩ := List.lookup_eq_some_iff.mp hLookup
      have hMem : (c, letter) ∈ shortEscapes := by simp [hPairs]
      simp only [shortEscapes, List.mem_cons, Prod.mk.injEq, List.not_mem_nil, or_false] at hMem
      rcases hMem with ⟨rfl, rfl⟩ | ⟨rfl, rfl⟩ | ⟨rfl, rfl⟩ | ⟨rfl, rfl⟩ | ⟨rfl, rfl⟩ |
        ⟨rfl, rfl⟩ | ⟨rfl, rfl⟩ <;> rfl
  | none =>
      by_cases hControl : c.toNat < 0x20
      · have hHex := hexEscape_digitChar c.toNat hControl
        rw [Char.ofNat_toNat] at hHex
        rw [if_pos hControl, ← hHex]
        rfl
      · have hQuote : c ≠ '"' := by
          rintro rfl
          simp [shortEscapes] at hLookup
        have hBackslash : c ≠ '\\' := by
          rintro rfl
          simp [shortEscapes] at hLookup
        rw [if_neg hControl, List.singleton_append, readChars]
        · exact hQuote
        · intro _ _ _ hEscape
          exact absurd hEscape hBackslash
        · intro _ _ hEscape
          exact absurd hEscape hBackslash

theorem readChars_flatMap_escape (cs text : List Char) :
    readChars (cs.flatMap escape ++ '"' :: text) = some (cs, text) := by
  induction cs with
  | nil => rfl
  | cons c cs ih =>
      rw [List.flatMap_cons, List.append_assoc, readChars_escape, ih]
      rfl

theorem readString_renderString (value : String) (text : List Char) :
    readString (renderString value ++ text) = some (value, text) := by
  rw [renderString, List.cons_append, List.append_assoc]
  show (readChars (value.toList.flatMap escape ++ '"' :: text)).map _ = _
  rw [readChars_flatMap_escape, Option.map_some, String.ofList_toList]

/-- A digit does not stand behind a number. -/
def EndsValue (c : Char) : Prop := c.isDigit = false

theorem readWord_append (word : List Char) (value : Json) (text : List Char) :
    readWord word value (word ++ text) = some (value, text) := by
  have hPrefix : word.isPrefixOf (word ++ text) = true :=
    List.isPrefixOf_iff_prefix.mpr (List.prefix_append word text)
  rw [readWord, if_pos hPrefix, List.drop_left]

theorem readValue_digit {c : Char} (hDigit : c.isDigit = true) (fuel : Nat) (text : List Char) :
    readValue (fuel + 1) (c :: text) =
      (Reader.digits (c :: text)).map fun read => (.integer read.1, read.2) := by
  have hNe : ∀ d : Char, d.isDigit = false → c ≠ d := by
    rintro d hOther rfl
    rw [hDigit] at hOther
    simp at hOther
  rw [readValue, if_neg (hNe 'n' rfl), if_neg (hNe 't' rfl), if_neg (hNe 'f' rfl),
    if_neg (hNe '"' rfl), if_neg (hNe '[' rfl), if_neg (hNe '\x7b' rfl), if_neg (hNe 'd' rfl),
    if_neg (hNe '-' rfl)]

/-- The text of a value does not start with a closing bracket. -/
theorem render_head (value : Json) : ∃ c cs, render value = c :: cs ∧ c ≠ ']' := by
  cases value with
  | null => exact ⟨_, _, rfl, by decide⟩
  | bool b => cases b <;> exact ⟨_, _, rfl, by decide⟩
  | integer n =>
      cases n with
      | ofNat n =>
          cases hDigits : Nat.toDigits 10 n with
          | nil => exact absurd hDigits Nat.toDigits_ne_nil
          | cons c cs =>
              have hDigit : c.isDigit = true :=
                Reader.isDigit_of_mem_toDigits (by rw [hDigits]; exact List.mem_cons_self)
              refine ⟨c, cs, hDigits, ?_⟩
              rintro rfl
              simp at hDigit
      | negSucc n => exact ⟨_, _, rfl, by decide⟩
  | float bits => exact ⟨_, _, rfl, by decide⟩
  | string value => exact ⟨_, _, rfl, by decide⟩
  | array items => exact ⟨_, _, rfl, by decide⟩
  | object members => exact ⟨_, _, rfl, by decide⟩

theorem renderItems_head : ∀ items : List Json, ∀ text ∈ renderItems items,
    ∃ c cs, text = c :: cs ∧ c ≠ ']'
  | [] => by simp [renderItems]
  | item :: items => by
      rw [renderItems, List.forall_mem_cons]
      exact ⟨render_head item, renderItems_head items⟩

theorem renderMembers_head : ∀ members : List (String × Json), ∀ text ∈ renderMembers members,
    ∃ c cs, text = c :: cs ∧ c ≠ '\x7d'
  | [] => by simp [renderMembers]
  | (key, value) :: members => by
      rw [renderMembers, List.forall_mem_cons]
      exact ⟨⟨_, _, rfl, by decide⟩, renderMembers_head members⟩

theorem integer_reads (n : Int) (fuel : Nat) :
    Reads EndsValue (readValue (fuel + 1)) (renderInteger n) (.integer n) := by
  intro rest hRest
  cases n with
  | ofNat n =>
      have hRead := Reader.digits_reads n (fun c hStop => hStop) rest hRest
      rw [renderInteger]
      cases hDigits : Nat.toDigits 10 n with
      | nil => exact absurd hDigits Nat.toDigits_ne_nil
      | cons c cs =>
          have hDigit : c.isDigit = true :=
            Reader.isDigit_of_mem_toDigits (by rw [hDigits]; exact List.mem_cons_self)
          rw [hDigits, List.cons_append] at hRead
          rw [List.cons_append, readValue_digit hDigit, hRead]
          rfl
  | negSucc n =>
      have hRead := Reader.digits_reads (n + 1) (fun c hStop => hStop) rest hRest
      show (Reader.digits (Nat.toDigits 10 (n + 1) ++ rest)).map
        (fun read => (Json.integer (-read.1), read.2)) = _
      rw [hRead]
      rfl

mutual

theorem value_reads : ∀ (value : Json) (fuel : Nat), (render value).length < fuel →
    Reads EndsValue (readValue fuel) (render value) value
  | value, 0, hFuel => by simp at hFuel
  | .null, fuel + 1, _ => fun rest _ => congrArg _ rfl
  | .bool true, fuel + 1, _ => fun rest _ => readWord_append ['r', 'u', 'e'] (.bool true) rest
  | .bool false, fuel + 1, _ => fun rest _ =>
      readWord_append ['a', 'l', 's', 'e'] (.bool false) rest
  | .integer n, fuel + 1, _ => integer_reads n fuel
  | .float bits, fuel + 1, _ => fun rest hRest => by
      have hRead := Reader.digits_reads bits.toNat (fun c hStop => hStop) rest hRest
      show (Reader.digits (Nat.toDigits 10 bits.toNat ++ rest)).map
        (fun read => (Json.float (UInt64.ofNat read.1), read.2)) = _
      rw [hRead, Option.map_some, UInt64.ofNat_toNat]
  | .string value, fuel + 1, _ => fun rest _ => by
      show (readString (renderString value ++ rest)).map
        (fun read => (Json.string read.1, read.2)) = _
      rw [readString_renderString]
      rfl
  | .array items, fuel + 1, hFuel => fun rest _ => by
      rw [render, List.length_cons, List.length_append, List.length_singleton] at hFuel
      have hTexts := items_read items fuel fun text hMem => by
        have hText := Reader.length_le_intercalate ',' hMem
        omega
      have hCount := Reader.count_le_intercalate ',' (renderItems items)
      have hRead := @Reader.list_reads _ EndsValue ']' _ rfl rfl (by decide) _ _ hTexts
        (renderItems_head items) fuel (by omega : (renderItems items).length ≤ fuel) rest
      rw [render, List.cons_append, List.append_assoc]
      show (Reader.list ']' (readValue fuel) fuel
        ([','].intercalate (renderItems items) ++ ']' :: rest)).map
          (fun read => (Json.array read.1, read.2)) = _
      rw [hRead]
      rfl
  | .object members, fuel + 1, hFuel => fun rest _ => by
      rw [render, List.length_cons, List.length_append, List.length_singleton] at hFuel
      have hTexts := members_read members fuel fun text hMem => by
        have hText := Reader.length_le_intercalate ',' hMem
        omega
      have hCount := Reader.count_le_intercalate ',' (renderMembers members)
      have hRead := @Reader.list_reads _ EndsValue '\x7d' _ rfl rfl (by decide) _ _ hTexts
        (renderMembers_head members) fuel (by omega : (renderMembers members).length ≤ fuel) rest
      rw [render, List.cons_append, List.append_assoc]
      show (Reader.list '\x7d' (readMember (readValue fuel)) fuel
        ([','].intercalate (renderMembers members) ++ '\x7d' :: rest)).map
          (fun read => (Json.object read.1, read.2)) = _
      rw [hRead]
      rfl

theorem items_read : ∀ (items : List Json) (fuel : Nat),
    (∀ text ∈ renderItems items, text.length < fuel) →
      List.Forall₂ (Reads EndsValue (readValue fuel)) (renderItems items) items
  | [], fuel, _ => .nil
  | item :: items, fuel, hFuel => by
      rw [renderItems, List.forall_mem_cons] at hFuel
      exact .cons (value_reads item fuel hFuel.1) (items_read items fuel hFuel.2)

theorem members_read : ∀ (members : List (String × Json)) (fuel : Nat),
    (∀ text ∈ renderMembers members, text.length < fuel) →
      List.Forall₂ (Reads EndsValue (readMember (readValue fuel))) (renderMembers members) members
  | [], fuel, _ => .nil
  | (key, value) :: members, fuel, hFuel => by
      rw [renderMembers, List.forall_mem_cons] at hFuel
      refine .cons ?_ (members_read members fuel hFuel.2)
      have hLength : (render value).length < fuel := by
        have hMember := hFuel.1
        simp only [List.length_append, List.length_cons] at hMember
        omega
      intro rest hRest
      rw [List.append_assoc, readMember, readString_renderString, List.cons_append]
      show (readValue fuel (render value ++ rest)).map (fun read => ((key, read.1), read.2)) = _
      rw [value_reads value fuel hLength rest hRest]
      rfl

end

/-- `parse` gives back what was printed. -/
theorem parse_render {value : Json} (hWellFormed : value.wellFormed = true) :
    parse (String.ofList (render value)) = some value := by
  have hRead := value_reads value ((render value).length + 1) (Nat.lt_succ_self _) []
    (by simp [StartsWith])
  rw [List.append_nil] at hRead
  simp only [parse, String.toList_ofList, hRead, hWellFormed, if_true]

/-! ## No NUL is printed -/

theorem isDigit_ne_nul {c : Char} (hDigit : c.isDigit = true) : c ≠ '\x00' := by
  rintro rfl
  simp at hDigit

theorem renderInteger_ne_nul (n : Int) : ∀ c ∈ renderInteger n, c ≠ '\x00' := by
  intro c hMem
  cases n with
  | ofNat n => exact isDigit_ne_nul (Reader.isDigit_of_mem_toDigits hMem)
  | negSucc n =>
      rcases List.mem_cons.mp hMem with rfl | hMem
      · decide
      · exact isDigit_ne_nul (Reader.isDigit_of_mem_toDigits hMem)

theorem digitChar_ne_nul : ∀ n < 16, Nat.digitChar n ≠ '\x00' := by
  decide

theorem escape_ne_nul (c : Char) : ∀ d ∈ escape c, d ≠ '\x00' := by
  unfold escape
  cases hLookup : shortEscapes.lookup c with
  | some letter =>
      obtain ⟨before, after, hPairs, -⟩ := List.lookup_eq_some_iff.mp hLookup
      have hMem : (c, letter) ∈ shortEscapes := by simp [hPairs]
      have hLetters : ∀ pair ∈ shortEscapes, pair.2 ≠ '\x00' := by decide
      simp [hLetters _ hMem]
  | none =>
      by_cases hControl : c.toNat < 0x20
      · have hHigh := digitChar_ne_nul (c.toNat / 16) (by omega)
        have hLow := digitChar_ne_nul (c.toNat % 16) (by omega)
        simp [hControl, hHigh, hLow]
      · have hNul : c ≠ '\x00' := by
          rintro rfl
          exact hControl (by decide)
        simp [hControl, hNul]

theorem renderString_ne_nul (value : String) : ∀ c ∈ renderString value, c ≠ '\x00' := by
  intro c hMem
  simp only [renderString, List.mem_cons, List.mem_append, List.mem_flatMap, List.not_mem_nil,
    or_false] at hMem
  rcases hMem with rfl | ⟨d, -, hMem⟩ | rfl
  · decide
  · exact escape_ne_nul d c hMem
  · decide

theorem intercalate_ne_nul {texts : List (List Char)}
    (hTexts : ∀ text ∈ texts, ∀ c ∈ text, c ≠ '\x00') :
    ∀ c ∈ [','].intercalate texts, c ≠ '\x00' := by
  cases texts with
  | nil => simp
  | cons text texts =>
      intro c hMem
      simp only [Reader.intercalate_cons, List.mem_append, List.mem_flatMap, List.mem_cons] at hMem
      rcases hMem with hMem | ⟨later, hLater, rfl | hMem⟩
      · exact hTexts text List.mem_cons_self c hMem
      · decide
      · exact hTexts later (List.mem_cons_of_mem text hLater) c hMem

theorem bracketed_ne_nul {opening closing : Char} {texts : List (List Char)}
    (hOpening : opening ≠ '\x00') (hClosing : closing ≠ '\x00')
    (hTexts : ∀ text ∈ texts, ∀ c ∈ text, c ≠ '\x00') :
    ∀ c ∈ opening :: ([','].intercalate texts ++ [closing]), c ≠ '\x00' := by
  intro c hMem
  rcases List.mem_cons.mp hMem with rfl | hMem
  · exact hOpening
  · rcases List.mem_append.mp hMem with hMem | hMem
    · exact intercalate_ne_nul hTexts c hMem
    · rw [List.mem_singleton.mp hMem]
      exact hClosing

mutual

theorem render_ne_nul : ∀ value : Json, ∀ c ∈ render value, c ≠ '\x00'
  | .null => by simp [render]
  | .bool true => by simp [render]
  | .bool false => by simp [render]
  | .integer n => renderInteger_ne_nul n
  | .float bits => by
      intro c hMem
      rcases List.mem_cons.mp hMem with rfl | hMem
      · decide
      · exact isDigit_ne_nul (Reader.isDigit_of_mem_toDigits hMem)
  | .string value => renderString_ne_nul value
  | .array items => bracketed_ne_nul (by decide) (by decide) (renderItems_ne_nul items)
  | .object members => bracketed_ne_nul (by decide) (by decide) (renderMembers_ne_nul members)

theorem renderItems_ne_nul : ∀ items : List Json,
    ∀ text ∈ renderItems items, ∀ c ∈ text, c ≠ '\x00'
  | [] => by simp [renderItems]
  | item :: items => by
      rw [renderItems, List.forall_mem_cons]
      exact ⟨render_ne_nul item, renderItems_ne_nul items⟩

theorem renderMembers_ne_nul : ∀ members : List (String × Json),
    ∀ text ∈ renderMembers members, ∀ c ∈ text, c ≠ '\x00'
  | [] => by simp [renderMembers]
  | (key, value) :: members => by
      rw [renderMembers, List.forall_mem_cons]
      refine ⟨?_, renderMembers_ne_nul members⟩
      intro c hMem
      rcases List.mem_append.mp hMem with hMem | hMem
      · exact renderString_ne_nul key c hMem
      · rcases List.mem_cons.mp hMem with rfl | hMem
        · decide
        · exact render_ne_nul value c hMem

end

/-! ## The text form -/

def jsonText : JsonText where
  dump value := String.ofList (render value)
  parse := parse
  cStr_dump value := by
    rw [cStr, String.toList_ofList, List.takeWhile_eq_self_iff.mpr]
    intro c hMem
    simpa using render_ne_nul value c hMem

def jsonLib : JsonLib := { Sample.jsonLib with toJsonText := jsonText }

theorem renderItems_eq_map (items : List Json) : renderItems items = items.map render := by
  induction items with
  | nil => rfl
  | cons item items ih => rw [renderItems, ih, List.map_cons]

theorem jsonText_conforms : jsonText.Conforms where
  parse_wellFormed := by
    intro text value hParse
    show value.wellFormed = true
    have hText : parse text = some value := hParse
    unfold parse at hText
    split at hText
    · rename_i read _
      by_cases hWellFormed : read.wellFormed = true
      · rw [if_pos hWellFormed, Option.some.injEq] at hText
        rw [← hText]
        exact hWellFormed
      · simp [hWellFormed] at hText
    · simp at hText
  parse_dump := fun value hWellFormed => parse_render hWellFormed
  dump_array := by
    intro items
    apply String.toList_injective
    show (String.ofList (render (.array items))).toList = _
    simp [jsonText, render, renderItems_eq_map, String.toList_intercalate, List.map_map,
      Function.comp_def]

theorem push_length {c : Option Char} {read : Option (List Char × List Char)}
    {cs rest : List Char} {n : Nat}
    (hRead : ∀ {ds rest}, read = some (ds, rest) → ds.length + rest.length < n)
    (hPush : push c read = some (cs, rest)) : cs.length + rest.length < n + 1 := by
  cases c with
  | none => simp [push] at hPush
  | some c =>
      cases read with
      | none => simp [push] at hPush
      | some read =>
          obtain ⟨ds, rest'⟩ := read
          have hSame : some (c :: ds, rest') = some (cs, rest) := hPush
          simp only [Option.some.injEq, Prod.mk.injEq] at hSame
          have hLength := hRead rfl
          rw [← hSame.1, ← hSame.2, List.length_cons]
          omega

theorem readChars_length (text : List Char) : ∀ {cs rest : List Char},
    readChars text = some (cs, rest) → cs.length + rest.length < text.length := by
  induction text using readChars.induct with
  | case1 =>
      intro cs rest hRead
      simp [readChars] at hRead
  | case2 text =>
      intro cs rest hRead
      simp only [readChars, Option.some.injEq, Prod.mk.injEq] at hRead
      rw [← hRead.1, ← hRead.2]
      simp
  | case3 high low text ih =>
      intro cs rest hRead
      have hLength := push_length ih hRead
      simp only [List.length_cons]
      omega
  | case4 letter text hLetter ih =>
      intro cs rest hRead
      rw [readChars] at hRead
      · have hLength := push_length ih hRead
        simp only [List.length_cons]
        omega
      · exact hLetter
  | case5 c text hQuote hEscape hLetter ih =>
      intro cs rest hRead
      rw [readChars] at hRead
      · have hLength := push_length ih hRead
        simp only [List.length_cons]
        omega
      · exact hQuote
      · exact hEscape
      · exact hLetter

/-- A string is read from a text with a quote in front. -/
theorem readValue_string {fuel : Nat} {text rest : List Char} {value : String}
    (hRead : readValue fuel text = some (.string value, rest)) : value.length < text.length := by
  cases fuel with
  | zero => simp [readValue] at hRead
  | succ fuel =>
      cases text with
      | nil => simp [readValue] at hRead
      | cons c text =>
          by_cases hQuote : c = '"'
          · subst hQuote
            have hString : (readString ('"' :: text)).map
                (fun read => (Json.string read.1, read.2)) = some (.string value, rest) := hRead
            cases hChars : readChars text with
            | none => simp [readString, hChars] at hString
            | some read =>
                obtain ⟨cs, rest'⟩ := read
                have hLength := readChars_length text hChars
                simp only [readString, hChars, Option.map_some, Option.some.injEq, Prod.mk.injEq,
                  Json.string.injEq] at hString
                rw [← hString.1, String.length_ofList, List.length_cons]
                omega
          -- The other characters start a value of another kind.
          · rw [readValue, if_neg hQuote] at hRead
            split_ifs at hRead <;> simp [readWord] at hRead

theorem jsonText_quotesStrings : jsonText.QuotesStrings := by
  intro text value hParse
  have hText : parse text = some (.string value) := hParse
  unfold parse at hText
  split at hText
  · rename_i read hRead
    by_cases hWellFormed : read.wellFormed = true
    · rw [if_pos hWellFormed, Option.some.injEq] at hText
      subst hText
      have hLength := readValue_string hRead
      rwa [String.length_toList] at hLength
    · simp [hWellFormed] at hText
  · simp at hText

end Compact
end Ext
end Yess

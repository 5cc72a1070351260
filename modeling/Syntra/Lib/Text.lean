import Mathlib.Data.List.Basic
import Mathlib.Data.List.DropRight
import Mathlib.Data.List.Infix
import Mathlib.Tactic.Common

/-!
# Text as characters

Searching and splitting strings through their characters, and hexadecimal text.
-/

set_option autoImplicit false

namespace Text

def startsWith (text beginning : String) : Bool := beginning.toList.isPrefixOf text.toList

def endsWith (text ending : String) : Bool := ending.toList.isSuffixOf text.toList

def contains (text part : String) : Bool := text.toList.tails.any part.toList.isPrefixOf

theorem contains_iff {text part : String} :
    contains text part = true ↔ part.toList <:+: text.toList := by
  simp only [contains, List.any_eq_true, List.mem_tails, List.isPrefixOf_iff_prefix,
    List.infix_iff_prefix_suffix, and_comm]

def toAsciiLowercase (text : String) : String := String.ofList (text.toList.map Char.toLower)

def utf8 (text : String) : List UInt8 := text.toUTF8.data.toList

theorem utf8_injective {left right : String} (same : utf8 left = utf8 right) : left = right :=
  String.toByteArray_inj.mp (ByteArray.ext (Array.toList_inj.mp same))

/-- What stands before and after the last `separator`, when there is one. -/
def rsplitOnce (separator : Char) (text : String) : Option (String × String) :=
  if separator ∈ text.toList then
    let reversed := text.toList.reverse
    some (String.ofList (reversed.dropWhile (fun c => c ≠ separator)).tail.reverse,
      String.ofList (reversed.takeWhile (fun c => c ≠ separator)).reverse)
  else none

theorem toList_join (left right : String) (separator : Char) :
    (left ++ String.singleton separator ++ right).toList =
      left.toList ++ separator :: right.toList := by
  simp [String.toList_append]

theorem rsplitOnce_join (left right : String) (separator : Char)
    (absent : separator ∉ right.toList) :
    rsplitOnce separator (left ++ String.singleton separator ++ right) = some (left, right) := by
  have others : ∀ c ∈ right.toList.reverse, decide (c ≠ separator) = true := by
    intro c member
    rw [decide_eq_true_eq]
    rintro rfl
    exact absent (List.mem_reverse.mp member)
  have rest : (separator :: left.toList.reverse).takeWhile (fun c => decide (c ≠ separator)) =
      [] := by simp
  have kept : (separator :: left.toList.reverse).dropWhile (fun c => decide (c ≠ separator)) =
      separator :: left.toList.reverse := by simp
  rw [rsplitOnce, toList_join, if_pos (by simp)]
  simp only [List.reverse_append, List.reverse_cons, List.append_assoc, List.singleton_append]
  rw [List.dropWhile_append_of_pos others, List.takeWhile_append_of_pos others, rest, kept]
  simp [String.ofList_toList]

theorem endsWith_join (left right : String) (separator : Char) :
    endsWith (left ++ String.singleton separator ++ right) right = true := by
  rw [endsWith, toList_join, List.isSuffixOf_iff_suffix]
  exact ⟨left.toList ++ [separator], by simp⟩

/-! ## Whitespace -/

/-- The characters of the Unicode property `White_Space`. -/
def isWhitespace (c : Char) : Bool :=
  (0x9 ≤ c.toNat && c.toNat ≤ 0xd) || (0x2000 ≤ c.toNat && c.toNat ≤ 0x200a) ||
    [0x20, 0x85, 0xa0, 0x1680, 0x2028, 0x2029, 0x202f, 0x205f, 0x3000].contains c.toNat

def trim (text : String) : String :=
  String.ofList ((text.toList.dropWhile isWhitespace).rdropWhile isWhitespace)

theorem trim_of_none {text : String} (none : ∀ c ∈ text.toList, isWhitespace c = false) :
    trim text = text := by
  have front : text.toList.dropWhile isWhitespace = text.toList := by
    rw [List.dropWhile_eq_self_iff]
    intro filled
    rw [none _ (List.getElem_mem filled)]
    simp
  have back : text.toList.rdropWhile isWhitespace = text.toList := by
    rw [List.rdropWhile_eq_self_iff]
    intro filled
    rw [none _ (List.getLast_mem filled)]
    simp
  rw [trim, front, back, String.ofList_toList]

/-! ## Parts -/

def split (separator : Char) (text : String) : List String :=
  (text.toList.splitOn separator).map String.ofList

def join (separator : Char) (parts : List String) : String :=
  String.ofList ([separator].intercalate (parts.map String.toList))

theorem split_join {separator : Char} {parts : List String} (filled : parts ≠ [])
    (absent : ∀ part ∈ parts, separator ∉ part.toList) :
    split separator (join separator parts) = parts := by
  have lists : ([separator].intercalate (parts.map String.toList)).splitOn separator =
      parts.map String.toList := by
    apply List.splitOn_intercalate
    · simpa using absent
    · simpa using filled
  rw [split, join, String.toList_ofList, lists, List.map_map]
  simp [Function.comp_def]

/-- The first `n - 1` parts and what is left after them. -/
def splitn (separator : Char) : Nat → List Char → List (List Char)
  | 0, _ => []
  | 1, text => [text]
  | n + 2, text =>
    if separator ∈ text then
      text.takeWhile (· ≠ separator) ::
        splitn separator (n + 1) (text.dropWhile (· ≠ separator)).tail
    else [text]

theorem splitn_join {separator : Char} {part : List Char} (absent : separator ∉ part)
    (n : Nat) (rest : List Char) :
    splitn separator (n + 2) (part ++ separator :: rest) = part :: splitn separator (n + 1) rest := by
  have others : ∀ c ∈ part, decide (c ≠ separator) = true := by
    intro c member
    rw [decide_eq_true_eq]
    rintro rfl
    exact absent member
  rw [splitn, if_pos (by simp), List.takeWhile_append_of_pos others,
    List.dropWhile_append_of_pos others]
  simp

theorem splitn_eq_cons {separator : Char} {n : Nat} {text part next : List Char}
    {parts : List (List Char)} (parted : splitn separator (n + 2) text = part :: next :: parts) :
    ∃ rest, text = part ++ separator :: rest ∧ separator ∉ part ∧
      splitn separator (n + 1) rest = next :: parts := by
  by_cases present : separator ∈ text
  · obtain ⟨before, after, rfl, absent⟩ := List.eq_append_cons_of_mem present
    rw [splitn_join absent, List.cons.injEq] at parted
    obtain ⟨rfl, rest⟩ := parted
    exact ⟨after, rfl, absent, rest⟩
  · rw [splitn, if_neg present] at parted
    simp at parted

/-! ## Hexadecimal -/

def hexDigit (n : Nat) : Char :=
  if n < 10 then Char.ofNat (48 + n) else Char.ofNat (87 + n)

def hexDigits (bytes : List UInt8) : List Char :=
  bytes.flatMap fun b => [hexDigit (b.toNat / 16), hexDigit (b.toNat % 16)]

def hexEncode (bytes : List UInt8) : String := String.ofList (hexDigits bytes)

theorem hexDigit_injective :
    ∀ left < 16, ∀ right < 16, hexDigit left = hexDigit right → left = right := by decide

theorem hexDigits_injective {left right : List UInt8} (same : hexDigits left = hexDigits right) :
    left = right := by
  induction left generalizing right with
  | nil =>
      cases right with
      | nil => rfl
      | cons b right => simp [hexDigits] at same
  | cons a left ih =>
      cases right with
      | nil => simp [hexDigits] at same
      | cons b right =>
          have aSmall := a.toNat_lt
          have bSmall := b.toNat_lt
          simp only [hexDigits, List.flatMap_cons, List.cons_append, List.nil_append,
            List.cons.injEq] at same
          obtain ⟨high, low, rest⟩ := same
          have highs := hexDigit_injective _ (by omega) _ (by omega) high
          have lows := hexDigit_injective _ (by omega) _ (by omega) low
          have bytes : a = b := UInt8.toNat_inj.mp (by omega)
          rw [bytes, ih rest]

theorem hexEncode_injective {left right : List UInt8} (same : hexEncode left = hexEncode right) :
    left = right := by
  apply hexDigits_injective
  simpa [hexEncode] using congrArg String.toList same

theorem length_hexDigits (bytes : List UInt8) : (hexDigits bytes).length = 2 * bytes.length := by
  induction bytes with
  | nil => rfl
  | cons b bytes ih =>
      simp only [hexDigits, List.flatMap_cons, List.length_append, List.length_cons,
        List.length_nil] at ih ⊢
      omega

theorem hexDigit_cases (n : Nat) (digit : n < 16) :
    hexDigit n ∈ ("0123456789abcdef".toList) := by
  have all : ∀ n < 16, hexDigit n ∈ ("0123456789abcdef".toList) := by decide
  exact all n digit

theorem mem_hexDigits {bytes : List UInt8} {c : Char} (member : c ∈ hexDigits bytes) :
    c ∈ ("0123456789abcdef".toList) := by
  obtain ⟨b, -, digit⟩ := List.mem_flatMap.mp member
  have small := b.toNat_lt
  simp only [List.mem_cons, List.not_mem_nil, or_false] at digit
  rcases digit with rfl | rfl
  · exact hexDigit_cases _ (by omega)
  · exact hexDigit_cases _ (by omega)

/-! ## Reading hexadecimal -/

def hexValue (c : Char) : Option Nat :=
  if '0' ≤ c ∧ c ≤ '9' then some (c.toNat - 48)
  else if 'a' ≤ c ∧ c ≤ 'f' then some (c.toNat - 87)
  else none

/-- Two digits a byte, in lower case. -/
def hexDecode : List Char → Option (List UInt8)
  | [] => some []
  | [_] => none
  | high :: low :: rest => do
    let high ← hexValue high
    let low ← hexValue low
    let bytes ← hexDecode rest
    some (UInt8.ofNat (16 * high + low) :: bytes)

theorem hexValue_hexDigit : ∀ n < 16, hexValue (hexDigit n) = some n := by decide

theorem hexDecode_hexDigits (bytes : List UInt8) : hexDecode (hexDigits bytes) = some bytes := by
  induction bytes with
  | nil => rfl
  | cons b bytes ih =>
      have small := b.toNat_lt
      have digits : hexDigits (b :: bytes) =
          hexDigit (b.toNat / 16) :: hexDigit (b.toNat % 16) :: hexDigits bytes := rfl
      have whole : 16 * (b.toNat / 16) + b.toNat % 16 = b.toNat := Nat.div_add_mod _ _
      rw [digits, hexDecode, hexValue_hexDigit _ (by omega), hexValue_hexDigit _ (by omega), ih]
      simp only [Option.bind_eq_bind, Option.bind_some, whole, UInt8.ofNat_toNat]

end Text

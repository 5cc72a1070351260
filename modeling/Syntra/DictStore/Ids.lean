import Mathlib.Data.String.Basic
import Syntra.DictStore

/-!
# The ids of dictionaries

An id is the sanitized class, a dot and sixteen digits.  Sanitized text has no
dot, so the class can be read back, and one byte a character, so the length the
store accepts in an id is a length of the class.
-/

set_option autoImplicit false

namespace Syntra

open Text

/-! ## Sanitized characters -/

/-- The characters `sanitize` leaves. -/
def isPlainChar (c : Char) : Bool :=
  ('a' ≤ c && c ≤ 'z') || ('0' ≤ c && c ≤ '9') || c = '-' || c = '_'

theorem lowered_isPlainChar :
    ∀ n < 26, isPlainChar (Char.ofNat (65 + n + 32)) = true := by decide

theorem sanitizeChar_isPlainChar (c : Char) : isPlainChar (sanitizeChar c) = true := by
  unfold sanitizeChar
  split
  · rename_i kept
    simp only [isPlainChar, Bool.or_eq_true, Bool.and_eq_true, decide_eq_true_eq]
    tauto
  · split
    · rename_i _ upper
      have low : 65 ≤ c.toNat := upper.1
      have high : c.toNat ≤ 90 := upper.2
      have lowered := lowered_isPlainChar (c.toNat - 65) (by omega)
      rwa [Nat.add_sub_cancel' low] at lowered
    · decide

theorem sanitizeChar_of_isPlainChar (c : Char) (plain : isPlainChar c = true) :
    sanitizeChar c = c := by
  simp only [isPlainChar, Bool.or_eq_true, Bool.and_eq_true, decide_eq_true_eq] at plain
  by_cases underscore : c = '_'
  · subst underscore
    decide
  · rw [sanitizeChar, if_pos]
    tauto

theorem plain_ne_dot (c : Char) (plain : isPlainChar c = true) : c ≠ '.' := by
  rintro rfl
  simp [isPlainChar] at plain

theorem plain_small (c : Char) (plain : isPlainChar c = true) : c.utf8Size = 1 := by
  rw [Char.utf8Size_eq_one_iff]
  simp only [isPlainChar, Bool.or_eq_true, Bool.and_eq_true, decide_eq_true_eq] at plain
  rcases plain with ((⟨-, high⟩ | ⟨-, high⟩) | rfl) | rfl
  · exact UInt32.le_trans high (by decide)
  · exact UInt32.le_trans high (by decide)
  · decide
  · decide

theorem hexDigit_isPlainChar :
    ∀ c ∈ "0123456789abcdef".toList, isPlainChar c = true :=
  List.all_eq_true.mp (by decide)

theorem plain_allowed (c : Char) (plain : isPlainChar c = true) :
    (DictStore.isAsciiAlphanumeric c || c = '.' || c = '_' || c = '-') = true := by
  simp only [isPlainChar, DictStore.isAsciiAlphanumeric, Bool.or_eq_true, Bool.and_eq_true,
    decide_eq_true_eq] at plain ⊢
  tauto

/-! ## Sanitized classes -/

theorem toList_sanitize (contentClass : String) :
    (sanitize contentClass).toList = contentClass.toList.map sanitizeChar := by
  simp [sanitize]

theorem sanitize_plain {contentClass : String} {c : Char}
    (member : c ∈ (sanitize contentClass).toList) : isPlainChar c = true := by
  rw [toList_sanitize] at member
  obtain ⟨source, -, rfl⟩ := List.mem_map.mp member
  exact sanitizeChar_isPlainChar source

@[simp] theorem sanitize_sanitize (contentClass : String) :
    sanitize (sanitize contentClass) = sanitize contentClass := by
  apply String.toList_inj.mp
  rw [toList_sanitize, toList_sanitize, List.map_map]
  apply List.map_congr_left
  intro c _
  exact sanitizeChar_of_isPlainChar _ (sanitizeChar_isPlainChar c)

theorem length_sanitize (contentClass : String) :
    (sanitize contentClass).toList.length = contentClass.length := by
  rw [toList_sanitize, List.length_map, String.length_toList]

/-! ## Ids -/

variable (P : Platform)

theorem digestSuffix_plain {digest : Digest} {c : Char}
    (member : c ∈ (digestSuffix digest).toList) : isPlainChar c = true := by
  simp only [digestSuffix, hexEncode, String.toList_ofList] at member
  exact hexDigit_isPlainChar c (mem_hexDigits member)

theorem length_digestSuffix (digest : Digest) : (digestSuffix digest).toList.length = 16 := by
  simp only [digestSuffix, hexEncode, String.toList_ofList, length_hexDigits, List.length_take,
    digest.property]
  omega

theorem dot_not_mem_digestSuffix (digest : Digest) : '.' ∉ (digestSuffix digest).toList :=
  fun member => plain_ne_dot '.' (digestSuffix_plain member) rfl

theorem classOfId_new (contentClass : String) (bytes : Bytes) :
    DictStore.classOfId (Dictionary.new P contentClass bytes).id = sanitize contentClass := by
  have split := rsplitOnce_join (sanitize contentClass) (digestSuffix (P.blake3 bytes)) '.'
    (dot_not_mem_digestSuffix _)
  simp only [DictStore.classOfId, Dictionary.new, split, Option.map_some, Option.getD_some]

theorem checkedDictionary_new (contentClass : String) (bytes : Bytes) :
    DictStore.checkedDictionary P (Dictionary.new P contentClass bytes).id bytes =
      some (Dictionary.new P contentClass bytes) :=
  if_pos (endsWith_join _ _ '.')

theorem utf8ByteSize_of_small (text : String) (small : ∀ c ∈ text.toList, c.utf8Size = 1) :
    text.utf8ByteSize = text.toList.length := by
  have count : ∀ chars : List Char, (∀ c ∈ chars, c.utf8Size = 1) →
      String.utf8Len chars = chars.length := by
    intro chars all
    induction chars with
    | nil => rfl
    | cons c chars ih =>
        rw [String.utf8Len_cons, all c (by simp), ih (fun c member => all c (by simp [member])),
          List.length_cons]
  conv_lhs => rw [← String.ofList_toList (s := text)]
  rw [String.utf8ByteSize_ofList, count _ small]

theorem mem_new_id {contentClass : String} {bytes : Bytes} {c : Char}
    (member : c ∈ (Dictionary.new P contentClass bytes).id.toList) :
    isPlainChar c = true ∨ c = '.' := by
  simp only [Dictionary.new] at member
  rw [toList_join] at member
  rcases List.mem_append.mp member with inClass | inRest
  · exact Or.inl (sanitize_plain inClass)
  · rcases List.mem_cons.mp inRest with dot | inSuffix
    · exact Or.inr dot
    · exact Or.inl (digestSuffix_plain inSuffix)

theorem length_new_id (contentClass : String) (bytes : Bytes) :
    (Dictionary.new P contentClass bytes).id.toList.length = contentClass.length + 17 := by
  simp only [Dictionary.new]
  rw [toList_join, List.length_append, List.length_cons, length_sanitize, length_digestSuffix]

/-- The bytes of an id, counted through the characters of its class. -/
theorem isValidId_new (contentClass : String) (bytes : Bytes) :
    DictStore.isValidId (Dictionary.new P contentClass bytes).id = true ↔
      contentClass.length ≤ 111 := by
  have length := length_new_id P contentClass bytes
  have size : (Dictionary.new P contentClass bytes).id.utf8ByteSize =
      contentClass.length + 17 := by
    rw [utf8ByteSize_of_small, length]
    intro c member
    rcases mem_new_id P member with plain | rfl
    · exact plain_small c plain
    · decide
  have filled : (Dictionary.new P contentClass bytes).id ≠ "" := by
    intro empty
    rw [empty] at length
    simp at length
  have allowed : (Dictionary.new P contentClass bytes).id.toList.all (fun c =>
      DictStore.isAsciiAlphanumeric c || c = '.' || c = '_' || c = '-') = true := by
    rw [List.all_eq_true]
    intro c member
    rcases mem_new_id P member with plain | rfl
    · exact plain_allowed c plain
    · decide
  simp only [DictStore.isValidId, size, filled, allowed, ne_eq, not_false_eq_true, decide_true,
    Bool.true_and, Bool.and_true, decide_eq_true_eq]
  omega

end Syntra

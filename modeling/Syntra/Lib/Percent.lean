import Syntra.Lib.Text

/-!
# Percent encoding

Bytes as text in which every byte but the ASCII letters and digits is a `%` and two
upper-case digits, as `utf8_percent_encode` writes the set `NON_ALPHANUMERIC`, and such
text read back.
-/

set_option autoImplicit false

namespace Text

def isAsciiAlphanumeric (c : Char) : Bool :=
  ('a' ≤ c && c ≤ 'z') || ('A' ≤ c && c ≤ 'Z') || ('0' ≤ c && c ≤ '9')

def byteChar (b : UInt8) : Char := Char.ofNat b.toNat

def upperHexDigit (n : Nat) : Char :=
  if n < 10 then Char.ofNat ('0'.toNat + n) else Char.ofNat ('A'.toNat + (n - 10))

def percentByte (b : UInt8) : List Char :=
  if isAsciiAlphanumeric (byteChar b) then [byteChar b]
  else ['%', upperHexDigit (b.toNat / 16), upperHexDigit (b.toNat % 16)]

def percentEncode (bytes : List UInt8) : List Char := bytes.flatMap percentByte

def upperHexValue (c : Char) : Option Nat :=
  if '0' ≤ c ∧ c ≤ '9' then some (c.toNat - '0'.toNat)
  else if 'A' ≤ c ∧ c ≤ 'F' then some (c.toNat - 'A'.toNat + 10)
  else none

theorem percentEncode_plain {bytes : List UInt8} {c : Char} (member : c ∈ percentEncode bytes) :
    isAsciiAlphanumeric c = true ∨ c = '%' := by
  have digits : ∀ n < 16, isAsciiAlphanumeric (upperHexDigit n) = true := by decide
  obtain ⟨b, -, written⟩ := List.mem_flatMap.mp member
  have small : b.toNat < 256 := b.toNat_lt
  unfold percentByte at written
  split at written
  · rename_i plain
    rw [List.mem_singleton] at written
    exact Or.inl (written ▸ plain)
  · simp only [List.mem_cons, List.not_mem_nil, or_false] at written
    rcases written with rfl | rfl | rfl
    · exact Or.inr rfl
    · exact Or.inl (digits _ (by omega))
    · exact Or.inl (digits _ (by omega))

/-- `%` and two digits are a byte, any other character is its own. -/
def percentDecode : List Char → Option (List UInt8)
  | [] => some []
  | '%' :: high :: low :: rest => do
    let high ← upperHexValue high
    let low ← upperHexValue low
    (percentDecode rest).map (UInt8.ofNat (high * 16 + low) :: ·)
  | c :: rest => if c = '%' then none else (percentDecode rest).map (UInt8.ofNat c.toNat :: ·)

theorem percentDecode_percentByte (b : UInt8) (rest : List Char) :
    percentDecode (percentByte b ++ rest) = (percentDecode rest).map (b :: ·) := by
  have digits : ∀ n < 256, upperHexValue (upperHexDigit (n / 16)) = some (n / 16) ∧
      upperHexValue (upperHexDigit (n % 16)) = some (n % 16) := by decide +kernel
  have small : b.toNat < 256 := b.toNat_lt
  unfold percentByte
  split
  · rename_i plain
    have own : ∀ n < 256, isAsciiAlphanumeric (Char.ofNat n) = true →
        (Char.ofNat n).toNat = n ∧ Char.ofNat n ≠ '%' := by decide +kernel
    obtain ⟨same, other⟩ := own b.toNat small plain
    rw [List.singleton_append, percentDecode.eq_def]
    split
    · rename_i impossible
      cases impossible
    · rename_i first second tail shape
      exact absurd (List.cons.inj shape).1 other
    · rename_i c tail _ shape
      obtain ⟨rfl, rfl⟩ := List.cons.inj shape
      have apart : byteChar b ≠ '%' := other
      rw [if_neg apart, byteChar, same, UInt8.ofNat_toNat]
  · obtain ⟨high, low⟩ := digits b.toNat small
    simp only [List.cons_append, List.nil_append, percentDecode, high, low, Option.bind_eq_bind,
      Option.bind_some]
    rw [Nat.div_add_mod', UInt8.ofNat_toNat]

theorem percentDecode_percentEncode (bytes : List UInt8) :
    percentDecode (percentEncode bytes) = some bytes := by
  induction bytes with
  | nil => rfl
  | cons b bytes ih =>
      rw [percentEncode, List.flatMap_cons, percentDecode_percentByte]
      rw [percentEncode] at ih
      rw [ih, Option.map_some]

end Text

import Mathlib.Algebra.Order.Ring.Nat
import Mathlib.Tactic.Ring

/-!
# Little-endian words

A word of `width` bytes is a natural number below `256 ^ width`.  `toBytes`
truncates like a cast to a narrower machine integer does, so it is total and
the round trips below say what the truncation keeps.
-/

set_option autoImplicit false

namespace LittleEndian

def toBytes : Nat → Nat → List UInt8
  | 0, _ => []
  | width + 1, value => UInt8.ofNat (value % 256) :: toBytes width (value / 256)

def ofBytes : List UInt8 → Nat
  | [] => 0
  | byte :: rest => byte.toNat + 256 * ofBytes rest

@[simp] theorem length_toBytes (width value : Nat) :
    (toBytes width value).length = width := by
  induction width generalizing value with
  | zero => rfl
  | succ width ih => simp [toBytes, ih]

theorem ofBytes_lt (bytes : List UInt8) : ofBytes bytes < 256 ^ bytes.length := by
  induction bytes with
  | nil => simp [ofBytes]
  | cons byte rest ih =>
      have small : byte.toNat < 256 := byte.toNat_lt
      simp only [ofBytes, List.length_cons, pow_succ]
      omega

/-- A byte more is shifted above the word of the bytes before it. -/
theorem ofBytes_concat (bytes : List UInt8) (byte : UInt8) :
    ofBytes (bytes ++ [byte]) = ofBytes bytes ||| byte.toNat <<< (8 * bytes.length) := by
  have below : ofBytes bytes < 2 ^ (8 * bytes.length) := by
    rw [Nat.pow_mul]
    exact ofBytes_lt bytes
  rw [Nat.or_comm, ← Nat.shiftLeft_add_eq_or_of_lt below, Nat.shiftLeft_eq, Nat.pow_mul]
  clear below
  induction bytes with
  | nil => simp [ofBytes]
  | cons first rest ih =>
      rw [List.cons_append, ofBytes, ih, ofBytes, List.length_cons]
      ring

theorem ofBytes_toBytes (width value : Nat) :
    ofBytes (toBytes width value) = value % 256 ^ width := by
  induction width generalizing value with
  | zero => simp [toBytes, ofBytes, Nat.mod_one]
  | succ width ih =>
      have low : (UInt8.ofNat (value % 256)).toNat = value % 256 := by
        simp [UInt8.toNat_ofNat']
      simp only [toBytes, ofBytes, low, ih]
      rw [pow_succ, Nat.mul_comm (256 ^ width) 256, Nat.mod_mul]

theorem ofBytes_toBytes_of_lt (width value : Nat) (fits : value < 256 ^ width) :
    ofBytes (toBytes width value) = value := by
  rw [ofBytes_toBytes, Nat.mod_eq_of_lt fits]

theorem toBytes_ofBytes (bytes : List UInt8) :
    toBytes bytes.length (ofBytes bytes) = bytes := by
  induction bytes with
  | nil => rfl
  | cons byte rest ih =>
      have small : byte.toNat < 256 := byte.toNat_lt
      have head : (byte.toNat + 256 * ofBytes rest) % 256 = byte.toNat := by omega
      have tail : (byte.toNat + 256 * ofBytes rest) / 256 = ofBytes rest := by omega
      simp only [List.length_cons, ofBytes, toBytes, head, tail, ih, UInt8.ofNat_toNat]

theorem toBytes_congr (width left right : Nat)
    (same : left % 256 ^ width = right % 256 ^ width) :
    toBytes width left = toBytes width right := by
  rw [← ofBytes_toBytes, ← ofBytes_toBytes] at same
  have leftExact := toBytes_ofBytes (toBytes width left)
  have rightExact := toBytes_ofBytes (toBytes width right)
  rw [length_toBytes] at leftExact rightExact
  rw [← leftExact, same, rightExact]

end LittleEndian

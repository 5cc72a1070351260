import Mathlib.Algebra.Order.Ring.Nat
import Mathlib.Tactic.Common

/-!
# Prefix codes

A coding of values as bytes that can be read back in front of anything else.
Codes compose, so a record is coded by coding its fields one after the other.
-/

set_option autoImplicit false

universe u v

structure PrefixCode (α : Type u) where
  encode : α → List UInt8
  decode : List UInt8 → Option (α × List UInt8)
  decode_encode : ∀ value rest, decode (encode value ++ rest) = some (value, rest)

namespace PrefixCode

variable {α : Type u} {β : Type v}

/-- The binary digits of `n`, the lowest first, as ones and twos before a zero. -/
def digits : Nat → Nat → List UInt8
  | 0, _ => [0]
  | fuel + 1, n => if n = 0 then [0] else (if n % 2 = 0 then 1 else 2) :: digits fuel (n / 2)

def readDigits : List UInt8 → Option (Nat × List UInt8)
  | [] => none
  | b :: rest =>
    if b = 0 then some (0, rest)
    else (readDigits rest).map fun r => (2 * r.1 + (if b = 1 then 0 else 1), r.2)

theorem readDigits_digits (fuel n : Nat) (rest : List UInt8) (enough : n < 2 ^ fuel) :
    readDigits (digits fuel n ++ rest) = some (n, rest) := by
  induction fuel generalizing n with
  | zero =>
      have zero : n = 0 := by omega
      rw [zero]
      rfl
  | succ fuel ih =>
      rw [digits]
      split
      · rename_i zero
        rw [zero]
        rfl
      · have half : n / 2 < 2 ^ fuel := by
          rw [Nat.pow_succ] at enough
          omega
        have parity := Nat.mod_two_eq_zero_or_one n
        rcases parity with even | odd
        · rw [if_pos even, List.cons_append, readDigits, if_neg (by decide), ih _ half, if_pos rfl,
            Option.map_some, Option.some.injEq, Prod.mk.injEq]
          exact ⟨by omega, rfl⟩
        · rw [if_neg (by omega), List.cons_append, readDigits, if_neg (by decide), ih _ half,
            if_neg (by decide), Option.map_some, Option.some.injEq, Prod.mk.injEq]
          exact ⟨by omega, rfl⟩

def nat : PrefixCode Nat where
  encode n := digits (n.log2 + 1) n
  decode := readDigits
  decode_encode n rest := readDigits_digits _ n rest Nat.lt_log2_self

/-- Codes `β` as the values of `α` it stands for. -/
def ofInverse (code : PrefixCode α) (image : β → α) (back : α → β)
    (inverse : ∀ value, back (image value) = value) : PrefixCode β where
  encode value := code.encode (image value)
  decode bytes := (code.decode bytes).map fun r => (back r.1, r.2)
  decode_encode value rest := by simp [code.decode_encode, inverse]

def pair (first : PrefixCode α) (second : PrefixCode β) : PrefixCode (α × β) where
  encode value := first.encode value.1 ++ second.encode value.2
  decode bytes := (first.decode bytes).bind fun r =>
    (second.decode r.2).map fun q => ((r.1, q.1), q.2)
  decode_encode value rest := by
    simp [List.append_assoc, first.decode_encode, second.decode_encode]

def readItems (code : PrefixCode α) : Nat → List UInt8 → Option (List α × List UInt8)
  | 0, rest => some ([], rest)
  | n + 1, rest => (code.decode rest).bind fun r =>
    (readItems code n r.2).map fun q => (r.1 :: q.1, q.2)

theorem readItems_flatMap (code : PrefixCode α) (items : List α) (rest : List UInt8) :
    readItems code items.length (items.flatMap code.encode ++ rest) = some (items, rest) := by
  induction items with
  | nil => rfl
  | cons item items ih =>
      rw [List.length_cons, List.flatMap_cons, List.append_assoc, readItems, code.decode_encode,
        Option.bind_some, ih]
      rfl

def list (code : PrefixCode α) : PrefixCode (List α) where
  encode items := nat.encode items.length ++ items.flatMap code.encode
  decode bytes := (nat.decode bytes).bind fun r => readItems code r.1 r.2
  decode_encode items rest := by
    rw [List.append_assoc, nat.decode_encode, Option.bind_some, readItems_flatMap]

def option (code : PrefixCode α) : PrefixCode (Option α) :=
  code.list.ofInverse Option.toList List.head? (by rintro (_ | _) <;> rfl)

def bool : PrefixCode Bool :=
  nat.ofInverse Bool.toNat (fun n => n = 1) (by decide)

def byte : PrefixCode UInt8 := nat.ofInverse UInt8.toNat UInt8.ofNat fun _ => UInt8.ofNat_toNat

def int : PrefixCode Int :=
  (nat.pair nat).ofInverse (fun n => (n.toNat, (-n).toNat)) (fun r => (r.1 : Int) - r.2)
    (by intro n; omega)

def string : PrefixCode String :=
  nat.list.ofInverse (fun text => text.toList.map Char.toNat)
    (fun codes => String.ofList (codes.map Char.ofNat)) (by
      intro text
      simp [Function.comp_def, Char.ofNat_toNat])

end PrefixCode

import Mathlib.Algebra.Order.Ring.Nat
import Mathlib.Tactic.Ring

/-!
# Base-128 numbers

Seven bits a byte, lowest first, the high bit set on every byte but the last.
The reader keeps a 64-bit accumulator: a byte read at shift 63 loses the bits
that do not fit, and an eleventh byte is refused.
-/

set_option autoImplicit false

namespace Leb128

universe u

variable {ε : Type u}

def encode (value : Nat) : List UInt8 :=
  let byte := UInt8.ofNat (value &&& 0x7f)
  let rest := value >>> 7
  if rest = 0 then [byte] else (byte ||| 0x80) :: encode rest
termination_by value
decreasing_by
  rw [Nat.shiftRight_eq_div_pow] at *
  omega

def decode (truncated range : ε) (shift acc : Nat) :
    List UInt8 → Except ε (Nat × List UInt8)
  | [] => .error truncated
  | byte :: rest =>
    if 63 < shift then .error range
    else
      let value := acc ||| (((byte &&& 0x7f).toNat <<< shift) % 2 ^ 64)
      if byte &&& 0x80 = 0 then .ok (value, rest)
      else decode truncated range (shift + 7) value rest

theorem encode_of_lt (value : Nat) (small : value < 128) :
    encode value = [UInt8.ofNat value] := by
  have low : value &&& 0x7f = value := by
    rw [show (0x7f : Nat) = 2 ^ 7 - 1 by rfl, Nat.and_two_pow_sub_one_eq_mod]
    omega
  have none_left : value >>> 7 = 0 := by
    rw [Nat.shiftRight_eq_div_pow]
    omega
  rw [encode]
  simp only [low, none_left, if_true]

def continued (value : Nat) : UInt8 := UInt8.ofNat (value &&& 0x7f) ||| 0x80

theorem encode_of_le (value : Nat) (large : 128 ≤ value) :
    encode value = continued value :: encode (value / 128) := by
  have left : value >>> 7 = value / 128 := Nat.shiftRight_eq_div_pow value 7
  have more : value / 128 ≠ 0 := by omega
  rw [encode]
  simp only [left, more, if_false, continued]

theorem continued_low (value : Nat) :
    (continued value &&& 0x7f).toNat = value % 128 := by
  have low : (UInt8.ofNat (value &&& 0x7f)).toNat = value % 128 := by
    rw [show (0x7f : Nat) = 2 ^ 7 - 1 by rfl, Nat.and_two_pow_sub_one_eq_mod]
    simp only [UInt8.toNat_ofNat']
    omega
  have mask : (0x7f : UInt8).toNat = 2 ^ 7 - 1 := rfl
  have high : (0x80 : UInt8).toNat = 2 ^ 7 * 1 := rfl
  rw [continued, UInt8.toNat_and, UInt8.toNat_or, low, high, mask,
    Nat.and_two_pow_sub_one_eq_mod, Nat.or_comm, ← Nat.two_pow_add_eq_or_of_lt (by omega)]
  omega

theorem continued_high (value : Nat) : continued value &&& 0x80 ≠ 0 := by
  have bytes : ∀ byte : UInt8, (byte ||| 0x80) &&& 0x80 ≠ 0 := by
    intro byte equal
    have cleared := congrArg (fun b : UInt8 => b.toBitVec.getLsbD 7) equal
    simp at cleared
  exact bytes _

theorem final_low (value : Nat) (small : value < 128) :
    (UInt8.ofNat value &&& 0x7f).toNat = value := by
  have mask : (0x7f : UInt8).toNat = 2 ^ 7 - 1 := rfl
  rw [UInt8.toNat_and, mask, Nat.and_two_pow_sub_one_eq_mod]
  simp only [UInt8.toNat_ofNat']
  omega

theorem final_high (value : Nat) (small : value < 128) :
    UInt8.ofNat value &&& 0x80 = 0 := by
  have all : ∀ byte : Fin 128, UInt8.ofNat byte.val &&& 0x80 = 0 := by decide
  exact all ⟨value, small⟩

/-- A digit placed above an accumulator that ends below it, as far as it fits 64 bits. -/
theorem place_digit_mod (acc digit shift : Nat) (below : acc < 2 ^ shift) (inRange : shift ≤ 63) :
    acc ||| ((digit <<< shift) % 2 ^ 64) = (acc + digit * 2 ^ shift) % 2 ^ 64 := by
  have split : 2 ^ 64 = 2 ^ shift * 2 ^ (64 - shift) := by
    rw [← pow_add]
    congr 1
    omega
  have kept : (digit <<< shift) % 2 ^ 64 = 2 ^ shift * (digit % 2 ^ (64 - shift)) := by
    rw [Nat.shiftLeft_eq, split, Nat.mul_comm digit, Nat.mul_mod_mul_left]
  have room : acc + 2 ^ shift * (digit % 2 ^ (64 - shift)) < 2 ^ 64 := by
    have high : digit % 2 ^ (64 - shift) + 1 ≤ 2 ^ (64 - shift) :=
      Nat.mod_lt _ (Nat.two_pow_pos _)
    have scaled := Nat.mul_le_mul_left (2 ^ shift) high
    rw [← split, Nat.mul_add, Nat.mul_one] at scaled
    omega
  have whole : acc + digit * 2 ^ shift =
      acc + 2 ^ shift * (digit % 2 ^ (64 - shift)) + 2 ^ 64 * (digit / 2 ^ (64 - shift)) := by
    conv_lhs => rw [← Nat.mod_add_div digit (2 ^ (64 - shift))]
    rw [split]
    ring
  rw [kept, Nat.or_comm, ← Nat.two_pow_add_eq_or_of_lt below, whole, Nat.add_mul_mod_self_left,
    Nat.mod_eq_of_lt room, Nat.add_comm]

/-- What the reader returns on an encoded number that fits 64 bits above `acc`,
by induction on the number's digits. -/
theorem decode_encode (truncated range : ε) (value shift acc : Nat) (rest : List UInt8)
    (below : acc < 2 ^ shift) (fits : acc + value * 2 ^ shift < 2 ^ 64)
    (inRange : shift ≤ 63) :
    decode truncated range shift acc (encode value ++ rest) =
      .ok (acc + value * 2 ^ shift, rest) := by
  induction value using Nat.strongRecOn generalizing shift acc with
  | ind value ih =>
    have notAbove : ¬ 63 < shift := by omega
    by_cases small : value < 128
    · rw [encode_of_lt value small, List.singleton_append, decode, if_neg notAbove]
      simp only [final_low value small, final_high value small, if_true]
      rw [place_digit_mod acc value shift below inRange, Nat.mod_eq_of_lt fits]
    · have large : 128 ≤ value := Nat.le_of_not_lt small
      have digits : value % 128 + 128 * (value / 128) = value := Nat.mod_add_div value 128
      have power : 2 ^ (shift + 7) = 128 * 2 ^ shift := by ring
      have split : value * 2 ^ shift =
          value % 128 * 2 ^ shift + value / 128 * 2 ^ (shift + 7) := by
        rw [power]
        nth_rewrite 1 [← digits]
        ring
      have digitFits : acc + value % 128 * 2 ^ shift < 2 ^ 64 := by omega
      have nextBelow : acc + value % 128 * 2 ^ shift < 2 ^ (shift + 7) := by
        have bound : value % 128 * 2 ^ shift ≤ 127 * 2 ^ shift :=
          Nat.mul_le_mul_right _ (by omega)
        omega
      have nextRange : shift + 7 ≤ 63 := by
        by_contra beyond
        have step : 2 ^ 64 ≤ 2 ^ (shift + 7) := Nat.pow_le_pow_right (by omega) (by omega)
        have atLeast : 1 * 2 ^ (shift + 7) ≤ value / 128 * 2 ^ (shift + 7) :=
          Nat.mul_le_mul_right _ (by omega)
        omega
      rw [encode_of_le value large, List.cons_append, decode, if_neg notAbove]
      simp only [continued_low, continued_high, if_false]
      rw [place_digit_mod acc _ shift below inRange, Nat.mod_eq_of_lt digitFits,
        ih (value / 128) (by omega) (shift + 7) _ nextBelow (by omega) nextRange]
      simp only [Except.ok.injEq, Prod.mk.injEq, and_true]
      omega

theorem length_encode_pos (value : Nat) : 1 ≤ (encode value).length := by
  by_cases small : value < 128
  · simp [encode_of_lt value small]
  · simp [encode_of_le value (Nat.le_of_not_lt small)]

/-- One byte for each started digit: `k` digits hold every number below `128 ^ k`. -/
theorem length_encode_le (digits value : Nat) (positive : 0 < digits)
    (fits : value < 128 ^ digits) : (encode value).length ≤ digits := by
  induction digits generalizing value with
  | zero => omega
  | succ digits ih =>
    by_cases small : value < 128
    · simp [encode_of_lt value small]
    · have more : digits ≠ 0 := by
        rintro rfl
        omega
      have rest : value / 128 < 128 ^ digits := by
        rw [Nat.div_lt_iff_lt_mul (by decide), ← pow_succ]
        exact fits
      have bound := ih (value / 128) (by omega) rest
      rw [encode_of_le value (Nat.le_of_not_lt small), List.length_cons]
      omega

theorem length_encode_le_succ (value : Nat) : (encode value).length ≤ 1 + value / 128 := by
  induction value using Nat.strongRecOn with
  | ind value ih =>
    by_cases small : value < 128
    · simp [encode_of_lt value small]
    · have bound := ih (value / 128) (by omega)
      rw [encode_of_le value (Nat.le_of_not_lt small), List.length_cons]
      omega

theorem decode_length {truncated range : ε} {shift acc value : Nat} {data rest : List UInt8}
    (read : decode truncated range shift acc data = .ok (value, rest)) :
    rest.length < data.length := by
  induction data generalizing shift acc with
  | nil => cases read
  | cons byte data ih =>
      rw [decode] at read
      split at read
      · cases read
      · dsimp only at read
        split at read
        · cases read
          exact Nat.lt_succ_self _
        · exact (ih read).trans (Nat.lt_succ_self _)

/-! ## What the bytes of a number say -/

def value (bytes : List UInt8) : Nat :=
  (bytes.zipIdx.map fun entry => (entry.1 &&& 0x7f).toNat * 2 ^ (7 * entry.2)).sum

/-- The bytes of one number: the last one, and only it, has its high bit clear. -/
def Complete : List UInt8 → Prop
  | [] => False
  | byte :: rest => if byte &&& 0x80 = 0 then rest = [] else Complete rest

/-- A tenth byte that ends its number and has more than the one bit that is left for it. -/
def Spills (data : List UInt8) : Prop :=
  (∀ byte ∈ data.take 9, byte &&& 0x80 ≠ 0) ∧
    ∃ last, data[9]? = some last ∧ last &&& 0x80 = 0 ∧ 1 < (last &&& 0x7f).toNat

theorem value_zipIdx (bytes : List UInt8) (first : Nat) :
    ((bytes.zipIdx first).map fun entry => (entry.1 &&& 0x7f).toNat * 2 ^ (7 * entry.2)).sum =
      2 ^ (7 * first) * value bytes := by
  induction bytes generalizing first with
  | nil => simp [value]
  | cons byte rest ih =>
      have power : 2 ^ (7 * (first + 1)) = 2 ^ (7 * first) * 2 ^ (7 * 1) := by
        rw [← pow_add]
        ring
      rw [value, List.zipIdx_cons, List.zipIdx_cons, List.map_cons, List.map_cons, List.sum_cons,
        List.sum_cons, ih, ih, power]
      simp only [Nat.zero_add, Nat.mul_zero, pow_zero, Nat.mul_one]
      ring

theorem value_cons (byte : UInt8) (rest : List UInt8) :
    value (byte :: rest) = (byte &&& 0x7f).toNat + 128 * value rest := by
  conv_lhs => rw [value, List.zipIdx_cons, List.map_cons, List.sum_cons, value_zipIdx]
  simp

theorem digit_le (byte : UInt8) : (byte &&& 0x7f).toNat ≤ 127 := by
  rw [UInt8.toNat_and]
  exact Nat.and_le_right

theorem value_lt (bytes : List UInt8) : value bytes < 2 ^ (7 * bytes.length) := by
  induction bytes with
  | nil => decide
  | cons byte rest ih =>
      have low := digit_le byte
      have power : 2 ^ (7 * (rest.length + 1)) = 128 * 2 ^ (7 * rest.length) := by ring
      rw [value_cons, List.length_cons, power]
      omega

theorem Complete.ne_nil {bytes : List UInt8} (complete : Complete bytes) : bytes ≠ [] := by
  rintro rfl
  exact complete

/-- No number begins another one. -/
theorem Complete.unique {front front' rest rest' : List UInt8} (complete : Complete front)
    (complete' : Complete front') (same : front ++ rest = front' ++ rest') :
    front = front' ∧ rest = rest' := by
  induction front generalizing front' with
  | nil => exact absurd rfl complete.ne_nil
  | cons byte front ih =>
      cases front' with
      | nil => exact absurd rfl complete'.ne_nil
      | cons byte' front' =>
          obtain ⟨rfl, tails⟩ := List.cons.inj same
          rw [Complete] at complete complete'
          split at complete
          · rename_i final
            rw [if_pos final] at complete'
            subst complete complete'
            exact ⟨rfl, tails⟩
          · rename_i more
            rw [if_neg more] at complete'
            obtain ⟨rfl, rfl⟩ := ih complete complete' tails
            exact ⟨rfl, rfl⟩

/-- What the reader returns: the bytes of one number, at most ten with those before,
and their value as far as 64 bits hold it. -/
theorem decode_eq_ok {truncated range : ε} {turn acc got : Nat} {data rest : List UInt8}
    (below : acc < 2 ^ (7 * turn)) (turns : turn ≤ 10) :
    decode truncated range (7 * turn) acc data = .ok (got, rest) ↔
      ∃ front, data = front ++ rest ∧ Complete front ∧ turn + front.length ≤ 10 ∧
        got = (acc + value front * 2 ^ (7 * turn)) % 2 ^ 64 := by
  induction data generalizing turn acc with
  | nil =>
      rw [decode]
      constructor
      · intro impossible
        cases impossible
      · rintro ⟨front, empty, complete, -⟩
        exact absurd (List.append_eq_nil_iff.mp empty.symm).1 complete.ne_nil
  | cons byte data ih =>
      have low := digit_le byte
      have power : 2 ^ (7 * (turn + 1)) = 128 * 2 ^ (7 * turn) := by ring
      rw [decode]
      by_cases far : 63 < 7 * turn
      · rw [if_pos far]
        constructor
        · intro impossible
          cases impossible
        · rintro ⟨front, -, complete, short, -⟩
          have one := List.length_pos_iff.mpr complete.ne_nil
          omega
      · rw [if_neg far]
        dsimp only
        rw [place_digit_mod acc _ _ below (by omega)]
        by_cases final : byte &&& 0x80 = 0
        · rw [if_pos final]
          constructor
          · intro read
            cases read
            refine ⟨[byte], rfl, ?_, ?_, ?_⟩
            · rw [Complete, if_pos final]
            · rw [List.length_singleton]
              omega
            · simp [value]
          · rintro ⟨front, whole, complete, -, rfl⟩
            cases front with
            | nil => exact absurd rfl complete.ne_nil
            | cons first front =>
                obtain ⟨rfl, rfl⟩ := List.cons.inj whole
                rw [Complete, if_pos final] at complete
                subst complete
                simp [value]
        · rw [if_neg final]
          have scaled := Nat.mul_le_mul_right (2 ^ (7 * turn)) low
          have next : (acc + (byte &&& 0x7f).toNat * 2 ^ (7 * turn)) % 2 ^ 64 <
              2 ^ (7 * (turn + 1)) := by
            apply (Nat.mod_le _ _).trans_lt
            omega
          have regroup : ∀ more : List UInt8,
              ((acc + (byte &&& 0x7f).toNat * 2 ^ (7 * turn)) % 2 ^ 64 +
                value more * 2 ^ (7 * (turn + 1))) % 2 ^ 64 =
              (acc + value (byte :: more) * 2 ^ (7 * turn)) % 2 ^ 64 := by
            intro more
            rw [Nat.mod_add_mod, value_cons, power]
            congr 1
            ring
          rw [show 7 * turn + 7 = 7 * (turn + 1) from rfl, ih next (by omega)]
          constructor
          · rintro ⟨front, rfl, complete, short, rfl⟩
            refine ⟨byte :: front, rfl, ?_, ?_, regroup front⟩
            · rwa [Complete, if_neg final]
            · rw [List.length_cons]
              omega
          · rintro ⟨front, whole, complete, short, rfl⟩
            cases front with
            | nil => exact absurd rfl complete.ne_nil
            | cons first front =>
                obtain ⟨rfl, rfl⟩ := List.cons.inj whole
                rw [Complete, if_neg final] at complete
                rw [List.length_cons] at short
                exact ⟨front, rfl, complete, by omega, (regroup front).symm⟩

theorem decode_zero_eq_ok {truncated range : ε} {got : Nat} {data rest : List UInt8} :
    decode truncated range 0 0 data = .ok (got, rest) ↔
      ∃ front, data = front ++ rest ∧ Complete front ∧ front.length ≤ 10 ∧
        got = value front % 2 ^ 64 := by
  have read := @decode_eq_ok ε truncated range 0 0 got data rest (by decide) (by decide)
  simpa only [Nat.mul_zero, pow_zero, Nat.mul_one, Nat.zero_add] using read

theorem value_append (front rest : List UInt8) :
    value (front ++ rest) = value front + 2 ^ (7 * front.length) * value rest := by
  induction front with
  | nil => simp [value]
  | cons byte front ih =>
      rw [List.cons_append, value_cons, value_cons, ih, List.length_cons]
      ring

theorem Complete.eq_append {bytes : List UInt8} (complete : Complete bytes) :
    ∃ init last, bytes = init ++ [last] ∧ (∀ byte ∈ init, byte &&& 0x80 ≠ 0) ∧
      last &&& 0x80 = 0 := by
  induction bytes with
  | nil => exact absurd rfl complete.ne_nil
  | cons byte rest ih =>
      rw [Complete] at complete
      split at complete
      · rename_i final
        subst complete
        exact ⟨[], byte, rfl, fun _ none => absurd none List.not_mem_nil, final⟩
      · rename_i more
        obtain ⟨init, last, rfl, continued, final⟩ := ih complete
        exact ⟨byte :: init, last, rfl, List.forall_mem_cons.mpr ⟨more, continued⟩, final⟩

theorem complete_append {init : List UInt8} {last : UInt8}
    (continued : ∀ byte ∈ init, byte &&& 0x80 ≠ 0) (final : last &&& 0x80 = 0) :
    Complete (init ++ [last]) := by
  induction init with
  | nil => rw [List.nil_append, Complete, if_pos final]
  | cons byte init ih =>
      obtain ⟨more, rest⟩ := List.forall_mem_cons.mp continued
      rw [List.cons_append, Complete, if_neg more]
      exact ih rest

theorem spills_iff {data : List UInt8} :
    Spills data ↔ ∃ front rest, data = front ++ rest ∧ Complete front ∧ front.length ≤ 10 ∧
      2 ^ 64 ≤ value front := by
  constructor
  · rintro ⟨continued, last, there, final, high⟩
    obtain ⟨within, rfl⟩ := List.getElem?_eq_some_iff.mp there
    have nine : (data.take 9).length = 9 := by
      rw [List.length_take]
      omega
    refine ⟨data.take 9 ++ [data[9]], data.drop 10, ?_, complete_append continued final, ?_, ?_⟩
    · rw [List.append_assoc, List.singleton_append, ← List.drop_eq_getElem_cons within,
        List.take_append_drop]
    · rw [List.length_append, nine, List.length_singleton]
    · rw [value_append, nine, value_cons]
      omega
  · rintro ⟨front, rest, rfl, complete, short, large⟩
    obtain ⟨init, last, rfl, continued, final⟩ := complete.eq_append
    have low := value_lt init
    rw [value_append, value_cons, show value [] = 0 from rfl, Nat.mul_zero, Nat.add_zero] at large
    rw [List.length_append, List.length_singleton] at short
    have digit := digit_le last
    have nine : init.length = 9 := by
      by_contra fewer
      have room : 2 ^ (7 * init.length) ≤ 2 ^ 56 := Nat.pow_le_pow_right (by decide) (by omega)
      have scaled := Nat.mul_le_mul room digit
      omega
    rw [nine] at low large
    refine ⟨?_, last, ?_, final, by omega⟩
    · rwa [List.append_assoc, List.take_left' nine]
    · rw [List.append_assoc, List.getElem?_append_right nine.le, nine]
      rfl

theorem complete_encode (n : Nat) : Complete (encode n) := by
  induction n using Nat.strongRecOn with
  | ind n ih =>
    by_cases small : n < 128
    · rw [encode_of_lt n small, Complete, if_pos (final_high n small)]
    · rw [encode_of_le n (Nat.le_of_not_lt small), Complete, if_neg (continued_high n)]
      exact ih (n / 128) (by omega)

theorem value_encode (n : Nat) : value (encode n) = n := by
  induction n using Nat.strongRecOn with
  | ind n ih =>
    by_cases small : n < 128
    · rw [encode_of_lt n small, value_cons, final_low n small]
      rfl
    · rw [encode_of_le n (Nat.le_of_not_lt small), value_cons, continued_low,
        ih (n / 128) (by omega)]
      omega

end Leb128

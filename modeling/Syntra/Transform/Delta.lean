import Mathlib.Data.Nat.ModEq
import Syntra.Proto
import Syntra.Lib.LittleEndian

/-!
# Delta coding of little-endian words

Each word is replaced by its difference from the word before it, modulo
`256 ^ width`; a tail shorter than a word is copied.
-/

set_option autoImplicit false

namespace Syntra

def loadLe (bytes : Bytes) : Nat := LittleEndian.ofBytes bytes

def toLeBytes (value : Nat) : Bytes := LittleEndian.toBytes 8 value

def wrappingSub (left right : Nat) : Nat := (left + (2 ^ 64 - right % 2 ^ 64)) % 2 ^ 64

def wrappingAdd (left right : Nat) : Nat := (left + right) % 2 ^ 64

/-- The loop of `delta_apply` with `n` words to go: `prev` holds the word before. -/
def deltaApplyWords (width : Nat) : Nat → Bytes → Bytes → Bytes
  | 0, _, rest => rest
  | n + 1, prev, rest =>
    let chunk := rest.take width
    let diff := wrappingSub (loadLe chunk) (loadLe (prev.take width))
    (toLeBytes diff).take width ++ deltaApplyWords width n chunk (rest.drop width)

def deltaApply (data : Bytes) (width : Nat) : Bytes :=
  deltaApplyWords width (data.length / width) (List.replicate 8 0) data

def deltaInvertWords (width : Nat) : Nat → Nat → Bytes → Bytes
  | 0, _, rest => rest
  | n + 1, acc, rest =>
    let bytes := toLeBytes (wrappingAdd acc (loadLe (rest.take width)))
    bytes.take width ++ deltaInvertWords width n (loadLe (bytes.take width)) (rest.drop width)

def deltaInvert (data : Bytes) (width : Nat) : Bytes :=
  deltaInvertWords width (data.length / width) 0 data

theorem take_toLeBytes (width value : Nat) (narrow : width ≤ 8) :
    (toLeBytes value).take width = LittleEndian.toBytes width value := by
  have prefixed : ∀ total width value, width ≤ total →
      (LittleEndian.toBytes total value).take width = LittleEndian.toBytes width value := by
    intro total
    induction total with
    | zero =>
        intro width value narrow
        obtain rfl : width = 0 := by omega
        rfl
    | succ total ih =>
        intro width value narrow
        cases width with
        | zero => rfl
        | succ width =>
            simp only [LittleEndian.toBytes, List.take_succ_cons]
            rw [ih width (value / 256) (by omega)]
  exact prefixed 8 width value narrow

theorem window_dvd {width : Nat} (narrow : width ≤ 8) : (256 ^ width : Nat) ∣ 2 ^ 64 := by
  rw [show (256 : Nat) = 2 ^ 8 by norm_num, ← pow_mul]
  exact pow_dvd_pow 2 (by omega)

/-- A difference modulo `m`, with what was taken away put back. -/
theorem complement_add_modEq {m : Nat} (positive : 0 < m) (left right : Nat) :
    Nat.ModEq m (left + (m - right % m) + right) left := by
  have parts := Nat.mod_add_div right m
  have below := Nat.mod_lt right positive
  have rewritten : left + (m - right % m) + right = left + m * (right / m + 1) := by
    rw [Nat.mul_add, Nat.mul_one]
    omega
  rw [rewritten]
  simp [Nat.ModEq]

/-- Taking a difference and adding it back, seen through a window of `width` bytes. -/
theorem wrappingAdd_wrappingSub (width prev cur : Nat) (narrow : width ≤ 8) :
    wrappingAdd prev (wrappingSub cur prev % 256 ^ width) % 256 ^ width = cur % 256 ^ width := by
  have window := window_dvd narrow
  have wraps : Nat.ModEq (2 ^ 64) (cur + (2 ^ 64 - prev % 2 ^ 64) + prev) cur :=
    complement_add_modEq (by decide) cur prev
  unfold wrappingAdd wrappingSub
  rw [Nat.mod_mod_of_dvd _ window, Nat.mod_mod_of_dvd _ window, Nat.add_mod_mod, Nat.add_comm]
  exact wraps.of_dvd window

theorem wrappingSub_mod (width cur prev : Nat) (narrow : width ≤ 8) :
    wrappingSub cur prev % 256 ^ width =
      (cur + (256 ^ width - prev % 256 ^ width)) % 256 ^ width := by
  have window := window_dvd narrow
  have wraps : Nat.ModEq (256 ^ width) (cur + (2 ^ 64 - prev % 2 ^ 64) + prev) cur :=
    (complement_add_modEq (by decide) cur prev).of_dvd window
  have own := complement_add_modEq (Nat.pow_pos (n := width) (show 0 < 256 by decide)) cur prev
  unfold wrappingSub
  rw [Nat.mod_mod_of_dvd _ window]
  exact Nat.ModEq.add_right_cancel' prev (wraps.trans own.symm)

theorem length_deltaApplyWords (width n : Nat) (prev rest : Bytes) (narrow : width ≤ 8)
    (enough : n * width ≤ rest.length) :
    (deltaApplyWords width n prev rest).length = rest.length := by
  induction n generalizing prev rest with
  | zero => rfl
  | succ n ih =>
      rw [Nat.succ_mul] at enough
      have tail := ih (rest.take width) (rest.drop width) (by rw [List.length_drop]; omega)
      simp only [deltaApplyWords, List.length_append, tail, take_toLeBytes width _ narrow,
        LittleEndian.length_toBytes, List.length_drop]
      omega

theorem length_deltaApply (data : Bytes) (width : Nat) (narrow : width ≤ 8) :
    (deltaApply data width).length = data.length :=
  length_deltaApplyWords width _ _ data narrow (Nat.div_mul_le_self _ _)

/-- The inverse loop, started with the word the forward loop saw last. -/
theorem deltaInvertWords_deltaApplyWords (width n : Nat) (prev rest : Bytes)
    (narrow : width ≤ 8) (enough : n * width ≤ rest.length) :
    deltaInvertWords width n (loadLe (prev.take width)) (deltaApplyWords width n prev rest) =
      rest := by
  induction n generalizing prev rest with
  | zero => rfl
  | succ n ih =>
      rw [Nat.succ_mul] at enough
      have chunkLength : (rest.take width).length = width := by
        rw [List.length_take]
        omega
      have chunkWhole : (rest.take width).take width = rest.take width := by
        rw [List.take_take, Nat.min_self]
      have tailEnough : n * width ≤ (rest.drop width).length := by
        rw [List.length_drop]
        omega
      have tail := ih (rest.take width) (rest.drop width) tailEnough
      have restored : LittleEndian.toBytes width (wrappingAdd (loadLe (prev.take width))
          (wrappingSub (loadLe (rest.take width)) (loadLe (prev.take width)) % 256 ^ width)) =
          rest.take width := by
        rw [LittleEndian.toBytes_congr width _ (loadLe (rest.take width))
          (wrappingAdd_wrappingSub width _ _ narrow)]
        conv_rhs => rw [← LittleEndian.toBytes_ofBytes (rest.take width), chunkLength]
        rfl
      simp only [deltaApplyWords, deltaInvertWords, take_toLeBytes width _ narrow]
      rw [List.take_left' (by simp), List.drop_left' (by simp)]
      have difference : loadLe (LittleEndian.toBytes width
          (wrappingSub (loadLe (rest.take width)) (loadLe (prev.take width)))) =
          wrappingSub (loadLe (rest.take width)) (loadLe (prev.take width)) % 256 ^ width :=
        LittleEndian.ofBytes_toBytes width _
      rw [chunkWhole] at tail
      rw [difference, restored, tail]
      exact List.take_append_drop width rest

theorem loadLe_take_zeros (width : Nat) : loadLe ((List.replicate 8 0).take width) = 0 := by
  rw [List.take_replicate, loadLe]
  induction min width 8 with
  | zero => rfl
  | succ n ih => simp [List.replicate_succ, LittleEndian.ofBytes, ih]

theorem deltaInvert_deltaApply (data : Bytes) (width : Nat) (narrow : width ≤ 8) :
    deltaInvert (deltaApply data width) width = data := by
  have inverse := deltaInvertWords_deltaApplyWords width (data.length / width)
    (List.replicate 8 0) data narrow (Nat.div_mul_le_self _ _)
  rw [loadLe_take_zeros] at inverse
  rw [deltaInvert, length_deltaApply data width narrow]
  exact inverse

/-! ## The inverse first -/

/-- Adding a difference and taking it again, seen through a window of `width` bytes. -/
theorem wrappingSub_wrappingAdd (width acc diff : Nat) (narrow : width ≤ 8) :
    wrappingSub (wrappingAdd acc diff % 256 ^ width) acc % 256 ^ width = diff % 256 ^ width := by
  have window := window_dvd narrow
  have wraps : Nat.ModEq (2 ^ 64) (acc + diff + (2 ^ 64 - acc % 2 ^ 64)) diff := by
    have turned := complement_add_modEq (m := 2 ^ 64) (by decide) diff acc
    rwa [Nat.add_right_comm, Nat.add_comm diff acc] at turned
  have summed : Nat.ModEq (256 ^ width) ((acc + diff) % 2 ^ 64 % 256 ^ width) (acc + diff) := by
    rw [Nat.mod_mod_of_dvd _ window]
    exact Nat.mod_modEq _ _
  unfold wrappingSub wrappingAdd
  rw [Nat.mod_mod_of_dvd _ window]
  exact (summed.add_right _).trans (wraps.of_dvd window)

theorem length_deltaInvertWords (width n acc : Nat) (rest : Bytes) (narrow : width ≤ 8)
    (enough : n * width ≤ rest.length) :
    (deltaInvertWords width n acc rest).length = rest.length := by
  induction n generalizing acc rest with
  | zero => rfl
  | succ n ih =>
      rw [Nat.succ_mul] at enough
      have tail := fun acc => ih acc (rest.drop width) (by rw [List.length_drop]; omega)
      simp only [deltaInvertWords, List.length_append, tail, take_toLeBytes width _ narrow,
        LittleEndian.length_toBytes, List.length_drop]
      omega

theorem length_deltaInvert (data : Bytes) (width : Nat) (narrow : width ≤ 8) :
    (deltaInvert data width).length = data.length :=
  length_deltaInvertWords width _ _ data narrow (Nat.div_mul_le_self _ _)

/-- The forward loop over what the inverse loop wrote, started with the word before. -/
theorem deltaApplyWords_deltaInvertWords (width n : Nat) (prev rest : Bytes)
    (narrow : width ≤ 8) (enough : n * width ≤ rest.length) :
    deltaApplyWords width n prev (deltaInvertWords width n (loadLe (prev.take width)) rest) =
      rest := by
  induction n generalizing prev rest with
  | zero => rfl
  | succ n ih =>
      rw [Nat.succ_mul] at enough
      have chunkLength : (rest.take width).length = width := by
        rw [List.length_take]
        omega
      have tailEnough : n * width ≤ (rest.drop width).length := by
        rw [List.length_drop]
        omega
      let acc := loadLe (prev.take width)
      let word := LittleEndian.toBytes width (wrappingAdd acc (loadLe (rest.take width)))
      have wordLength : word.length = width := LittleEndian.length_toBytes _ _
      have tail := ih word (rest.drop width) tailEnough
      have whole : word.take width = word := List.take_of_length_le wordLength.le
      rw [whole] at tail
      have loaded : loadLe word = wrappingAdd acc (loadLe (rest.take width)) % 256 ^ width :=
        LittleEndian.ofBytes_toBytes width _
      have difference : LittleEndian.toBytes width (wrappingSub (loadLe word) acc) =
          rest.take width := by
        rw [loaded, LittleEndian.toBytes_congr width _ (loadLe (rest.take width))
          (wrappingSub_wrappingAdd width acc _ narrow)]
        conv_rhs => rw [← LittleEndian.toBytes_ofBytes (rest.take width), chunkLength]
        rfl
      simp only [deltaApplyWords, deltaInvertWords, take_toLeBytes width _ narrow]
      rw [List.take_left' wordLength, List.drop_left' wordLength, difference, tail]
      exact List.take_append_drop width rest

theorem deltaApply_deltaInvert (data : Bytes) (width : Nat) (narrow : width ≤ 8) :
    deltaApply (deltaInvert data width) width = data := by
  have forward := deltaApplyWords_deltaInvertWords width (data.length / width)
    (List.replicate 8 0) data narrow (Nat.div_mul_le_self _ _)
  rw [loadLe_take_zeros] at forward
  rw [deltaApply, length_deltaInvert data width narrow]
  exact forward

end Syntra

import Syntra.Lib.Numpy
import Syntra.Transform.Chain

/-!
# The transforms of the bench

`delta_apply`, `delta_invert`, `bsplit_apply` and `bsplit_invert`, which choose the
plan of a block with whole-array operations, return what the engine returns.
-/

set_option autoImplicit false

namespace Syntra

namespace Bench

open Numpy

/-- `empty_like` leaves words that are all written over. -/
def deltaApply (b : Bytes) (w : Nat) : Bytes :=
  let n := b.length / w
  if n = 0 then b
  else
    let a := frombuffer w n b
    let d := (List.replicate n 0).set 0 (a.getD 0 0)
    let d := d.take 1 ++ subtract w (a.drop 1) a.dropLast
    tobytes w d ++ b.drop (n * w)

def deltaInvert (b : Bytes) (w : Nat) : Bytes :=
  let n := b.length / w
  if n = 0 then b
  else
    let a := frombuffer w n b
    tobytes w (cumsum w a) ++ b.drop (n * w)

def bsplitApply (b : Bytes) (w : Nat) : Bytes :=
  let n := b.length / w
  if n = 0 then b
  else
    let a := reshape n w (b.take (n * w))
    contiguous a.transpose ++ b.drop (n * w)

def bsplitInvert (b : Bytes) (w : Nat) : Bytes :=
  let n := b.length / w
  if n = 0 then b
  else
    let p := reshape w n (b.take (n * w))
    contiguous p.transpose ++ b.drop (n * w)

end Bench

open Numpy

/-! ## Differences and sums -/

/-- The loop from any word on: what it writes are the differences of the array. -/
theorem deltaApplyWords_eq (width n : Nat) (prev rest : Bytes) (narrow : width ≤ 8) :
    deltaApplyWords width n prev rest =
      tobytes width (subtract width (frombuffer width n rest)
        (loadLe (prev.take width) :: (frombuffer width n rest).dropLast)) ++
        rest.drop (n * width) := by
  induction n generalizing prev rest with
  | zero => simp [deltaApplyWords, frombuffer, subtract, tobytes]
  | succ n ih =>
      have word : LittleEndian.toBytes width
          (wrappingSub (loadLe (rest.take width)) (loadLe (prev.take width))) =
          LittleEndian.toBytes width ((LittleEndian.ofBytes (rest.take width) +
            (256 ^ width - loadLe (prev.take width) % 256 ^ width)) % 256 ^ width) := by
        apply LittleEndian.toBytes_congr
        rw [wrappingSub_mod width _ _ narrow, Nat.mod_mod]
        rfl
      have tail := ih (rest.take width) (rest.drop width)
      rw [List.take_take, Nat.min_self, List.drop_drop, Nat.add_comm width, ← Nat.succ_mul] at tail
      rw [deltaApplyWords, frombuffer_succ, subtract_shift, tobytes_cons, List.append_assoc,
        take_toLeBytes width _ narrow, word, tail]
      rfl

theorem deltaInvertWords_eq (width n acc : Nat) (rest : Bytes) (narrow : width ≤ 8) :
    deltaInvertWords width n acc rest =
      tobytes width (cumsumFrom width acc (frombuffer width n rest)) ++ rest.drop (n * width) := by
  induction n generalizing acc rest with
  | zero => simp [deltaInvertWords, frombuffer, cumsumFrom, tobytes]
  | succ n ih =>
      have sum : wrappingAdd acc (loadLe (rest.take width)) % 256 ^ width =
          (acc + LittleEndian.ofBytes (rest.take width)) % 256 ^ width :=
        Nat.mod_mod_of_dvd _ (window_dvd narrow)
      have word : LittleEndian.toBytes width (wrappingAdd acc (loadLe (rest.take width))) =
          LittleEndian.toBytes width
            ((acc + LittleEndian.ofBytes (rest.take width)) % 256 ^ width) := by
        apply LittleEndian.toBytes_congr
        rw [sum, Nat.mod_mod]
      have carried : loadLe (LittleEndian.toBytes width
          (wrappingAdd acc (loadLe (rest.take width)))) % 256 ^ width =
          (acc + LittleEndian.ofBytes (rest.take width)) % 256 ^ width := by
        rw [loadLe, LittleEndian.ofBytes_toBytes, Nat.mod_mod, sum]
      have tail := ih (loadLe (LittleEndian.toBytes width
        (wrappingAdd acc (loadLe (rest.take width))))) (rest.drop width)
      rw [cumsumFrom_congr carried, List.drop_drop, Nat.add_comm width, ← Nat.succ_mul] at tail
      rw [deltaInvertWords, frombuffer_succ, cumsumFrom_cons, tobytes_cons, List.append_assoc,
        take_toLeBytes width _ narrow, tail, word]

theorem bench_deltaApply_eq (data : Bytes) (width : Nat) (narrow : width ≤ 8) :
    Bench.deltaApply data width = deltaApply data width := by
  have loop := deltaApplyWords_eq width (data.length / width) (List.replicate 8 0) data narrow
  rw [loadLe_take_zeros] at loop
  rw [deltaApply, loop, Bench.deltaApply]
  dsimp only
  cases words : data.length / width with
  | zero => simp [frombuffer, subtract, tobytes]
  | succ n =>
      have first : LittleEndian.toBytes width ((LittleEndian.ofBytes (data.take width) +
          (256 ^ width - 0 % 256 ^ width)) % 256 ^ width) =
          LittleEndian.toBytes width (LittleEndian.ofBytes (data.take width)) := by
        apply LittleEndian.toBytes_congr
        rw [Nat.zero_mod, Nat.sub_zero, Nat.mod_mod, Nat.add_mod_right]
      have others : ∀ (word : Nat) (words : List Nat),
          subtract width words (word :: words).dropLast =
            subtract width words (word :: words.dropLast) := by
        intro word words
        cases words <;> rfl
      rw [if_neg (Nat.succ_ne_zero n), frombuffer_succ, subtract_shift, tobytes_cons, first]
      show tobytes width (LittleEndian.ofBytes (data.take width) :: subtract width _ _) ++ _ = _
      rw [tobytes_cons, List.drop_succ_cons, List.drop_zero, others]

theorem bench_deltaInvert_eq (data : Bytes) (width : Nat) (narrow : width ≤ 8) :
    Bench.deltaInvert data width = deltaInvert data width := by
  have loop := deltaInvertWords_eq width (data.length / width) 0 data narrow
  rw [cumsumFrom_zero] at loop
  rw [deltaInvert, loop, Bench.deltaInvert]
  dsimp only
  split
  · rename_i none_
    simp [none_, frombuffer, cumsum, tobytes]
  · rfl

/-! ## Planes -/

theorem contiguous_transpose_reshape (rows cols : Nat) (data : Bytes) :
    contiguous (reshape rows cols (data.take (rows * cols))).transpose =
      Grid.table cols rows fun col row => data.getD (row * cols + col) 0 := by
  have listed := contiguous_eq_table cols rows fun col row =>
    (data.take (rows * cols)).getD (row * cols + col) 0
  rw [show (reshape rows cols (data.take (rows * cols))).transpose = Matrix.of
    (fun (col : Fin cols) (row : Fin rows) =>
      (data.take (rows * cols)).getD (row.val * cols + col.val) 0) from rfl, listed]
  apply Grid.table_congr
  intro col inCols row inRows
  have inside := Grid.cell_inside inRows inCols
  rw [List.getD_eq_getElem?_getD, List.getD_eq_getElem?_getD, List.getElem?_take_of_lt inside]

theorem bench_bsplitApply_eq (data : Bytes) (width : Nat) :
    Bench.bsplitApply data width = byteSplitApply data width := by
  rw [byteSplitApply, Bench.bsplitApply]
  dsimp only
  split
  · rename_i none_
    simp [none_, Grid.table]
  · rw [contiguous_transpose_reshape]

theorem bench_bsplitInvert_eq (data : Bytes) (width : Nat) :
    Bench.bsplitInvert data width = byteSplitInvert data width := by
  rw [byteSplitInvert, Bench.bsplitInvert]
  dsimp only
  split
  · rename_i none_
    simp [none_, Grid.table]
  · rw [Nat.mul_comm (data.length / width) width, contiguous_transpose_reshape]

/-- At every width of the engine, on every input. -/
theorem bench_transforms_eq (data : Bytes) (width : Nat) (listed : width ∈ widths) :
    Bench.deltaApply data width = deltaApply data width ∧
      Bench.deltaInvert data width = deltaInvert data width ∧
      Bench.bsplitApply data width = byteSplitApply data width ∧
      Bench.bsplitInvert data width = byteSplitInvert data width := by
  have narrow := width_le_eight listed
  exact ⟨bench_deltaApply_eq data width narrow, bench_deltaInvert_eq data width narrow,
    bench_bsplitApply_eq data width, bench_bsplitInvert_eq data width⟩

/-- Two words and a tail. -/
theorem bench_transforms_eq_two :
    Bench.deltaApply [1, 2, 4, 2, 5] 2 = deltaApply [1, 2, 4, 2, 5] 2 ∧
      Bench.deltaInvert [1, 2, 4, 2, 5] 2 = deltaInvert [1, 2, 4, 2, 5] 2 ∧
      Bench.bsplitApply [1, 2, 4, 2, 5] 2 = byteSplitApply [1, 2, 4, 2, 5] 2 ∧
      Bench.bsplitInvert [1, 2, 4, 2, 5] 2 = byteSplitInvert [1, 2, 4, 2, 5] 2 :=
  bench_transforms_eq [1, 2, 4, 2, 5] 2 (by decide)

example : Bench.deltaApply [1, 2, 4, 2, 5] 2 = [1, 2, 3, 0, 5] := by decide

end Syntra

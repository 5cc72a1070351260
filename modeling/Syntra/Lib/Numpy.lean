import Mathlib.LinearAlgebra.Matrix.Defs
import Syntra.Lib.Grid
import Syntra.Lib.LittleEndian

/-!
# Arrays of little-endian words

The operations of numpy on unsigned words of `width` bytes, which wrap, and on
bytes arranged in rows.
-/

set_option autoImplicit false

namespace Numpy

/-! ## Words -/

/-- `np.frombuffer(bytes, dtype="<u{width}", count=count)`. -/
def frombuffer (width count : Nat) (bytes : List UInt8) : List Nat :=
  (List.range count).map fun i => LittleEndian.ofBytes ((bytes.drop (i * width)).take width)

def tobytes (width : Nat) (words : List Nat) : List UInt8 :=
  words.flatMap (LittleEndian.toBytes width)

/-- `np.subtract(left, right)`, one element after the other. -/
def subtract (width : Nat) (left right : List Nat) : List Nat :=
  List.zipWith (fun a b => (a + (256 ^ width - b % 256 ^ width)) % 256 ^ width) left right

/-- `np.cumsum(words)`: at each place the sum of the words up to it. -/
def cumsum (width : Nat) (words : List Nat) : List Nat :=
  (List.range words.length).map fun i => (words.take (i + 1)).sum % 256 ^ width

theorem frombuffer_succ (width count : Nat) (bytes : List UInt8) :
    frombuffer width (count + 1) bytes =
      LittleEndian.ofBytes (bytes.take width) :: frombuffer width count (bytes.drop width) := by
  unfold frombuffer
  rw [List.range_succ_eq_map, List.map_cons, List.map_map, Nat.zero_mul, List.drop_zero]
  congr 1
  apply List.map_congr_left
  intro i _
  simp only [Function.comp_apply, List.drop_drop, Nat.succ_mul, Nat.add_comm width]

theorem tobytes_cons (width word : Nat) (words : List Nat) :
    tobytes width (word :: words) = LittleEndian.toBytes width word ++ tobytes width words := rfl

theorem subtract_shift (width before word : Nat) (words : List Nat) :
    subtract width (word :: words) (before :: (word :: words).dropLast) =
      (word + (256 ^ width - before % 256 ^ width)) % 256 ^ width ::
        subtract width words (word :: words.dropLast) := by
  cases words <;> rfl

def cumsumFrom (width before : Nat) (words : List Nat) : List Nat :=
  (List.range words.length).map fun i => (before + (words.take (i + 1)).sum) % 256 ^ width

theorem cumsumFrom_zero (width : Nat) (words : List Nat) :
    cumsumFrom width 0 words = cumsum width words := by
  simp only [cumsumFrom, cumsum, Nat.zero_add]

theorem cumsumFrom_cons (width before word : Nat) (words : List Nat) :
    cumsumFrom width before (word :: words) =
      (before + word) % 256 ^ width :: cumsumFrom width (before + word) words := by
  unfold cumsumFrom
  rw [List.length_cons, List.range_succ_eq_map, List.map_cons, List.map_map]
  have first : (List.take (0 + 1) (word :: words)).sum = word := by simp
  rw [first]
  congr 1
  apply List.map_congr_left
  intro i _
  simp only [Function.comp_apply, Nat.succ_eq_add_one, List.take_succ_cons, List.sum_cons,
    Nat.add_assoc]

theorem cumsumFrom_congr {width before before' : Nat}
    (same : before % 256 ^ width = before' % 256 ^ width) (words : List Nat) :
    cumsumFrom width before words = cumsumFrom width before' words := by
  apply List.map_congr_left
  intro i _
  rw [Nat.add_mod before, Nat.add_mod before', same]

/-! ## Bytes in rows -/

def reshape (rows cols : Nat) (flat : List UInt8) : Matrix (Fin rows) (Fin cols) UInt8 :=
  Matrix.of fun row col => flat.getD (row.val * cols + col.val) 0

/-- `np.ascontiguousarray(array).tobytes()`, row after row. -/
def contiguous {rows cols : Nat} (array : Matrix (Fin rows) (Fin cols) UInt8) : List UInt8 :=
  (List.finRange rows).flatMap fun row => (List.finRange cols).map fun col => array row col

theorem contiguous_eq_table (rows cols : Nat) (cell : Nat → Nat → UInt8) :
    contiguous (Matrix.of fun (row : Fin rows) (col : Fin cols) => cell row.val col.val) =
      Grid.table rows cols cell := by
  have index : ∀ n, List.range n = (List.finRange n).map fun i => i.val :=
    fun _ => List.map_coe_finRange_eq_range.symm
  rw [contiguous, Grid.table, index rows, index cols, List.flatMap_map]
  simp only [List.map_map]
  rfl

end Numpy

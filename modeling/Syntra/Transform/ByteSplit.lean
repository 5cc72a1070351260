import Syntra.Proto
import Syntra.Lib.Grid

/-!
# Byte planes

The `n` words of `width` bytes are a table of `n` rows; splitting lists its
columns one after the other and copies the tail shorter than a word.
-/

set_option autoImplicit false

namespace Syntra

def byteSplitApply (data : Bytes) (width : Nat) : Bytes :=
  let n := data.length / width
  Grid.table width n (fun plane i => data.getD (i * width + plane) 0) ++ data.drop (n * width)

def byteSplitInvert (data : Bytes) (width : Nat) : Bytes :=
  let n := data.length / width
  Grid.table n width (fun i plane => data.getD (plane * n + i) 0) ++ data.drop (n * width)

theorem length_byteSplitApply (data : Bytes) (width : Nat) :
    (byteSplitApply data width).length = data.length := by
  have whole : data.length / width * width ≤ data.length := Nat.div_mul_le_self _ _
  have swap : width * (data.length / width) = data.length / width * width := Nat.mul_comm _ _
  simp only [byteSplitApply, List.length_append, Grid.length_table, List.length_drop]
  omega

theorem length_byteSplitInvert (data : Bytes) (width : Nat) :
    (byteSplitInvert data width).length = data.length := by
  have whole : data.length / width * width ≤ data.length := Nat.div_mul_le_self _ _
  simp only [byteSplitInvert, List.length_append, Grid.length_table, List.length_drop]
  omega

/-- The table of `rows * cols` bytes with its two indices exchanged, and the tail. -/
def regroup (rows cols : Nat) (data : Bytes) : Bytes :=
  Grid.table rows cols (fun row col => data.getD (col * rows + row) 0) ++ data.drop (rows * cols)

theorem byteSplitApply_eq (data : Bytes) (width : Nat) :
    byteSplitApply data width = regroup width (data.length / width) data := by
  rw [byteSplitApply, regroup, Nat.mul_comm width]

theorem byteSplitInvert_eq (data : Bytes) (width : Nat) :
    byteSplitInvert data width = regroup (data.length / width) width data := rfl

theorem regroup_regroup (rows cols : Nat) (data : Bytes) (whole : rows * cols ≤ data.length) :
    regroup rows cols (regroup cols rows data) = data := by
  have table : (Grid.table cols rows
      (fun col row => data.getD (row * cols + col) 0)).length = rows * cols := by
    rw [Grid.length_table, Nat.mul_comm]
  have words : (data.take (rows * cols)).length = rows * cols := by
    rw [List.length_take]
    omega
  have split : regroup cols rows data = Grid.table cols rows
      (fun col row => data.getD (row * cols + col) 0) ++ data.drop (rows * cols) := by
    rw [regroup, Nat.mul_comm cols]
  have restored : Grid.table rows cols
      (fun row col => (regroup cols rows data).getD (col * rows + row) 0) =
      data.take (rows * cols) := by
    conv_rhs => rw [← Grid.table_getD rows cols (data.take (rows * cols)) 0 words]
    apply Grid.table_congr
    intro row inRows col inCols
    have inTable : col * rows + row < rows * cols := by
      have inside := Grid.cell_inside inCols inRows
      rwa [Nat.mul_comm cols rows] at inside
    have cell := Grid.getElem?_table cols rows (fun col row => data.getD (row * cols + col) 0)
      col row inCols inRows
    rw [List.getD_eq_getElem?_getD, split, List.getElem?_append_left (table ▸ inTable), cell,
      Option.getD_some, List.getD_eq_getElem?_getD, List.getD_eq_getElem?_getD,
      List.getElem?_take_of_lt (Grid.cell_inside inRows inCols)]
  have tail : (regroup cols rows data).drop (rows * cols) = data.drop (rows * cols) := by
    rw [split]
    exact List.drop_left' table
  calc regroup rows cols (regroup cols rows data)
      = data.take (rows * cols) ++ data.drop (rows * cols) := by rw [regroup, restored, tail]
    _ = data := List.take_append_drop (rows * cols) data

theorem byteSplitInvert_byteSplitApply (data : Bytes) (width : Nat) :
    byteSplitInvert (byteSplitApply data width) width = data := by
  rw [byteSplitInvert_eq, length_byteSplitApply, byteSplitApply_eq]
  exact regroup_regroup _ _ data (Nat.div_mul_le_self _ _)

theorem byteSplitApply_byteSplitInvert (data : Bytes) (width : Nat) :
    byteSplitApply (byteSplitInvert data width) width = data := by
  rw [byteSplitApply_eq, length_byteSplitInvert, byteSplitInvert_eq]
  refine regroup_regroup _ _ data ?_
  rw [Nat.mul_comm]
  exact Nat.div_mul_le_self _ _

end Syntra

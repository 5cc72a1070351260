import Mathlib.Algebra.BigOperators.Group.Finset.Sigma
import Mathlib.Algebra.Order.Ring.Nat
import Mathlib.Data.List.Basic
import Mathlib.Tactic.Ring

/-!
# Tables stored as flat lists

`table rows cols cell` lists the cells row by row, so cell `(row, col)` stands
at index `row * cols + col`.  Reading a flat list back by these indices gives
the list, and exchanging the two indices transposes it.
-/

set_option autoImplicit false

namespace Grid

universe u

variable {α : Type u}

def table (rows cols : Nat) (cell : Nat → Nat → α) : List α :=
  (List.range rows).flatMap fun row => (List.range cols).map (cell row)

theorem table_succ (rows cols : Nat) (cell : Nat → Nat → α) :
    table (rows + 1) cols cell = table rows cols cell ++ (List.range cols).map (cell rows) := by
  simp [table, List.range_succ]

@[simp] theorem length_table (rows cols : Nat) (cell : Nat → Nat → α) :
    (table rows cols cell).length = rows * cols := by
  induction rows with
  | zero => simp [table]
  | succ rows ih => rw [table_succ, List.length_append, ih, List.length_map, List.length_range,
      Nat.succ_mul]

theorem cell_inside {rows cols row col : Nat} (inRow : row < rows) (inCol : col < cols) :
    row * cols + col < rows * cols := by
  calc row * cols + col < row * cols + cols := by omega
    _ = (row + 1) * cols := by ring
    _ ≤ rows * cols := Nat.mul_le_mul_right _ inRow

theorem getElem?_table (rows cols : Nat) (cell : Nat → Nat → α) (row col : Nat)
    (inRow : row < rows) (inCol : col < cols) :
    (table rows cols cell)[row * cols + col]? = some (cell row col) := by
  induction rows with
  | zero => omega
  | succ rows ih =>
      rw [table_succ]
      by_cases before : row < rows
      · rw [List.getElem?_append_left (by simpa using cell_inside before inCol), ih before]
      · have last : row = rows := by omega
        subst last
        have after : (table row cols cell).length ≤ row * cols + col := by simp
        rw [List.getElem?_append_right after]
        simp [inCol]

theorem getD_table (rows cols : Nat) (cell : Nat → Nat → α) (row col : Nat) (default : α)
    (inRow : row < rows) (inCol : col < cols) :
    (table rows cols cell).getD (row * cols + col) default = cell row col := by
  rw [List.getD_eq_getElem?_getD, getElem?_table rows cols cell row col inRow inCol]
  rfl

theorem table_congr (rows cols : Nat) (left right : Nat → Nat → α)
    (same : ∀ row < rows, ∀ col < cols, left row col = right row col) :
    table rows cols left = table rows cols right := by
  induction rows with
  | zero => rfl
  | succ rows ih =>
      rw [table_succ, table_succ, ih (fun row inRow => same row (by omega))]
      congr 1
      apply List.map_congr_left
      intro col member
      exact same rows (by omega) col (List.mem_range.mp member)

theorem table_getD (rows cols : Nat) (items : List α) (default : α)
    (size : items.length = rows * cols) :
    table rows cols (fun row col => items.getD (row * cols + col) default) = items := by
  apply List.ext_getElem?
  intro index
  by_cases inside : index < rows * cols
  · have positive : 0 < cols := Nat.pos_of_ne_zero (by rintro rfl; simp at inside)
    have parts : index / cols * cols + index % cols = index := by
      rw [Nat.mul_comm]
      exact Nat.div_add_mod index cols
    have found := getElem?_table rows cols
      (fun row col => items.getD (row * cols + col) default) (index / cols) (index % cols)
      ((Nat.div_lt_iff_lt_mul positive).mpr inside) (Nat.mod_lt _ positive)
    rw [parts] at found
    have present : index < items.length := by omega
    rw [found, List.getD_eq_getElem?_getD, List.getElem?_eq_getElem present, Option.getD_some]
  · rw [List.getElem?_eq_none (by simpa using Nat.le_of_not_lt inside),
      List.getElem?_eq_none (by omega)]

theorem table_transpose (rows cols : Nat) (cell : Nat → Nat → α) (default : α) :
    table rows cols (fun row col =>
      (table cols rows (fun col row => cell row col)).getD (col * rows + row) default) =
      table rows cols cell := by
  apply table_congr
  intro row inRow col inCol
  exact getD_table cols rows (fun col row => cell row col) col row default inCol inRow

/-! ## Rows of one length -/

theorem rows_of_flatten (rows : List (List α)) (cols : Nat) (default : α)
    (uniform : ∀ row ∈ rows, row.length = cols) :
    ((List.range rows.length).map fun row =>
      (List.range cols).map fun col => rows.flatten.getD (row * cols + col) default) = rows := by
  induction rows with
  | nil => rfl
  | cons first rest ih =>
      have size : first.length = cols := uniform first (by simp)
      have tail := ih (fun row member => uniform row (by simp [member]))
      rw [List.length_cons, List.range_succ_eq_map, List.map_cons, List.map_map]
      congr 1
      · apply List.ext_getElem?
        intro col
        by_cases inside : col < cols
        · have present : col < first.length := by omega
          simp [inside, present, List.getD_eq_getElem?_getD, List.getElem?_append_left]
        · have absent : first.length ≤ col := by omega
          simp [Nat.le_of_not_lt inside, absent]
      · conv_rhs => rw [← tail]
        apply List.map_congr_left
        intro row _
        apply List.map_congr_left
        intro col _
        have shifted : (row + 1) * cols + col = first.length + (row * cols + col) := by
          rw [size]
          ring
        simp only [List.flatten_cons, List.getD_eq_getElem?_getD, Nat.succ_eq_add_one, shifted]
        rw [List.getElem?_append_right (Nat.le_add_right _ _), Nat.add_sub_cancel_left]

theorem length_flatten_of_uniform (rows : List (List α)) (cols : Nat)
    (uniform : ∀ row ∈ rows, row.length = cols) :
    rows.flatten.length = rows.length * cols := by
  induction rows with
  | nil => simp
  | cons first rest ih =>
      rw [List.flatten_cons, List.length_append, uniform first (by simp),
        ih (fun row member => uniform row (by simp [member])), List.length_cons]
      ring

/-! ## Sums over a table -/

theorem sum_table (rows cols : Nat) (cell : Nat → Nat → Nat) :
    (table rows cols cell).sum =
      ∑ row ∈ Finset.range rows, ∑ col ∈ Finset.range cols, cell row col := by
  induction rows with
  | zero => rfl
  | succ rows ih =>
      rw [table_succ, List.sum_append, ih, Finset.sum_range_succ]
      congr 1

theorem sum_table_transpose (rows cols : Nat) (cell : Nat → Nat → Nat) :
    (table cols rows fun col row => cell row col).sum = (table rows cols cell).sum := by
  rw [sum_table, sum_table, Finset.sum_comm]

theorem map_table {β : Type u} (rows cols : Nat) (cell : Nat → Nat → α) (f : α → β) :
    (table rows cols cell).map f = table rows cols fun row col => f (cell row col) := by
  induction rows with
  | zero => rfl
  | succ rows ih =>
      rw [table_succ, table_succ, List.map_append, ih, List.map_map]
      rfl

end Grid

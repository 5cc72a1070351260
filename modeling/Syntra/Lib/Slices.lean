import Mathlib.Algebra.Order.Ring.Nat
import Mathlib.Data.List.Nodup
import Mathlib.Data.List.Range

/-!
# Slices with a step

`xs[start:stop:step]`, read and assigned.  An assignment asks for as many values as there
are places.
-/

set_option autoImplicit false

namespace Slices

universe u

variable {α : Type u}

def places (start stop step : Nat) : List Nat :=
  (List.range ((stop - start + (step - 1)) / step)).map fun i => start + i * step

def get (xs : List α) (start stop step : Nat) : List α :=
  (places start stop step).filterMap fun i => xs[i]?

/-- Writes the values to the places, one after the other. -/
def write (xs : List α) : List Nat → List α → List α
  | [], _ => xs
  | _, [] => xs
  | i :: rest, value :: values => write (xs.set i value) rest values

def assign (xs : List α) (start stop step : Nat) (values : List α) : Option (List α) :=
  let targets := places start (min stop xs.length) step
  if targets.length = values.length then some (write xs targets values) else none

/-- Every `step`-th place, from a place of the first row on, has one in each row. -/
theorem places_rows {start step : Nat} (rows : Nat) (inside : start < step) :
    places start (rows * step) step = (List.range rows).map fun i => start + i * step := by
  have count : (rows * step - start + (step - 1)) / step = rows := by
    cases rows with
    | zero =>
        rw [Nat.zero_mul, Nat.zero_sub, Nat.zero_add]
        exact Nat.div_eq_of_lt (by omega)
    | succ rows =>
        rw [Nat.succ_mul]
        have reach : rows * step + step - start + (step - 1) =
            (step - 1 - start) + step * (rows + 1) := by
          rw [Nat.mul_comm step, Nat.succ_mul]
          omega
        rw [reach, Nat.add_mul_div_left _ _ (by omega), Nat.div_eq_of_lt (by omega), Nat.zero_add]
  rw [places, count]

theorem get_rows {xs : List α} {start step : Nat} (rows : Nat) (default : α)
    (inside : start < step) (whole : rows * step ≤ xs.length) :
    get xs start (rows * step) step =
      (List.range rows).map fun i => xs.getD (i * step + start) default := by
  rw [get, places_rows rows inside, List.filterMap_map, ← List.filterMap_eq_map]
  apply List.filterMap_congr
  intro i member
  have row : (i + 1) * step ≤ rows * step :=
    Nat.mul_le_mul_right step (List.mem_range.mp member)
  rw [Nat.succ_mul] at row
  have within : i * step + start < xs.length := by omega
  rw [Function.comp_apply, Function.comp_apply, Nat.add_comm start,
    List.getD_eq_getElem?_getD, List.getElem?_eq_getElem within]
  rfl

@[simp] theorem length_write (xs : List α) (targets : List Nat) (values : List α) :
    (write xs targets values).length = xs.length := by
  induction targets generalizing xs values with
  | nil => simp only [write]
  | cons i rest ih =>
      cases values with
      | nil => simp only [write]
      | cons value values => rw [write, ih, List.length_set]

theorem getElem?_write_of_notMem {xs : List α} {targets : List Nat} (values : List α) {k : Nat}
    (apart : k ∉ targets) : (write xs targets values)[k]? = xs[k]? := by
  induction targets generalizing xs values with
  | nil => simp only [write]
  | cons i rest ih =>
      cases values with
      | nil => simp only [write]
      | cons value values =>
          rw [List.mem_cons, not_or] at apart
          rw [write, ih values apart.2, List.getElem?_set_ne (Ne.symm apart.1)]

theorem getElem?_write {xs : List α} {targets : List Nat} {values : List α} (once : targets.Nodup)
    (inside : ∀ i ∈ targets, i < xs.length) {n i : Nat} {value : α} (here : targets[n]? = some i)
    (there : values[n]? = some value) : (write xs targets values)[i]? = some value := by
  induction targets generalizing xs values n with
  | nil => cases here
  | cons j rest ih =>
      cases values with
      | nil => cases there
      | cons first values =>
          rw [List.nodup_cons] at once
          rw [write]
          cases n with
          | zero =>
              rw [List.getElem?_cons_zero] at here there
              cases here
              cases there
              rw [getElem?_write_of_notMem values once.1,
                List.getElem?_set_self (inside i List.mem_cons_self)]
          | succ n =>
              rw [List.getElem?_cons_succ] at here there
              refine ih once.2 (fun k member => ?_) here there
              rw [List.length_set]
              exact inside k (List.mem_cons_of_mem j member)

theorem nodup_places {step : Nat} (start stop : Nat) (positive : 0 < step) :
    (places start stop step).Nodup := by
  refine List.Nodup.map (fun i j same => ?_) List.nodup_range
  exact Nat.eq_of_mul_eq_mul_right positive (Nat.add_left_cancel same)

end Slices

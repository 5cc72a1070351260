import Mathlib.Algebra.BigOperators.Group.List.Basic
import Mathlib.Algebra.Order.Group.Unbundled.Int
import Mathlib.Data.List.Dedup
import Mathlib.Data.List.Sort
import Mathlib.Tactic.Ring
import Syntra.Lib.Fallible

/-!
# Grouped sums

Rows grouped by a key, one line of a report a group.  The sum over the groups is
the sum over the rows, and the line of a key sums the rows of that key.
-/

set_option autoImplicit false

namespace Grouped

universe u v w

variable {ρ : Type u} {κ : Type v} {β : Type w} [DecidableEq κ]

/-- The keys that occur, each once, in the order `before`. -/
def keys (before : κ → κ → Bool) (key : ρ → κ) (rows : List ρ) : List κ :=
  (rows.map key).dedup.mergeSort before

def members (key : ρ → κ) (rows : List ρ) (k : κ) : List ρ := rows.filter fun row => key row = k

def total (column : ρ → Int) (rows : List ρ) : Int := (rows.map column).sum

variable {before : κ → κ → Bool} {key : ρ → κ} {column : ρ → Int} {rows : List ρ}

@[simp] theorem total_nil : total column ([] : List ρ) = 0 := rfl

@[simp] theorem total_cons (row : ρ) :
    total column (row :: rows) = column row + total column rows :=
  List.sum_cons

@[simp] theorem total_append (more : List ρ) :
    total column (rows ++ more) = total column rows + total column more := by
  simp [total, List.sum_append]

theorem total_map {σ : Type u} (value : σ → ρ) (sources : List σ) :
    total column (sources.map value) = total (fun source => column (value source)) sources := by
  simp [total, Function.comp_def]

theorem total_filter_or {keep left right : ρ → Bool}
    (either : ∀ row, keep row = (left row || right row))
    (apart : ∀ row, (left row && right row) = false) :
    total column (rows.filter keep) =
      total column (rows.filter left) + total column (rows.filter right) := by
  induction rows with
  | nil => rfl
  | cons row rows ih =>
      have both := apart row
      simp only [List.filter_cons, either row]
      cases inLeft : left row <;> cases inRight : right row
      · simpa using ih
      · simp only [Bool.or_true, Bool.false_eq_true, if_true, if_false, total_cons, ih]
        ring
      · simp only [Bool.or_false, Bool.false_eq_true, if_true, if_false, total_cons, ih]
        ring
      · rw [inLeft, inRight] at both
        cases both

theorem members_filter (keep : ρ → Bool) (k : κ) :
    members key (rows.filter keep) k = (members key rows k).filter keep := by
  simp only [members, List.filter_filter, Bool.and_comm]

theorem members_map {σ : Type u} (value : σ → ρ) (sources : List σ) (k : κ) :
    members key (sources.map value) k =
      (members (fun source => key (value source)) sources k).map value := by
  simp [members, List.filter_map, Function.comp_def]

theorem total_one (rows : List ρ) : total (fun _ => 1) rows = rows.length := by
  induction rows with
  | nil => rfl
  | cons row rows ih =>
      rw [total_cons, ih, List.length_cons]
      push_cast
      ring

theorem mem_keys {k : κ} : k ∈ keys before key rows ↔ ∃ row ∈ rows, key row = k := by
  simp [keys, List.mem_mergeSort]

theorem nodup_keys : (keys before key rows).Nodup := by
  rw [keys, (List.mergeSort_perm _ _).nodup_iff]
  exact List.nodup_dedup _

theorem total_members_of_not_mem {k : κ} (absent : k ∉ keys before key rows) :
    total column (members key rows k) = 0 := by
  have none : members key rows k = [] := by
    rw [members, List.filter_eq_nil_iff]
    intro row member same
    exact absent (mem_keys.mpr ⟨row, member, by simpa using same⟩)
  rw [none, total_nil]

/-- A row adds its amount to the group of its key and to no other. -/
theorem sum_members_cons (row : ρ) {ks : List κ} (distinct : ks.Nodup) :
    (ks.map fun k => total column (members key (row :: rows) k)).sum =
      (if key row ∈ ks then column row else 0) +
        (ks.map fun k => total column (members key rows k)).sum := by
  induction ks with
  | nil => simp
  | cons k ks ih =>
      obtain ⟨fresh, distinct⟩ := List.nodup_cons.mp distinct
      rw [List.map_cons, List.sum_cons, ih distinct, List.map_cons, List.sum_cons]
      by_cases own : key row = k
      · have absent : key row ∉ ks := own ▸ fresh
        simp only [members, List.filter_cons, own, decide_true, if_true, total_cons,
          List.mem_cons, true_or] at absent ⊢
        rw [if_neg absent]
        ring
      · simp only [members, List.filter_cons, own, decide_false, Bool.false_eq_true, if_false,
          List.mem_cons, false_or]
        ring

/-- Every row is in the group of one of the keys. -/
theorem sum_members {ks : List κ} (distinct : ks.Nodup) (covers : ∀ row ∈ rows, key row ∈ ks) :
    (ks.map fun k => total column (members key rows k)).sum = total column rows := by
  induction rows with
  | nil =>
      apply List.sum_eq_zero
      simp [members]
  | cons row rows ih =>
      rw [sum_members_cons row distinct, if_pos (covers row List.mem_cons_self),
        ih fun other member => covers other (List.mem_cons_of_mem _ member), total_cons]

/-! ## Reports of one line a group -/

/-- The lines of the keys, when all can be made. -/
def report {ε : Type} (lineOf : κ → Except ε β) : List κ → Except ε (List β)
  | [] => .ok []
  | k :: ks => do
    let line ← lineOf k
    let lines ← report lineOf ks
    .ok (line :: lines)

section Report

variable {ε : Type} {lineOf : κ → Except ε β} {nameOf : β → κ} {amount : β → Int}
variable {ks : List κ} {lines : List β}

omit [DecidableEq κ] in
theorem report_answers (each : ∀ k ∈ ks, ∃ line, lineOf k = .ok line) :
    ∃ lines, report lineOf ks = .ok lines := by
  induction ks with
  | nil => exact ⟨[], rfl⟩
  | cons k ks ih =>
      obtain ⟨line, first⟩ := each k List.mem_cons_self
      obtain ⟨lines, rest⟩ := ih fun other member => each other (List.mem_cons_of_mem _ member)
      exact ⟨line :: lines, by simp [report, first, rest]⟩

omit [DecidableEq κ] in
theorem report_made (made : report lineOf ks = .ok lines) {k : κ} (asked : k ∈ ks) :
    ∃ line, lineOf k = .ok line := by
  induction ks generalizing lines with
  | nil => cases asked
  | cons first ks ih =>
      obtain ⟨line, head, made⟩ := Fallible.bind_eq_ok.mp made
      obtain ⟨rest, after, made⟩ := Fallible.bind_eq_ok.mp made
      rcases List.mem_cons.mp asked with rfl | later
      · exact ⟨line, head⟩
      · exact ih after later

omit [DecidableEq κ] in
/-- When the line of a key has the amount `value`, the report sums the values of the keys. -/
theorem report_total {value : κ → Int}
    (faithful : ∀ k line, lineOf k = .ok line → amount line = value k)
    (made : report lineOf ks = .ok lines) : total amount lines = (ks.map value).sum := by
  induction ks generalizing lines with
  | nil =>
      cases made
      rfl
  | cons k ks ih =>
      obtain ⟨line, first, made⟩ := Fallible.bind_eq_ok.mp made
      obtain ⟨rest, after, made⟩ := Fallible.bind_eq_ok.mp made
      cases made
      rw [total_cons, faithful k line first, ih after, List.map_cons, List.sum_cons]

theorem report_amounts {value : κ → Int}
    (named : ∀ k line, lineOf k = .ok line → nameOf line = k)
    (faithful : ∀ k line, lineOf k = .ok line → amount line = value k)
    (distinct : ks.Nodup) (made : report lineOf ks = .ok lines) (k : κ) :
    (lines.filter fun line => nameOf line = k).map amount = if k ∈ ks then [value k] else [] := by
  induction ks generalizing lines with
  | nil =>
      cases made
      rfl
  | cons first ks ih =>
      obtain ⟨fresh, distinct⟩ := List.nodup_cons.mp distinct
      obtain ⟨line, head, made⟩ := Fallible.bind_eq_ok.mp made
      obtain ⟨rest, after, made⟩ := Fallible.bind_eq_ok.mp made
      cases made
      have name := named first line head
      have others := ih distinct after
      by_cases own : first = k
      · subst own
        rw [if_neg fresh] at others
        simp [name, faithful first line head, others]
      · have other : k ≠ first := fun same => own same.symm
        simp [name, own, other, others]

theorem report_members {value : κ → Int}
    (named : ∀ k line, lineOf k = .ok line → nameOf line = k)
    (faithful : ∀ k line, lineOf k = .ok line → amount line = value k)
    (distinct : ks.Nodup) (made : report lineOf ks = .ok lines) (k : κ) :
    total amount (members nameOf lines k) = if k ∈ ks then value k else 0 := by
  rw [total, members, report_amounts named faithful distinct made k]
  split <;> simp

/-- Faithful lines of all keys sum what the rows sum. -/
theorem report_total_keys
    (faithful : ∀ k line, lineOf k = .ok line → amount line = total column (members key rows k))
    (made : report lineOf (keys before key rows) = .ok lines) :
    total amount lines = total column rows := by
  rw [report_total faithful made]
  exact sum_members nodup_keys fun row member => mem_keys.mpr ⟨row, member, rfl⟩

/-- Faithful lines of one name sum what the rows of that key sum. -/
theorem report_members_keys (named : ∀ k line, lineOf k = .ok line → nameOf line = k)
    (faithful : ∀ k line, lineOf k = .ok line → amount line = total column (members key rows k))
    (made : report lineOf (keys before key rows) = .ok lines) (k : κ) :
    total amount (members nameOf lines k) = total column (members key rows k) := by
  rw [report_members named faithful nodup_keys made]
  split
  · rfl
  · rename_i absent
    exact (total_members_of_not_mem absent).symm

end Report

end Grouped

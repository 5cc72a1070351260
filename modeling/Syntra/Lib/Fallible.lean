import Mathlib.Data.List.Forall2
import Mathlib.Tactic.Common

/-!
# Fallible computations

Inversion of `Except` programs, one lemma for each way such a program is put
together, so that a proof peels a run apart instead of splitting every branch.
-/

set_option autoImplicit false

namespace Fallible

universe u v w

variable {ε : Type u} {α β : Type v}

@[simp] theorem ok_bind (value : α) (next : α → Except ε β) :
    (Except.ok value >>= next) = next value := rfl

@[simp] theorem error_bind (failure : ε) (next : α → Except ε β) :
    ((Except.error failure : Except ε α) >>= next) = .error failure := rfl

theorem bind_eq_ok {run : Except ε α} {next : α → Except ε β} {result : β} :
    (run >>= next) = .ok result ↔ ∃ value, run = .ok value ∧ next value = .ok result := by
  cases run with
  | error failure => simp
  | ok value => simp

/-- An early return with `failure` when `bad` holds. -/
def rejectIf (bad : Prop) [Decidable bad] (failure : ε) : Except ε PUnit.{v + 1} :=
  if bad then .error failure else .ok ⟨⟩

theorem rejectIf_of_not {bad : Prop} [Decidable bad] {failure : ε} (good : ¬ bad) :
    (rejectIf bad failure : Except ε PUnit.{v + 1}) = .ok ⟨⟩ := if_neg good

theorem rejectIf_of {bad : Prop} [Decidable bad] {failure : ε} (rejected : bad) :
    (rejectIf bad failure : Except ε PUnit.{v + 1}) = .error failure := if_pos rejected

theorem rejectIf_bind_eq_ok {bad : Prop} [Decidable bad] {failure : ε}
    {next : PUnit.{v + 1} → Except ε β} {result : β} :
    (rejectIf bad failure >>= next) = .ok result ↔ ¬ bad ∧ next ⟨⟩ = .ok result := by
  by_cases rejected : bad <;> simp [rejectIf, rejected]

theorem rejectIf_eq_ok {bad : Prop} [Decidable bad] {failure : ε} {value : PUnit.{v + 1}} :
    rejectIf bad failure = .ok value ↔ ¬ bad := by
  by_cases rejected : bad <;> simp [rejectIf, rejected]

theorem mapError_eq_ok {δ : Type w} {run : Except ε α} {failed : ε → δ} {value : α} :
    run.mapError failed = .ok value ↔ run = .ok value := by
  cases run <;> simp [Except.mapError]

/-- `Option::ok_or`. -/
def okOr (value : Option α) (failure : ε) : Except ε α :=
  match value with
  | some value => .ok value
  | none => .error failure

theorem okOr_eq_ok {value : Option α} {failure : ε} {result : α} :
    okOr value failure = .ok result ↔ value = some result := by
  cases value <;> simp [okOr]

/-! ## Runs that succeed at least as often -/

/-- Whatever the first run returns the second returns too. -/
def Widens (run wider : Except ε α) : Prop := ∀ value, run = .ok value → wider = .ok value

theorem Widens.refl (run : Except ε α) : Widens run run := fun _ success => success

theorem Widens.bind {run wider : Except ε α} {next next' : α → Except ε β}
    (first : Widens run wider) (rest : ∀ value, run = .ok value → Widens (next value) (next' value)) :
    Widens (run >>= next) (wider >>= next') := by
  intro result success
  obtain ⟨value, made, after⟩ := bind_eq_ok.mp success
  rw [first value made, ok_bind]
  exact rest value made result after

/-- Both runs go on alike after the same beginning. -/
theorem Widens.after (run : Except ε α) {next next' : α → Except ε β}
    (rest : ∀ value, Widens (next value) (next' value)) : Widens (run >>= next) (run >>= next') :=
  Widens.bind (Widens.refl run) fun value _ => rest value

theorem Widens.rejectIf {bad bad' : Prop} [Decidable bad] [Decidable bad'] {failure failure' : ε}
    (weaker : bad' → bad) :
    Widens (Fallible.rejectIf bad failure : Except ε PUnit.{v + 1})
      (Fallible.rejectIf bad' failure') := by
  intro _ success
  rw [rejectIf_eq_ok] at success ⊢
  exact fun rejected => success (weaker rejected)

/-! ## Runs one after the other -/

/-- The runs of these indices succeed with these values. -/
def Yields (run : Nat → Except ε α) : List Nat → List α → Prop :=
  List.Forall₂ fun i value => run i = .ok value

theorem Yields.exists_run {run : Nat → Except ε α} {indices : List Nat} {values : List α}
    (yields : Yields run indices values) {value : α} (member : value ∈ values) :
    ∃ i ∈ indices, run i = .ok value := by
  induction yields with
  | nil => exact absurd member List.not_mem_nil
  | cons first _ ih =>
      rcases List.mem_cons.mp member with rfl | later
      · exact ⟨_, List.mem_cons_self, first⟩
      · obtain ⟨i, listed, made⟩ := ih later
        exact ⟨i, List.mem_cons_of_mem _ listed, made⟩

/-- All of the first `n` runs succeed, or one is the first to fail. -/
theorem yields_or_fails (run : Nat → Except ε α) (n : Nat) :
    (∃ values, Yields run (List.range n) values) ∨
      ∃ i < n, ∃ values failure, Yields run (List.range i) values ∧ run i = .error failure := by
  induction n with
  | zero => exact Or.inl ⟨[], List.Forall₂.nil⟩
  | succ n ih =>
      rcases ih with ⟨values, yields⟩ | ⟨i, before, first⟩
      · cases last : run n with
        | ok value =>
            refine Or.inl ⟨values ++ [value], ?_⟩
            rw [List.range_succ]
            exact List.rel_append yields (List.Forall₂.cons last List.Forall₂.nil)
        | error failure => exact Or.inr ⟨n, Nat.lt_succ_self n, values, failure, yields, last⟩
      · exact Or.inr ⟨i, Nat.lt_succ_of_lt before, first⟩

end Fallible

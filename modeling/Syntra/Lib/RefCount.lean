import Mathlib.Tactic.Common

/-!
# Reference counts

How many references each holder has on each object.  Holders acquire references
one at a time and release one or all of theirs; an object is kept while somebody
holds it.
-/

set_option autoImplicit false

universe u v

namespace RefCount

inductive Action (T : Type u) (O : Type v) where
  | acquire (holder : T) (object : O)
  | release (holder : T) (object : O) (all : Bool)
  | pass
  deriving DecidableEq

abbrev Counts (T : Type u) (O : Type v) := T → O → Nat

namespace Counts

variable {T : Type u} {O : Type v}

def zero : Counts T O := fun _ _ => 0

def Kept (counts : Counts T O) (object : O) : Prop := ∃ holder, 0 < counts holder object

variable [DecidableEq T] [DecidableEq O]

def apply (counts : Counts T O) : Action T O → Counts T O
  | .acquire holder object => fun t o =>
    if t = holder ∧ o = object then counts t o + 1 else counts t o
  | .release holder object all => fun t o =>
    if t = holder ∧ o = object then if all then 0 else counts t o - 1 else counts t o
  | .pass => counts

def run (counts : Counts T O) (actions : List (Action T O)) : Counts T O :=
  actions.foldl apply counts

theorem run_append (counts : Counts T O) (first second : List (Action T O)) :
    counts.run (first ++ second) = (counts.run first).run second := List.foldl_append

@[simp] theorem apply_acquire_self (counts : Counts T O) (holder : T) (object : O) :
    counts.apply (.acquire holder object) holder object = counts holder object + 1 := by
  simp [apply]

theorem apply_acquire_of_ne (counts : Counts T O) {holder t : T} {object o : O}
    (apart : ¬ (t = holder ∧ o = object)) :
    counts.apply (.acquire holder object) t o = counts t o := if_neg apart

theorem apply_release_of_ne (counts : Counts T O) {holder t : T} {object o : O} (all : Bool)
    (apart : ¬ (t = holder ∧ o = object)) :
    counts.apply (.release holder object all) t o = counts t o := if_neg apart

/-- While the holder has some left after every action, what it holds is what it held and
acquired less what it released one by one. -/
theorem run_balance (counts : Counts T O) (actions : List (Action T O)) (holder : T) (object : O)
    (positive : ∀ n, 0 < n → n ≤ actions.length → 0 < counts.run (actions.take n) holder object) :
    counts.run actions holder object + actions.count (.release holder object false) =
      counts holder object + actions.count (.acquire holder object) := by
  induction actions generalizing counts with
  | nil => rfl
  | cons action actions ih =>
      have here : 0 < counts.apply action holder object := positive 1 Nat.one_pos (by simp)
      have rest := ih (counts.apply action) fun n before inside =>
        positive (n + 1) n.succ_pos (by simpa using inside)
      have first : counts.apply action holder object +
          (if action = .release holder object false then 1 else 0) =
          counts holder object + if action = .acquire holder object then 1 else 0 := by
        cases action with
        | pass => simp [apply]
        | acquire t o =>
            simp only [apply, Action.acquire.injEq, reduceCtorEq, if_false] at here ⊢
            by_cases same : t = holder ∧ o = object
            · simp [same.1, same.2]
            · rw [if_neg same, if_neg]
              intro other
              exact same ⟨other.1.symm, other.2.symm⟩
        | release t o all =>
            simp only [apply, Action.release.injEq, reduceCtorEq, if_false] at here ⊢
            by_cases same : holder = t ∧ object = o
            · rw [if_pos same] at here ⊢
              cases all with
              | true => simp at here
              | false =>
                  simp only [Bool.false_eq_true, if_false] at here ⊢
                  rw [if_pos ⟨same.1.symm, same.2.symm, trivial⟩]
                  omega
            · rw [if_neg same, if_neg]
              rintro ⟨rfl, rfl, -⟩
              exact same ⟨rfl, rfl⟩
      simp only [List.count_cons, beq_iff_eq]
      have unfolded : counts.run (action :: actions) = (counts.apply action).run actions := rfl
      rw [unfolded]
      omega

end Counts

end RefCount

import Mathlib.Tactic.Common

/-!
# Runs of a labelled step function

A label names which party moves; a step that the state does not allow has no
successor.  `Meets` says that every step of a run is taken in a state where a
given condition on the state and the label holds, and the invariant rule asks
for preservation by such steps only.
-/

set_option autoImplicit false

namespace Run

universe u v

variable {σ : Type u} {label : Type v} (step : σ → label → Option σ)

def exec (state : σ) : List label → Option σ
  | [] => some state
  | move :: moves => (step state move).bind fun next => exec next moves

def Meets (guard : σ → label → Prop) (state : σ) : List label → Prop
  | [] => True
  | move :: moves =>
    guard state move ∧ ∀ next, step state move = some next → Meets guard next moves

variable {step}

theorem exec_cons_eq_some {state final : σ} {move : label} {moves : List label} :
    exec step state (move :: moves) = some final ↔
      ∃ next, step state move = some next ∧ exec step next moves = some final := by
  simp [exec, Option.bind_eq_some_iff]

theorem exec_append (state : σ) (first second : List label) :
    exec step state (first ++ second) =
      (exec step state first).bind fun next => exec step next second := by
  induction first generalizing state with
  | nil => rfl
  | cons move moves ih =>
      simp only [List.cons_append, exec]
      cases step state move with
      | none => rfl
      | some next => exact ih next

theorem meets_cons {guard : σ → label → Prop} {state next : σ} {move : label}
    {moves : List label} (taken : step state move = some next) (here : guard state move)
    (rest : Meets step guard next moves) : Meets step guard state (move :: moves) :=
  ⟨here, fun _ same => Option.some.inj (taken.symm.trans same) ▸ rest⟩

instance decidableMeets (guard : σ → label → Prop)
    [∀ state move, Decidable (guard state move)] (state : σ) (moves : List label) :
    Decidable (Meets step guard state moves) :=
  match moves with
  | [] => .isTrue trivial
  | move :: moves =>
    match taken : step state move with
    | none => decidable_of_iff (guard state move) (by simp [Meets, taken])
    | some next =>
      have : Decidable (Meets step guard next moves) := decidableMeets guard next moves
      decidable_of_iff (guard state move ∧ Meets step guard next moves) (by simp [Meets, taken])

theorem meets_true (state : σ) (moves : List label) :
    Meets step (fun _ _ => True) state moves := by
  induction moves generalizing state with
  | nil => trivial
  | cons move moves ih => exact ⟨trivial, fun next _ => ih next⟩

/-- The invariant rule, by induction on the moves of the run. -/
theorem invariant (guard : σ → label → Prop) (inv : σ → Prop)
    (kept : ∀ state move next, inv state → guard state move →
      step state move = some next → inv next)
    (state final : σ) (moves : List label) (start : inv state)
    (meets : Meets step guard state moves)
    (run : exec step state moves = some final) : inv final := by
  induction moves generalizing state with
  | nil =>
      simp only [exec, Option.some.injEq] at run
      exact run ▸ start
  | cons move moves ih =>
      obtain ⟨next, first, rest⟩ := exec_cons_eq_some.mp run
      exact ih next (kept state move next start meets.1 first) (meets.2 next first) rest

/-- What an invariant and the condition of a step give holds at every step of a run
that meets the condition. -/
theorem meets_of_invariant (guard good : σ → label → Prop) (inv : σ → Prop)
    (kept : ∀ state move next, inv state → guard state move →
      step state move = some next → inv next)
    (sound : ∀ state move, inv state → guard state move → good state move)
    (state : σ) (moves : List label) (start : inv state)
    (meets : Meets step guard state moves) : Meets step good state moves := by
  induction moves generalizing state with
  | nil => trivial
  | cons move moves ih =>
      exact ⟨sound state move start meets.1, fun next taken =>
        ih next (kept state move next start meets.1 taken) (meets.2 next taken)⟩

end Run

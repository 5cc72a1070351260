import Syntra.Transform.Chain

/-!
# Chains lose nothing

The inverse of a chain asks for room for the data it started from and for the
stages between two steps.  What the last step made is its input, and needs none.
-/

set_option autoImplicit false

namespace Syntra

open Fallible

/-- By induction on the chain: what is inverted first is the last stage. -/
theorem invertSteps_recorded {stageCap cap : Nat} {data out : Bytes}
    {steps recorded : List TransformStep}
    (success : applyChain data steps = .ok (out, recorded))
    (output : out.length < 2 ^ 64) (word : stageCap < 2 ^ 64)
    (final : steps ≠ [] → data.length ≤ cap)
    (between : ∀ stage ∈ (stages data steps).dropLast, stage.length ≤ stageCap) :
    invertSteps stageCap out cap recorded = .ok data := by
  induction steps generalizing data cap recorded with
  | nil =>
      simp only [applyChain, Except.ok.injEq, Prod.mk.injEq] at success
      obtain ⟨rfl, rfl⟩ := success
      rfl
  | cons s steps ih =>
      obtain ⟨staged, tail, first, rest, rfl⟩ := applyChain_cons_eq_ok.mp success
      rw [stages_cons_of_ok first] at between
      have stagedFits : steps ≠ [] → staged.length ≤ stageCap := by
        intro more
        cases steps with
        | nil => exact absurd rfl more
        | cons next steps =>
            obtain ⟨further, -, second, -, -⟩ := applyChain_cons_eq_ok.mp rest
            apply between
            rw [stages_cons_of_ok second, List.dropLast_cons_cons]
            exact List.mem_cons_self
      have small : staged.length < 2 ^ 64 := by
        by_cases more : steps = []
        · subst more
          simp only [applyChain, Except.ok.injEq, Prod.mk.injEq] at rest
          rw [rest.1]
          exact output
        · exact (stagedFits more).trans_lt word
      have inner : invertSteps stageCap out stageCap tail = .ok staged := by
        apply ih rest stagedFits
        intro stage member
        apply between
        cases others : stages staged steps with
        | nil => simp [others] at member
        | cons next further =>
            rw [List.dropLast_cons_cons]
            rw [others] at member
            exact List.mem_cons_of_mem staged member
      have undone := invertLimited_apply data staged s cap data.length (Or.inr rfl) small first
      rw [if_pos (final (List.cons_ne_nil s steps))] at undone
      rw [invertSteps, inner, ok_bind]
      exact undone

/-- A chain is undone by its recorded steps under any limits that leave room for its
stages; delta coding and byte planes are bijections that keep the length. -/
theorem chains_lossless :
    (∀ (data out : Bytes) (steps recorded : List TransformStep) (stageCap finalCap : Nat),
      steps.length ≤ maxChain → applyChain data steps = .ok (out, recorded) →
      out.length < 2 ^ 64 → stageCap < 2 ^ 64 →
      (∀ stage ∈ (stages data steps).dropLast, stage.length ≤ stageCap) →
      data.length ≤ finalCap →
      invertChainLimited out recorded stageCap finalCap = .ok data) ∧
    ∀ (data : Bytes) (width : Nat), width ∈ widths →
      (deltaApply data width).length = data.length ∧
      (deltaInvert data width).length = data.length ∧
      deltaInvert (deltaApply data width) width = data ∧
      deltaApply (deltaInvert data width) width = data ∧
      (byteSplitApply data width).length = data.length ∧
      (byteSplitInvert data width).length = data.length ∧
      byteSplitInvert (byteSplitApply data width) width = data ∧
      byteSplitApply (byteSplitInvert data width) width = data := by
  constructor
  · intro data out steps recorded stageCap finalCap short success output word between final
    have count := length_applyChain success
    rw [invertChainLimited_of_short out recorded stageCap finalCap (count ▸ short)]
    cases recorded with
    | nil =>
        cases steps with
        | cons s steps => simp at count
        | nil =>
            simp only [applyChain, Except.ok.injEq, Prod.mk.injEq] at success
            rw [← success.1, checkLen_of_le final]
            rfl
    | cons first tail =>
        exact invertSteps_recorded success output word (fun _ => final) between
  · intro data width listed
    have narrow := width_le_eight listed
    exact ⟨length_deltaApply data width narrow, length_deltaInvert data width narrow,
      deltaInvert_deltaApply data width narrow, deltaApply_deltaInvert data width narrow,
      length_byteSplitApply data width, length_byteSplitInvert data width,
      byteSplitInvert_byteSplitApply data width, byteSplitApply_byteSplitInvert data width⟩

/-- Five bytes in pairs: the fifth is the tail of the delta coding. -/
theorem chains_lossless_deltaRle :
    applyChain [1, 0, 1, 0, 7] [step .delta 2 0, step .rle 1 0] =
        .ok ([0, 1, 254, 0, 0, 7], [step .delta 2 5, step .rle 1 5]) ∧
      invertChainLimited [0, 1, 254, 0, 0, 7] [step .delta 2 5, step .rle 1 5] 5 5 =
        .ok [1, 0, 1, 0, 7] := by
  have applied : applyChain [1, 0, 1, 0, 7] [step .delta 2 0, step .rle 1 0] =
      .ok ([0, 1, 254, 0, 0, 7], [step .delta 2 5, step .rle 1 5]) := by decide +kernel
  exact ⟨applied, chains_lossless.1 _ _ _ _ 5 5 (by decide) applied (by decide) (by decide)
    (by decide +kernel) (by decide)⟩

end Syntra

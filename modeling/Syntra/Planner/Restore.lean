import Syntra.FramingCodecs
import Syntra.Planner.Plan
import Syntra.Transform.Growth

/-!
# Restoring what was executed

The decoder caps every stage of the chain by a figure computed from the final
size, while the encoder checks nothing.  Restoring succeeds exactly when what the
steps add to the data, counted from its blocks and fields, never exceeds an eighth
of it and 4096 bytes.
-/

set_option autoImplicit false

namespace Syntra

open Fallible

/-- No step makes the data longer than `cap`, and what the codec is given can be
decoded at all. -/
structure StagesFit (cap : Nat) (data : Bytes) (steps : List TransformStep) : Prop where
  within : ∀ stage ∈ stages data steps, stage.length ≤ cap
  decodable : ((stages data steps).getLast?.getD data).length ≤ maxDecompressed

theorem stageSlack_lt (n : Nat) : stageSlack n < 2 ^ 64 := by
  unfold stageSlack saturatingAdd
  omega

theorem le_stageSlack (n : Nat) (word : n < 2 ^ 64) : n ≤ stageSlack n := by
  unfold stageSlack saturatingAdd
  omega

theorem stageSlack_eq (n : Nat) (small : n ≤ 2 ^ 60) : stageSlack n = n + n / 8 + 4096 := by
  unfold stageSlack saturatingAdd
  omega

theorem keepLen_map_isEmpty (kept : Bool) (steps : List TransformStep) :
    (steps.map (keepLen kept)).isEmpty = steps.isEmpty := by
  cases steps <;> rfl

theorem keepLen_true (steps : List TransformStep) : steps.map (keepLen true) = steps := by
  conv_rhs => rw [← List.map_id steps]
  exact List.map_congr_left fun s _ => rfl

variable {C : Codecs}

/-- The whole inverse, with the steps as recorded or with their lengths forgotten. -/
theorem restoreLimited_execute (trusted : C.RoundTrip) {data payload : Bytes}
    {plan : Plan} {dict : Option Bytes} {steps : List TransformStep} (kept : Bool)
    (expectedLen : Option Nat) (maxOut : Nat) (restored : Bytes) (few : plan.transforms.length ≤ maxChain)
    (run : execute C data plan dict = .ok (payload, steps)) :
    restoreLimited C payload plan.codec (steps.map (keepLen kept))
        (if plan.useDictionary then dict else none) expectedLen maxOut = .ok restored ↔
      restored = data ∧ data.length ≤ expectedLen.elim maxOut (min · maxOut) ∧
        StagesFit (stageSlack (expectedLen.elim maxOut (min · maxOut))) data plan.transforms := by
  obtain ⟨staged, chain, encoded⟩ := (execute_eq_ok C).mp run
  have count := length_applyChain chain
  have short : (steps.map (keepLen kept)).length ≤ maxChain := by
    rw [List.length_map, count]
    exact few
  rw [restoreLimited, rejectIf_of_not (by omega), ok_bind]
  generalize expectedLen.elim maxOut (min · maxOut) = finalCap
  dsimp only
  simp only [bind_eq_ok, trusted.decodeLimited_encode encoded,
    invertChainLimited_of_short _ _ _ _ short, keepLen_map_isEmpty]
  cases transforms : plan.transforms with
  | nil =>
      rw [transforms] at chain
      simp only [applyChain, Except.ok.injEq, Prod.mk.injEq] at chain
      obtain ⟨rfl, rfl⟩ := chain
      simp only [List.isEmpty_nil, if_true, checkLen, rejectIf_bind_eq_ok, Nat.not_lt]
      constructor
      · rintro ⟨_, ⟨rfl, bound⟩, fits, equal⟩
        have decodable := bound.trans (Nat.min_le_right _ _)
        exact ⟨(Except.ok.inj equal).symm, fits, ⟨by simp [stages], by simpa [stages]⟩⟩
      · rintro ⟨rfl, fits, within, decodable⟩
        simp only [stages, List.getLast?_nil, Option.getD_none] at decodable
        exact ⟨restored, ⟨rfl, Nat.le_min.mpr ⟨fits, decodable⟩⟩, fits, rfl⟩
  | cons s rest =>
      rw [transforms] at chain count
      have filled : steps.isEmpty = false := by
        cases steps with
        | nil => simp at count
        | cons _ _ => rfl
      have last := stages_applyChain chain
      have member := mem_stages_of_applyChain chain
      have invert := fun bounded : staged.length ≤ stageSlack finalCap =>
        invertSteps_applyChain (stageSlack finalCap) finalCap kept data staged restored
          (s :: rest) steps chain (stageSlack_lt _) bounded
      simp only [filled, Bool.false_eq_true, if_false]
      constructor
      · rintro ⟨_, ⟨rfl, bound⟩, inverted⟩
        obtain ⟨equal, fits, within⟩ :=
          (invert (bound.trans (Nat.min_le_left _ _))).mp inverted
        exact ⟨equal, fits (by simp), within, last ▸ bound.trans (Nat.min_le_right _ _)⟩
      · rintro ⟨equal, fits, within, decodable⟩
        rw [last] at decodable
        exact ⟨staged, ⟨rfl, Nat.le_min.mpr ⟨within staged member, decodable⟩⟩,
          (invert (within staged member)).mpr ⟨equal, fun _ => fits, within⟩⟩

/-- Without Rle the stages fit whenever the largest chain of eight leaves the last
stage under the ceiling of the codecs. -/
theorem stagesFit_of_noRle (data : Bytes) (steps : List TransformStep)
    (few : steps.length ≤ maxChain) (noRle : NoRle steps)
    (size : data.length + data.length / 8 + 128 ≤ maxDecompressed) :
    StagesFit (stageSlack data.length) data steps := by
  have bound := length_stages_le_of_noRle data.length 0 data steps noRle
    (by simp only [maxChain] at few; omega) (by omega)
  simp only [maxDecompressed] at size
  rw [stageSlack_eq data.length (by omega)]
  refine ⟨fun stage member => (bound stage member).trans (by omega), ?_⟩
  simp only [maxDecompressed]
  cases last : (stages data steps).getLast? with
  | none =>
      rw [Option.getD_none]
      omega
  | some stage =>
      rw [Option.getD_some]
      exact (bound stage (List.mem_of_getLast? last)).trans size

theorem restore_execute_of_noRle (trusted : C.RoundTrip) {data payload : Bytes} {plan : Plan}
    {dict : Option Bytes} {steps : List TransformStep} (kept : Bool)
    (few : plan.transforms.length ≤ maxChain) (noRle : NoRle plan.transforms)
    (size : data.length + data.length / 8 + 128 ≤ maxDecompressed)
    (run : execute C data plan dict = .ok (payload, steps)) :
    restore C payload plan.codec (steps.map (keepLen kept))
      (if plan.useDictionary then dict else none) (some data.length) = .ok data := by
  have cap : min data.length maxDecompressed = data.length := by omega
  rw [restore, restoreLimited_execute trusted kept _ _ _ few run, Option.elim_some, cap]
  exact ⟨rfl, le_refl _, stagesFit_of_noRle data plan.transforms few noRle size⟩

/-! ## The exact condition -/

/-- What the steps add, summed from the first to any of them, stays within an eighth of
the data and 4096 bytes, and what all of them add within the ceiling of the codecs. -/
structure GrowthFits (data : Bytes) (steps : List TransformStep) : Prop where
  slack : ∀ first ∈ (growths data steps).inits, first.sum ≤ data.length / 8 + 4096
  decodable : data.length + (growths data steps).sum ≤ maxDecompressed

theorem stagesFit_iff_growthFits {data out : Bytes} {steps recorded : List TransformStep}
    (size : data.length ≤ maxDecompressed)
    (success : applyChain data steps = .ok (out, recorded)) :
    StagesFit (stageSlack data.length) data steps ↔ GrowthFits data steps := by
  have cap : stageSlack data.length = data.length + data.length / 8 + 4096 :=
    stageSlack_eq data.length (size.trans (by decide))
  have within := stages_within (data.length / 8 + 4096) success
  have last := length_last_stage success
  rw [List.forall_mem_cons] at within
  constructor
  · rintro ⟨bounded, decodable⟩
    rw [stages_applyChain success] at decodable
    refine ⟨within.mp ⟨by omega, fun stage member => ?_⟩, by omega⟩
    have bound := bounded stage member
    omega
  · rintro ⟨slack, decodable⟩
    refine ⟨fun stage member => ?_, ?_⟩
    · have bound := (within.mpr slack).2 stage member
      omega
    · rw [stages_applyChain success]
      omega

theorem restore_execute_iff_growthFits (C : Codecs) (trusted : C.RoundTrip)
    (data payload : Bytes) (plan : Plan) (dict : Option Bytes) (steps : List TransformStep)
    (size : data.length ≤ maxDecompressed) (few : plan.transforms.length ≤ maxChain)
    (run : execute C data plan dict = .ok (payload, steps)) :
    restore C payload plan.codec steps (if plan.useDictionary then dict else none)
        (some data.length) = .ok data ↔
      GrowthFits data plan.transforms := by
  have cap : min data.length maxDecompressed = data.length := by omega
  have inverse := restoreLimited_execute trusted true (some data.length) maxDecompressed data
    few run
  obtain ⟨staged, chain, -⟩ := (execute_eq_ok C).mp run
  rw [keepLen_true, Option.elim_some, cap] at inverse
  rw [restore, inverse, stagesFit_iff_growthFits size chain]
  exact ⟨fun restored => restored.2.2, fun fits => ⟨rfl, le_refl _, fits⟩⟩

def rlePlan : Plan := (Plan.new .stored 0).withSteps [(.rle, 1)]

/-- Five equal bytes and a lone one: the run saves three bytes, the literal block costs
one. -/
theorem restore_execute_iff_growthFits_run :
    execute framingCodecs [7, 7, 7, 7, 7, 9] rlePlan none =
        .ok ([252, 7, 0, 9], [step .rle 1 6]) ∧
      restore framingCodecs [252, 7, 0, 9] .stored [step .rle 1 6] none (some 6) =
        .ok [7, 7, 7, 7, 7, 9] := by
  have coded : rleApply [7, 7, 7, 7, 7, 9] = [252, 7, 0, 9] := by
    simp [rleApply, runLength, literalLength]
  have blocks : literalBlocks [7, 7, 7, 7, 7, 9] = 1 := by
    simp [literalBlocks, runLength, literalLength]
  have saved : runSavings [7, 7, 7, 7, 7, 9] = 3 := by
    simp [runSavings, runLength, literalLength]
  have added : growth [7, 7, 7, 7, 7, 9] (step .rle 1 0) = (1 : Nat) - (3 : Nat) := by
    rw [← blocks, ← saved]
    rfl
  have applied : apply [7, 7, 7, 7, 7, 9] (step .rle 1 0) =
      .ok (rleApply [7, 7, 7, 7, 7, 9]) := rfl
  have grown : growths [7, 7, 7, 7, 7, 9] rlePlan.transforms = [-2] :=
    (growths_cons_of_ok applied).trans (congrArg (· :: []) added)
  have run : execute framingCodecs [7, 7, 7, 7, 7, 9] rlePlan none =
      .ok ([252, 7, 0, 9], [step .rle 1 6]) := by
    rw [← coded]
    rfl
  exact ⟨run, (restore_execute_iff_growthFits framingCodecs framingCodecs_roundTrip
    [7, 7, 7, 7, 7, 9] [252, 7, 0, 9] rlePlan none [step .rle 1 6] (by decide) (by decide)
    run).mpr ⟨by simp [grown], by simp [grown, maxDecompressed]⟩⟩

/-- 19662 bytes that Rle turns into 26216, one more than their own slack: they are
stored without complaint and cannot be read back. -/
theorem loneAndPair_not_restored :
    ∃ payload steps,
      execute framingCodecs (loneAndPair 6554) rlePlan none = .ok (payload, steps) ∧
        stageSlack (loneAndPair 6554).length < payload.length ∧
        restore framingCodecs payload rlePlan.codec steps none
          (some (loneAndPair 6554).length) ≠ .ok (loneAndPair 6554) := by
  have run : execute framingCodecs (loneAndPair 6554) rlePlan none =
      .ok (rleApply (loneAndPair 6554), [step .rle 1 (loneAndPair 6554).length]) := rfl
  have original := length_loneAndPair 6554
  have coded := length_rleApply_loneAndPair 6554
  have slack : stageSlack (loneAndPair 6554).length = 26215 := by
    rw [original]
    decide
  refine ⟨_, _, run, by rw [slack, coded]; decide, fun restored => ?_⟩
  have inverse := restoreLimited_execute framingCodecs_roundTrip true
    (some (loneAndPair 6554).length) maxDecompressed (loneAndPair 6554) (by decide) run
  have cap : min (loneAndPair 6554).length maxDecompressed = (loneAndPair 6554).length := by
    rw [original]
    decide
  rw [keepLen_true, Option.elim_some, cap] at inverse
  obtain ⟨-, -, fit⟩ := inverse.mp restored
  have tooLong := fit.within (rleApply (loneAndPair 6554)) (List.mem_singleton.mpr rfl)
  rw [slack, coded] at tooLong
  omega

end Syntra

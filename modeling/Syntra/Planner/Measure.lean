import Syntra.Lib.Ranking
import Syntra.Planner.Best

/-!
# The analysis

`measure_all` ranks the candidates of an input without compressing it: the
shortest first, what failed last.
-/

set_option autoImplicit false

namespace Syntra

open Fallible

structure Measurement where
  label : String
  codec : Codec
  level : Int
  transforms : String
  usedDictionary : Bool
  outputSize : Nat
  savingsPct : F64
  error : Option String
  deriving Repr, DecidableEq

/-- The comparison `measure_all` sorts by. -/
def Measurement.le (left right : Measurement) : Bool :=
  match left.error.isSome, right.error.isSome with
  | false, true => true
  | true, false => false
  | _, _ => left.outputSize ≤ right.outputSize

variable (C : Codecs) (F : Floats) (savings : (part whole : Nat) → F64)

def measurementOf (probe : Bytes) (dict : Option Bytes) (plan : Plan) : Measurement :=
  let made (outputSize : Nat) (savingsPct : F64) (error : Option String) : Measurement :=
    { label := plan.label, codec := plan.codec, level := plan.level
      transforms := chainLabel plan.transforms, usedDictionary := plan.useDictionary
      outputSize, savingsPct, error }
  match execute C probe plan dict with
  | .ok (out, _) =>
    made out.length (if probe.isEmpty then 0 else savings out.length probe.length) none
  | .error e => made 0 0 (some e.text)

/-- `savings` is the percentage that `measure_all` computes in floating point. -/
def measureAll (data : Bytes) (profile : ContentProfile) (effort : Effort) (dict : Option Bytes)
    (limits : Limits) : List Measurement :=
  let dictAvailable := (dict.map (fun d => !d.isEmpty)).getD false
  let plans := candidates F profile effort dictAvailable
  let probe := probeSlice data (min limits.probeSample limits.probeThreshold)
  (plans.map (measurementOf C savings probe dict)).mergeSort Measurement.le

/-! ## The order -/

theorem Measurement.le_iff (a b : Measurement) :
    a.le b = true ↔ (b.error = none → a.error = none) ∧
      ((a.error = none ↔ b.error = none) → a.outputSize ≤ b.outputSize) := by
  unfold Measurement.le
  cases a.error <;> cases b.error <;> simp

theorem Measurement.le_trans (a b c : Measurement) (ab : a.le b) (bc : b.le c) : a.le c := by
  rw [le_iff] at ab bc ⊢
  refine ⟨fun ok => ab.1 (bc.1 ok), fun same => ?_⟩
  have left : a.error = none ↔ b.error = none := ⟨fun ok => bc.1 (same.mp ok), ab.1⟩
  exact (ab.2 left).trans (bc.2 (left.symm.trans same))

theorem Measurement.le_total (a b : Measurement) : a.le b || b.le a := by
  unfold Measurement.le
  cases a.error <;> cases b.error <;> simp [Nat.le_total]

/-- Failures come last, and what did not fail comes in order of size. -/
def Ranked (measurements : List Measurement) : Prop :=
  measurements.Pairwise fun earlier later =>
    (later.error = none → earlier.error = none) ∧
      (earlier.error = none → later.error = none → earlier.outputSize ≤ later.outputSize)

theorem measureAll_ranked (data : Bytes) (profile : ContentProfile) (effort : Effort)
    (dict : Option Bytes) (limits : Limits) :
    Ranked (measureAll C F savings data profile effort dict limits) := by
  apply (List.pairwise_mergeSort Measurement.le_trans Measurement.le_total _).imp
  intro earlier later inOrder
  obtain ⟨failures, sizes⟩ := (Measurement.le_iff earlier later).mp inOrder
  exact ⟨failures, fun first second => sizes (iff_of_true first second)⟩

/-! ## Measurements and candidates -/

theorem measurementOf_of_ok {probe : Bytes} {dict : Option Bytes} {plan : Plan}
    {made : Bytes × List TransformStep} (ran : execute C probe plan dict = .ok made) :
    (measurementOf C savings probe dict plan).error = none ∧
      (measurementOf C savings probe dict plan).outputSize = made.1.length := by
  unfold measurementOf
  rw [ran]
  exact ⟨rfl, rfl⟩

theorem measurementOf_of_error {probe : Bytes} {dict : Option Bytes} {plan : Plan} {e : IoError}
    (ran : execute C probe plan dict = .error e) :
    (measurementOf C savings probe dict plan).error ≠ none := by
  unfold measurementOf
  rw [ran]
  exact Option.some_ne_none _

theorem measurementOf_label (probe : Bytes) (dict : Option Bytes) (plan : Plan) :
    (measurementOf C savings probe dict plan).label = plan.label := by
  unfold measurementOf
  cases execute C probe plan dict <;> rfl

theorem ranking_head {probe : Bytes} {plans : List Plan} {dict : Option Bytes}
    {best : Measured} {len : Nat} (found : bestOf (measure C probe plans dict) = some (best, len)) :
    ∃ rest, (plans.map (measurementOf C savings probe dict)).mergeSort Measurement.le =
      measurementOf C savings probe dict best.plan :: rest := by
  obtain ⟨before, after, all, first⟩ := bestOf_eq_some found
  obtain ⟨earlier, others, rfl, rfl, split⟩ := List.map_eq_append_iff.mp all
  obtain ⟨winner, later, rfl, rfl, rfl⟩ := List.map_eq_cons_iff.mp split
  have own := first.own
  rw [len_measured] at own
  cases ran : execute C probe winner dict with
  | error e =>
      rw [ran] at own
      cases own
  | ok made =>
      rw [ran] at own
      obtain rfl : made.1.length = len := Option.some.inj own
      obtain ⟨ok, size⟩ := measurementOf_of_ok C savings ran
      rw [List.map_append, List.map_cons]
      apply Ranking.mergeSort_head Measurement.le_trans Measurement.le_total
      · intro other member
        obtain ⟨plan, listed, rfl⟩ := List.mem_map.mp member
        rw [← Bool.not_eq_true, Measurement.le_iff]
        rintro ⟨failures, sizes⟩
        cases loser : execute C probe plan dict with
        | error e => exact measurementOf_of_error C savings loser (failures ok)
        | ok longer =>
            obtain ⟨okToo, otherSize⟩ := measurementOf_of_ok C savings loser
            have shorter := first.before _ (List.mem_map.mpr ⟨plan, listed, rfl⟩) longer.1.length
              (by rw [len_measured, loser]; rfl)
            have wrong := sizes (iff_of_true okToo ok)
            omega
      · intro other member
        obtain ⟨plan, listed, rfl⟩ := List.mem_map.mp member
        rw [Measurement.le_iff]
        refine ⟨fun _ => ok, fun same => ?_⟩
        cases loser : execute C probe plan dict with
        | error e => exact absurd (same.mp ok) (measurementOf_of_error C savings loser)
        | ok longer =>
            obtain ⟨-, otherSize⟩ := measurementOf_of_ok C savings loser
            have least := first.after _ (List.mem_map.mpr ⟨plan, listed, rfl⟩) longer.1.length
              (by rw [len_measured, loser]; rfl)
            omega

theorem chainLabel_applyChain {data out : Bytes} {steps recorded : List TransformStep}
    (success : applyChain data steps = .ok (out, recorded)) :
    recorded.map stepLabel = steps.map stepLabel := by
  induction steps generalizing data recorded with
  | nil =>
      cases success
      rfl
  | cons s steps ih =>
      obtain ⟨staged, tail, -, rest, rfl⟩ := applyChain_cons_eq_ok.mp success
      rw [List.map_cons, List.map_cons, ih rest]
      rfl

theorem label_execute {data payload : Bytes} {plan : Plan} {dict : Option Bytes}
    {steps : List TransformStep} (ran : execute C data plan dict = .ok (payload, steps)) :
    Plan.label { plan with transforms := steps } = plan.label := by
  obtain ⟨staged, chain, -⟩ := (execute_eq_ok C).mp ran
  have labels := chainLabel_applyChain chain
  have empty : steps.isEmpty = plan.transforms.isEmpty := by
    rw [← List.isEmpty_map (f := stepLabel), labels, List.isEmpty_map]
  simp only [Plan.label, chainLabel, empty, labels]

/-! ## What is analysed is what is done -/

theorem probeSlice_of_le {data : Bytes} {budget : Nat} (small : data.length ≤ budget) :
    probeSlice data budget = data := if_pos small

/-- Where an input fits into both probes, the head of the analysis has the size that
`compress_best` gives and the name of the plan that it takes. -/
theorem measureAll_predicts (C : Codecs) (F : Floats) (savings : (part whole : Nat) → F64)
    (data : Bytes) (profile : ContentProfile) (effort : Effort) (dict : Option Bytes)
    (limits : Limits) (small : data.length ≤ min limits.probeSample limits.probeThreshold)
    (forced : ForcedPlan) (free : forced.codec = none) (allowed : forced.useDictionary = none) :
    ∃ planned first rest,
      compressBest C F data profile effort dict forced limits = .ok planned ∧
      measureAll C F savings data profile effort dict limits = first :: rest ∧
      first.error = none ∧ first.outputSize = planned.payload.length ∧
      (planned.payload.length < data.length → first.label = planned.plan.label) ∧
      Ranked (first :: rest) := by
  have ranked := measureAll_ranked C F savings data profile effort dict limits
  have available : (dict.map (fun d => !d.isEmpty)).getD false = dictAvailable dict forced := by
    rw [dictAvailable, allowed]
    simp
  obtain ⟨stored, offered, isStored⟩ :=
    stored_candidate (F := F) profile effort (dictAvailable dict forced)
  unfold measureAll at ranked ⊢
  rw [available, probeSlice_of_le small] at ranked ⊢
  dsimp only at ranked ⊢
  generalize every : candidates F profile effort (dictAvailable dict forced) = plans at *
  -- the stored candidate never fails, so there is a best one
  obtain ⟨⟨best, len⟩, found⟩ : ∃ winner, bestOf (measure C data plans dict) = some winner := by
    cases found : bestOf (measure C data plans dict) with
    | some winner => exact ⟨winner, rfl⟩
    | none =>
        have failed := bestOf_eq_none.mp found _ (List.mem_map.mpr ⟨stored, offered, rfl⟩)
        rw [len_measured, execute_stored isStored] at failed
        cases failed
  obtain ⟨rest, head⟩ := ranking_head C savings found
  obtain ⟨member, own⟩ := mem_of_bestOf found
  obtain ⟨winner, listed, rfl⟩ := List.mem_map.mp member
  rw [len_measured] at own
  cases ran : execute C data winner dict with
  | error e =>
      rw [ran] at own
      cases own
  | ok made =>
      obtain ⟨payload, steps⟩ := made
      obtain ⟨ok, size⟩ := measurementOf_of_ok C savings ran
      rw [head] at ranked ⊢
      -- the stored candidate is as long as the data
      have short := (least_of_bestOf found ran).2 stored offered data []
        (execute_stored isStored data dict)
      by_cases filled : data = []
      · subst filled
        refine ⟨storedPlanned [] 0 false "entrada vazia", _, rest, ?_, rfl, ok, ?_, ?_, ranked⟩
        · rw [compressBest, free]
          rfl
        · rw [size]
          exact Nat.le_zero.mp short
        · intro shorter
          exact absurd shorter (Nat.not_lt_zero _)
      · have whole : isSampled data plans limits = false := by
          have within : ¬ limits.probeThreshold < data.length := by omega
          simp [isSampled, within]
        have result : compressBest C F data profile effort dict forced limits =
            .ok (concluded F data profile plans limits { winner with transforms := steps }
              payload) := by
          rw [compressBest_free C F filled free]
          dsimp only
          rw [every, probeOf, whole, if_neg Bool.false_ne_true, found]
          dsimp only
          rw [ran]
          rfl
        refine ⟨_, _, rest, result, rfl, ok, ?_, ?_, ranked⟩
        · rw [size, concluded_payload]
          split <;> dsimp only
          omega
        · intro shorter
          rw [concluded_payload] at shorter
          have shrinks : ¬ data.length ≤ payload.length := by
            intro longer
            rw [if_pos longer] at shorter
            omega
          rw [measurementOf_label, concluded, if_neg shrinks]
          exact (label_execute C ran).symm

/-- The analysis of eight zero bytes names the run-length plan and its three bytes. -/
theorem measureAll_predicts_zeros :
    ∃ first rest, measureAll framingCodecs lowFloats (fun _ _ => 0) (List.replicate 8 0)
        zeroProfile .balanced none zeroLimits = first :: rest ∧
      first.outputSize = 3 ∧ first.label = "rle+zstd:12" := by
  have run : compressBest framingCodecs lowFloats (List.replicate 8 0) zeroProfile .balanced none
      freePlan zeroLimits = .ok zeroPlanned := by decide +kernel
  obtain ⟨planned, first, rest, made, analysed, -, size, label, -⟩ :=
    measureAll_predicts framingCodecs lowFloats (fun _ _ => 0) (List.replicate 8 0) zeroProfile
      .balanced none zeroLimits (by decide) freePlan rfl rfl
  rw [run] at made
  cases made
  refine ⟨first, rest, analysed, size, ?_⟩
  rw [label (by decide)]
  decide +kernel

end Syntra

import Syntra.Planner.Plan

/-!
# Choosing a plan

The candidates for a content class, measured on a sample where the input is
large; the shortest result wins unless it does not shrink the input.
-/

set_option autoImplicit false

namespace Syntra

open Fallible

/-- The plans a class calls for, before `candidates` cuts them to the effort. -/
def plansFor (F : Floats) (profile : ContentProfile) (effort : Effort) (dictAvailable : Bool) :
    List Plan :=
  let stride := profile.stride.getD 4
  let veryLowEntropy := F.entropyBelow2 profile.entropy
  match profile.contentClass with
    | .incompressible => [.stored]
    | .media | .preCompressed =>
      .stored :: (if effort = .max then [.new .zstd 19, .new .xz 6] else [])
    | .tabular =>
      let cols : List (Transform × Nat) := [(.csvColumnar, 1)]
      let colsDelta : List (Transform × Nat) := [(.csvColumnar, 1), (.delta, 1)]
      match effort with
      | .fast => [.new .zstd 3]
      | .balanced =>
        [.new .zstd 12, (Plan.new .zstd 12).withSteps cols, (Plan.new .brotli 9).withSteps cols] ++
          (if dictAvailable then [(Plan.new .zstd 12).dict] else [])
      | .max =>
        [.new .zstd 19, (Plan.new .zstd 19).withSteps cols, (Plan.new .zstd 22).withSteps cols,
         (Plan.new .brotli 11).withSteps cols, (Plan.new .xz 6).withSteps cols,
         (Plan.new .zstd 19).withSteps colsDelta, (Plan.new .bzip2 9).withSteps cols] ++
          (if dictAvailable then
            [(Plan.new .zstd 19).dict, ((Plan.new .zstd 19).withSteps cols).dict] else [])
    | .structuredText | .plainText =>
      match effort with
      | .fast => [.new .zstd 3]
      | .balanced =>
        [.new .zstd 12, .new .brotli 9] ++
          (if dictAvailable then [(Plan.new .zstd 12).dict] else [])
      | .max =>
        [.new .zstd 19, .new .zstd 22, .new .brotli 11, .new .xz 6, .new .bzip2 9] ++
          (if dictAvailable then [(Plan.new .zstd 19).dict] else []) ++
          (if veryLowEntropy then [(Plan.new .zstd 19).withSteps [(.rle, 1)]] else [])
    | .numericBinary =>
      let split : List (Transform × Nat) := [(.byteSplit, stride)]
      let delta : List (Transform × Nat) := [(.delta, stride)]
      let deltaSplit : List (Transform × Nat) := [(.delta, stride), (.byteSplit, stride)]
      match effort with
      | .fast => [(Plan.new .zstd 3).withSteps split]
      | .balanced =>
        [.new .zstd 12, (Plan.new .zstd 12).withSteps split, (Plan.new .zstd 12).withSteps delta,
         (Plan.new .zstd 12).withSteps deltaSplit]
      | .max =>
        [.new .zstd 19, (Plan.new .zstd 19).withSteps split, (Plan.new .zstd 19).withSteps delta,
         (Plan.new .zstd 19).withSteps deltaSplit, (Plan.new .xz 6).withSteps split,
         (Plan.new .xz 6).withSteps deltaSplit, (Plan.new .brotli 11).withSteps split] ++
          (([2, 4, 8].filter (· ≠ stride)).map fun w =>
            (Plan.new .zstd 19).withSteps [(.byteSplit, w)])
    | .binary =>
      match effort with
      | .fast => [.new .lz4 0]
      | .balanced =>
        [.new .zstd 12, (Plan.new .zstd 12).withSteps [(.byteSplit, 4)]] ++
          (if veryLowEntropy then [(Plan.new .zstd 12).withSteps [(.rle, 1)]] else [])
      | .max =>
        [.new .zstd 19, .new .xz 6, .new .brotli 11, .new .bzip2 9,
         (Plan.new .zstd 19).withSteps [(.byteSplit, 4)],
         (Plan.new .zstd 19).withSteps [(.delta, 4)]] ++
          (if veryLowEntropy then
            [(Plan.new .zstd 19).withSteps [(.rle, 1)], (Plan.new .xz 6).withSteps [(.rle, 1)]]
          else []) ++
          (if dictAvailable then [(Plan.new .zstd 19).dict] else [])

def candidates (F : Floats) (profile : ContentProfile) (effort : Effort) (dictAvailable : Bool) :
    List Plan :=
  let plans := (plansFor F profile effort dictAvailable).take effort.candidateBudget
  if plans.any Plan.isStored then plans else plans ++ [.stored]

/-- The middle of the input, from a multiple of eight. -/
def probeSlice (data : Bytes) (budget : Nat) : Bytes :=
  if data.length ≤ budget then data
  else (data.drop ((data.length - budget) / 2 / 8 * 8)).take budget

structure Measured where
  plan : Plan
  outcome : Option (Bytes × List TransformStep)

def Measured.len (measured : Measured) : Option Nat := measured.outcome.map (·.1.length)

/-- The first candidate of least length. -/
def bestOf (measured : List Measured) : Option (Measured × Nat) :=
  measured.foldl (fun best candidate =>
    match candidate.len with
    | none => best
    | some len =>
      match best with
      | none => some (candidate, len)
      | some (_, least) => if len < least then some (candidate, len) else best) none

def storedPlanned (data : Bytes) (candidatesTried : Nat) (sampledDecision : Bool)
    (reason : String) : Planned :=
  { plan := .stored, payload := data, candidatesTried, sampledDecision, reason }

variable (C : Codecs) (F : Floats)

def forcedPlan (forced : ForcedPlan) (codecId : Codec) : Plan :=
  let level := forced.level.getD codecId.defaultLevel
  let plan := Plan.new codecId level
  if forced.useDictionary.getD false then plan.dict else plan

def compressForced (data : Bytes) (dict : Option Bytes) (forced : ForcedPlan) (codecId : Codec) :
    Except IoError Planned := do
  let (payload, steps) ← execute C data (forcedPlan forced codecId) dict
  let plan := { forcedPlan forced codecId with transforms := steps }
  if data.length ≤ payload.length && !plan.isStored then
    .ok (storedPlanned data 1 false
      s!"codec {codecId.name} imposto pelo cliente não reduziu ({data.length} -> {payload.length} bytes); gravado sem compressão")
  else
    .ok { plan, payload, candidatesTried := 1, sampledDecision := false
          reason := s!"plano imposto pelo cliente: {plan.label}" }

def outputOf (data : Bytes) (dict : Option Bytes) (keepOutputs : Bool) (best : Measured) :
    Except IoError (Bytes × List TransformStep) :=
  match best.outcome with
  | some kept => if keepOutputs then .ok kept else execute C data best.plan dict
  | none => execute C data best.plan dict

def winnerReason (profile : ContentProfile) (sampled : Bool) (tried probeLen size : Nat)
    (plan : Plan) : String :=
  if sampled then
    s!"{tried} candidatos medidos em amostra de {probeLen} bytes ({F.percent probeLen size}% do arquivo); vencedor {plan.label}"
  else
    s!"{tried} candidatos medidos no conteúdo integral; vencedor {plan.label} sobre classe {profile.contentClass.asStr}"

def compressBest (data : Bytes) (profile : ContentProfile) (effort : Effort)
    (dict : Option Bytes) (forced : ForcedPlan) (limits : Limits) : Except IoError Planned :=
  match forced.codec with
  | some codecId => compressForced C data dict forced codecId
  | none =>
    if data.isEmpty then .ok (storedPlanned [] 0 false "entrada vazia")
    else
      let dictAvailable := (dict.map (fun d => !d.isEmpty)).getD false &&
        forced.useDictionary ≠ some false
      let plans := candidates F profile effort dictAvailable
      let sampled := limits.probeThreshold < data.length && 1 < plans.length
      let probe := if sampled then probeSlice data limits.probeSample else data
      let keepOutputs := !sampled && probe.length ≤ limits.keepOutputMax
      let measured := plans.map fun plan =>
        { plan, outcome := (execute C probe plan dict).toOption : Measured }
      let tried := plans.length
      match bestOf measured with
      | none =>
        .ok (storedPlanned data tried sampled
          "nenhum candidato aplicável; gravado sem compressão")
      | some (best, _) => do
        let (payload, steps) ← outputOf C data dict keepOutputs best
        let plan := { best.plan with transforms := steps }
        if data.length ≤ payload.length then
          .ok (storedPlanned data tried sampled
            s!"melhor de {tried} candidatos não reduziu ({data.length} bytes); gravado sem compressão")
        else
          .ok { plan, payload, candidatesTried := tried, sampledDecision := sampled
                reason := winnerReason F profile sampled tried probe.length data.length plan }

theorem compressBest_stored (data : Bytes) (profile : ContentProfile) (effort : Effort)
    (dict : Option Bytes) (forced : ForcedPlan) (limits : Limits)
    (imposed : forced.codec = some .stored) :
    compressBest C F data profile effort dict forced limits =
      .ok { plan := forcedPlan forced .stored, payload := data, candidatesTried := 1
            sampledDecision := false
            reason := s!"plano imposto pelo cliente: {(forcedPlan forced .stored).label}" } := by
  have plan : (forcedPlan forced .stored).transforms = [] := by
    unfold forcedPlan
    split <;> rfl
  have codec : (forcedPlan forced .stored).codec = .stored := by
    unfold forcedPlan
    split <;> rfl
  have same : { forcedPlan forced .stored with transforms := [] } = forcedPlan forced .stored := by
    rw [← plan]
  rw [compressBest, imposed]
  dsimp only
  rw [compressForced, execute, plan, codec]
  simp only [List.isEmpty_nil, if_true, encode, ok_bind]
  rw [same]
  simp [Plan.isStored, plan, codec]

/-! ## Every result is a plan executed -/

theorem plansFor_short (profile : ContentProfile) (effort : Effort) (dictAvailable : Bool) :
    ∀ plan ∈ plansFor F profile effort dictAvailable, plan.transforms.length ≤ 2 := by
  unfold plansFor
  cases profile.contentClass <;> cases effort <;> cases dictAvailable <;>
    cases F.entropyBelow2 profile.entropy <;>
    simp [Plan.new, Plan.stored, Plan.dict, Plan.withSteps]
  -- the strides other than the profile's own
  all_goals
    intro plan
    refine ⟨?_, ?_, ?_⟩ <;>
    · rintro - rfl
      decide

theorem candidates_short (profile : ContentProfile) (effort : Effort) (dictAvailable : Bool)
    (plan : Plan) (member : plan ∈ candidates F profile effort dictAvailable) :
    plan.transforms.length ≤ 2 := by
  have short : ∀ taken ∈ (plansFor F profile effort dictAvailable).take effort.candidateBudget,
      taken.transforms.length ≤ 2 := fun taken inTake =>
    plansFor_short F profile effort dictAvailable taken (List.mem_of_mem_take inTake)
  simp only [candidates] at member
  split at member
  · exact short plan member
  · rcases List.mem_append.mp member with taken | stored
    · exact short plan taken
    · rw [List.mem_singleton.mp stored]
      decide

/-- A plan of at most two steps whose execution is the payload; of none for an empty input. -/
def Executed (data : Bytes) (dict : Option Bytes) (planned : Planned) : Prop :=
  ∃ plan : Plan, plan.transforms.length ≤ 2 ∧ (data = [] → plan.transforms = []) ∧
    execute C data plan dict = .ok (planned.payload, planned.plan.transforms) ∧
    planned.plan.codec = plan.codec ∧ planned.plan.useDictionary = plan.useDictionary

theorem executed_stored (data : Bytes) (dict : Option Bytes) (tried : Nat) (sampled : Bool)
    (reason : String) : Executed C data dict (storedPlanned data tried sampled reason) :=
  ⟨.stored, by decide, fun _ => rfl, rfl, rfl, rfl⟩

theorem executed_compressForced {data : Bytes} {dict : Option Bytes} {forced : ForcedPlan}
    {codecId : Codec} {planned : Planned}
    (run : compressForced C data dict forced codecId = .ok planned) :
    Executed C data dict planned := by
  have none_of : (forcedPlan forced codecId).transforms = [] := by
    unfold forcedPlan
    split <;> rfl
  simp only [compressForced, bind_eq_ok, Prod.exists] at run
  obtain ⟨payload, steps, ran, chosen⟩ := run
  generalize forcedPlan forced codecId = plan at none_of ran chosen
  split at chosen
  · cases chosen
    exact executed_stored C data dict _ _ _
  · cases chosen
    exact ⟨plan, by rw [none_of]; exact Nat.zero_le 2, fun _ => none_of, ran, rfl, rfl⟩

theorem mem_of_bestOf {measured : List Measured} {best : Measured} {len : Nat}
    (found : bestOf measured = some (best, len)) : best ∈ measured ∧ best.len = some len := by
  have all : ∀ (rest : List Measured) (start : Option (Measured × Nat)),
      (∀ chosen, start = some chosen → chosen.1 ∈ measured ∧ chosen.1.len = some chosen.2) →
      (∀ candidate ∈ rest, candidate ∈ measured) →
      ∀ chosen, rest.foldl (fun best candidate =>
        match candidate.len with
        | none => best
        | some len =>
          match best with
          | none => some (candidate, len)
          | some (_, least) => if len < least then some (candidate, len) else best) start =
          some chosen → chosen.1 ∈ measured ∧ chosen.1.len = some chosen.2 := by
    intro rest
    induction rest with
    | nil => exact fun start held _ chosen same => held chosen same
    | cons candidate rest ih =>
        intro start held members chosen same
        refine ih _ ?_ (fun other member => members other (by simp [member])) chosen same
        intro after step
        cases size : candidate.len with
        | none =>
            simp only [size] at step
            exact held after step
        | some candidateLen =>
            simp only [size] at step
            have here := members candidate (by simp)
            split at step
            · cases step
              exact ⟨here, size⟩
            · split at step
              · cases step
                exact ⟨here, size⟩
              · exact held after step
  exact all measured none (by simp) (fun _ member => member) _ found

theorem outputOf_eq (data : Bytes) (dict : Option Bytes) (sampled : Bool) (probe : Bytes)
    (whole : sampled = false → probe = data) (keepMax : Nat) (plan : Plan) :
    outputOf C data dict (!sampled && probe.length ≤ keepMax)
      { plan, outcome := (execute C probe plan dict).toOption } = execute C data plan dict := by
  unfold outputOf
  cases kept : (execute C probe plan dict).toOption with
  | none => rfl
  | some out =>
      dsimp only
      cases sampled with
      | true => rfl
      | false =>
          rw [whole rfl] at kept
          split
          · cases outcome : execute C data plan dict with
            | error e => simp [outcome, Except.toOption] at kept
            | ok found =>
                rw [outcome] at kept
                exact congrArg Except.ok (Option.some.inj kept).symm
          · rfl

theorem executed_compressBest {data : Bytes} {profile : ContentProfile} {effort : Effort}
    {dict : Option Bytes} {forced : ForcedPlan} {limits : Limits} {planned : Planned}
    (run : compressBest C F data profile effort dict forced limits = .ok planned) :
    Executed C data dict planned := by
  unfold compressBest at run
  cases imposed : forced.codec with
  | some codecId =>
      rw [imposed] at run
      exact executed_compressForced C run
  | none =>
      rw [imposed] at run
      dsimp only at run
      split at run
      · rename_i empty
        cases run
        rw [List.isEmpty_iff.mp empty]
        exact executed_stored C [] dict _ _ _
      · rename_i filled
        have nonempty : data ≠ [] := fun empty => filled (List.isEmpty_iff.mpr empty)
        generalize candidatesFound : candidates F profile effort _ = plans at run
        generalize sampledFound : (limits.probeThreshold < data.length && 1 < plans.length : Bool) =
          sampled at run
        split at run
        · cases run
          exact executed_stored C data dict _ _ _
        · rename_i best len found
          obtain ⟨member, -⟩ := mem_of_bestOf found
          obtain ⟨plan, inPlans, rfl⟩ := List.mem_map.mp member
          have short : plan.transforms.length ≤ 2 :=
            candidates_short F profile effort _ plan (candidatesFound ▸ inPlans)
          rw [outputOf_eq C data dict sampled _ (fun whole => by simp [whole])] at run
          simp only [bind_eq_ok, Prod.exists] at run
          obtain ⟨payload, steps, ran, chosen⟩ := run
          split at chosen
          · cases chosen
            exact executed_stored C data dict _ _ _
          · cases chosen
            exact ⟨plan, short, fun empty => absurd empty nonempty, ran, rfl, rfl⟩

end Syntra

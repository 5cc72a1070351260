import Syntra.FramingPlatform
import Syntra.Planner.Choose

/-!
# The best candidate

What `compress_best` concludes from the measured candidates does not depend on
whether their outputs were kept, and without a sample nothing beats it.
-/

set_option autoImplicit false

namespace Syntra

open Fallible

/-! ## The first candidate of least length -/

theorem bestOf_concat (measured : List Measured) (candidate : Measured) :
    bestOf (measured ++ [candidate]) =
      match candidate.len with
      | none => bestOf measured
      | some len =>
        match bestOf measured with
        | none => some (candidate, len)
        | some (best, least) => if len < least then some (candidate, len) else some (best, least) := by
  unfold bestOf
  rw [List.foldl_append, List.foldl_cons, List.foldl_nil]
  generalize List.foldl _ none measured = best
  cases candidate.len with
  | none => rfl
  | some len => cases best <;> rfl

theorem bestOf_eq_none {measured : List Measured} :
    bestOf measured = none ↔ ∀ candidate ∈ measured, candidate.len = none := by
  induction measured using List.reverseRecOn with
  | nil => simp [bestOf]
  | append_singleton measured last ih =>
      rw [bestOf_concat]
      cases size : last.len with
      | none => simp [ih, or_imp, forall_and, size]
      | some len =>
          constructor
          · intro nothing
            dsimp only at nothing
            split at nothing
            · cases nothing
            · split at nothing <;> cases nothing
          · intro all
            rw [all last (by simp)] at size
            cases size

/-- Nothing before the best is as short, and nothing after it is shorter. -/
structure FirstLeast (before : List Measured) (best : Measured) (len : Nat)
    (after : List Measured) : Prop where
  own : best.len = some len
  before : ∀ candidate ∈ before, ∀ other, candidate.len = some other → len < other
  after : ∀ candidate ∈ after, ∀ other, candidate.len = some other → len ≤ other

theorem bestOf_eq_some {measured : List Measured} {best : Measured} {len : Nat}
    (found : bestOf measured = some (best, len)) :
    ∃ before after, measured = before ++ best :: after ∧ FirstLeast before best len after := by
  induction measured using List.reverseRecOn generalizing best len with
  | nil => simp [bestOf] at found
  | append_singleton measured last ih =>
      rw [bestOf_concat] at found
      -- the last candidate loses
      have kept : ∀ least, bestOf measured = some (best, least) → least = len →
          (∀ other, last.len = some other → least ≤ other) →
          ∃ before after, measured ++ [last] = before ++ best :: after ∧
            FirstLeast before best len after := by
        rintro least earlier rfl loses
        obtain ⟨before, after, rfl, first⟩ := ih earlier
        refine ⟨before, after ++ [last], by simp, first.own, first.before, ?_⟩
        intro candidate member other size
        rcases List.mem_append.mp member with listed | final
        · exact first.after candidate listed other size
        · rw [List.mem_singleton.mp final] at size
          exact loses other size
      cases size : last.len with
      | none =>
          rw [size] at found
          exact kept len found rfl (by simp [size])
      | some lastLen =>
          rw [size] at found
          dsimp only at found
          cases earlier : bestOf measured with
          | none =>
              rw [earlier] at found
              cases found
              refine ⟨measured, [], by simp, size, ?_, by simp⟩
              intro candidate member other known
              rw [bestOf_eq_none.mp earlier candidate member] at known
              cases known
          | some winner =>
              obtain ⟨previous, least⟩ := winner
              rw [earlier] at found
              dsimp only at found
              split at found
              · rename_i shorter
                cases found
                refine ⟨measured, [], by simp, size, ?_, by simp⟩
                obtain ⟨before, after, rfl, first⟩ := ih earlier
                intro candidate member other known
                rcases List.mem_append.mp member with listed | rest
                · exact shorter.trans (first.before candidate listed other known)
                · rcases List.mem_cons.mp rest with rfl | listed
                  · rw [first.own] at known
                    cases known
                    exact shorter
                  · exact shorter.trans_le (first.after candidate listed other known)
              · rename_i longer
                cases found
                refine kept len earlier rfl fun other known => ?_
                rw [size] at known
                cases known
                exact Nat.le_of_not_lt longer

/-! ## What is concluded -/

variable (C : Codecs) (F : Floats)

def dictAvailable (dict : Option Bytes) (forced : ForcedPlan) : Bool :=
  (dict.map (fun d => !d.isEmpty)).getD false && forced.useDictionary ≠ some false

def isSampled (data : Bytes) (plans : List Plan) (limits : Limits) : Bool :=
  limits.probeThreshold < data.length && 1 < plans.length

def probeOf (data : Bytes) (plans : List Plan) (limits : Limits) : Bytes :=
  if isSampled data plans limits then probeSlice data limits.probeSample else data

def measure (probe : Bytes) (plans : List Plan) (dict : Option Bytes) : List Measured :=
  plans.map fun plan => { plan, outcome := (execute C probe plan dict).toOption }

def concluded (data : Bytes) (profile : ContentProfile) (plans : List Plan) (limits : Limits)
    (plan : Plan) (payload : Bytes) : Planned :=
  let sampled := isSampled data plans limits
  let tried := plans.length
  if data.length ≤ payload.length then
    storedPlanned data tried sampled
      s!"melhor de {tried} candidatos não reduziu ({data.length} bytes); gravado sem compressão"
  else
    { plan, payload, candidatesTried := tried, sampledDecision := sampled
      reason := winnerReason F profile sampled tried (probeOf data plans limits).length
        data.length plan }

/-- The winner is executed on the whole input, or its output is what that would give. -/
theorem compressBest_free {data : Bytes} (filled : data ≠ []) {forced : ForcedPlan}
    (free : forced.codec = none) (profile : ContentProfile) (effort : Effort)
    (dict : Option Bytes) (limits : Limits) :
    compressBest C F data profile effort dict forced limits =
      let plans := candidates F profile effort (dictAvailable dict forced)
      match bestOf (measure C (probeOf data plans limits) plans dict) with
      | none =>
        .ok (storedPlanned data plans.length (isSampled data plans limits)
          "nenhum candidato aplicável; gravado sem compressão")
      | some (best, _) =>
        (execute C data best.plan dict).map fun (payload, steps) =>
          concluded F data profile plans limits { best.plan with transforms := steps } payload := by
  have nonempty : data.isEmpty = false := by
    cases data with
    | nil => exact absurd rfl filled
    | cons byte rest => rfl
  unfold compressBest
  rw [free]
  dsimp only
  rw [nonempty, if_neg Bool.false_ne_true]
  rw [show ((dict.map (fun d => !d.isEmpty)).getD false && forced.useDictionary ≠ some false) =
    dictAvailable dict forced from rfl]
  generalize candidates F profile effort (dictAvailable dict forced) = plans
  rw [show (limits.probeThreshold < data.length && 1 < plans.length : Bool) =
    isSampled data plans limits from rfl]
  rw [show (if isSampled data plans limits then probeSlice data limits.probeSample else data) =
    probeOf data plans limits from rfl]
  rw [show (plans.map fun plan =>
      ({ plan, outcome := (execute C (probeOf data plans limits) plan dict).toOption } : Measured)) =
    measure C (probeOf data plans limits) plans dict from rfl]
  cases found : bestOf (measure C (probeOf data plans limits) plans dict) with
  | none => rfl
  | some winner =>
      obtain ⟨best, len⟩ := winner
      obtain ⟨plan, -, rfl⟩ := List.mem_map.mp (mem_of_bestOf found).1
      have whole : isSampled data plans limits = false → probeOf data plans limits = data := by
        intro notSampled
        rw [probeOf, notSampled, if_neg Bool.false_ne_true]
      dsimp only
      rw [outputOf_eq C data dict _ _ whole]
      cases execute C data plan dict with
      | error e => rfl
      | ok made =>
          obtain ⟨payload, steps⟩ := made
          simp only [ok_bind, Except.map, concluded]
          split <;> rfl

/-! ## Nothing beats it -/

variable {C F}

theorem execute_stored {plan : Plan} (stored : plan.isStored = true) (data : Bytes)
    (dict : Option Bytes) : execute C data plan dict = .ok (data, []) := by
  obtain ⟨codec, plain⟩ : plan.codec = .stored ∧ plan.transforms = [] := by
    simpa [Plan.isStored] using stored
  simp [execute, codec, plain, encode]

theorem isStored_of_recorded {data payload : Bytes} {plan : Plan} {dict : Option Bytes}
    {steps : List TransformStep} (ran : execute C data plan dict = .ok (payload, steps))
    (stored : Plan.isStored { plan with transforms := steps } = true) : payload = data := by
  obtain ⟨codec, plain⟩ : plan.codec = .stored ∧ steps = [] := by
    simpa [Plan.isStored] using stored
  obtain ⟨staged, chain, -⟩ := (execute_eq_ok C).mp ran
  have count := length_applyChain chain
  rw [plain] at count
  have own : plan.isStored = true := by
    rw [Plan.isStored, codec, List.eq_nil_of_length_eq_zero count.symm]
    rfl
  rw [execute_stored own] at ran
  cases ran
  rfl

theorem stored_candidate (profile : ContentProfile) (effort : Effort) (available : Bool) :
    ∃ plan ∈ candidates F profile effort available, plan.isStored = true := by
  unfold candidates
  dsimp only
  split
  · rename_i listed
    exact List.any_eq_true.mp listed
  · exact ⟨.stored, List.mem_append_right _ List.mem_cons_self, rfl⟩

theorem len_measured (probe : Bytes) (plan : Plan) (dict : Option Bytes) :
    Measured.len { plan, outcome := (execute C probe plan dict).toOption } =
      (execute C probe plan dict).toOption.map (·.1.length) := rfl

/-- The shortest execution, when the whole input was measured. -/
theorem least_of_bestOf {data payload : Bytes} {plans : List Plan} {dict : Option Bytes}
    {best : Measured} {len : Nat} {steps : List TransformStep}
    (found : bestOf (measure C data plans dict) = some (best, len))
    (ran : execute C data best.plan dict = .ok (payload, steps)) :
    best.plan ∈ plans ∧ ∀ plan ∈ plans, ∀ out recorded,
      execute C data plan dict = .ok (out, recorded) → payload.length ≤ out.length := by
  obtain ⟨before, after, all, first⟩ := bestOf_eq_some found
  obtain ⟨member, own⟩ := mem_of_bestOf found
  obtain ⟨winner, listed, rfl⟩ := List.mem_map.mp member
  rw [len_measured, ran] at own
  obtain rfl : payload.length = len := Option.some.inj own
  refine ⟨listed, fun plan inPlans out recorded made => ?_⟩
  have candidate : ({ plan, outcome := (execute C data plan dict).toOption } : Measured) ∈
      measure C data plans dict := List.mem_map.mpr ⟨plan, inPlans, rfl⟩
  have size : Measured.len { plan, outcome := (execute C data plan dict).toOption } =
      some out.length := by
    rw [len_measured, made]
    rfl
  rw [all] at candidate
  rcases List.mem_append.mp candidate with earlier | rest
  · exact (first.before _ earlier _ size).le
  · rcases List.mem_cons.mp rest with same | later
    · rw [same, first.own] at size
      exact (Option.some.inj size).le
    · exact first.after _ later _ size

theorem compressForced_length {data : Bytes} {dict : Option Bytes} {forced : ForcedPlan}
    {codecId : Codec} {planned : Planned}
    (run : compressForced C data dict forced codecId = .ok planned) :
    planned.payload.length ≤ data.length ∧ (planned.plan.isStored = true → planned.payload = data) := by
  obtain ⟨⟨payload, steps⟩, ran, chosen⟩ := bind_eq_ok.mp run
  dsimp only at chosen
  split at chosen
  · cases chosen
    exact ⟨Nat.le_refl _, fun _ => rfl⟩
  · rename_i shrinks
    cases chosen
    have unchanged := isStored_of_recorded ran
    refine ⟨?_, unchanged⟩
    by_cases stored : Plan.isStored { forcedPlan forced codecId with transforms := steps } = true
    · exact (congrArg List.length (unchanged stored)).le
    · have shorter : ¬ data.length ≤ payload.length := by simpa [stored] using shrinks
      exact (Nat.lt_of_not_le shorter).le

theorem concluded_sampled (data : Bytes) (profile : ContentProfile) (plans : List Plan)
    (limits : Limits) (plan : Plan) (payload : Bytes) :
    (concluded F data profile plans limits plan payload).sampledDecision =
      isSampled data plans limits := by
  unfold concluded
  dsimp only
  split <;> rfl

theorem concluded_payload (data : Bytes) (profile : ContentProfile) (plans : List Plan)
    (limits : Limits) (plan : Plan) (payload : Bytes) :
    (concluded F data profile plans limits plan payload).payload =
      if data.length ≤ payload.length then data else payload := by
  unfold concluded
  dsimp only
  split <;> rfl

theorem concluded_stored {data payload : Bytes} {plan : Plan} {dict : Option Bytes}
    {steps : List TransformStep} (ran : execute C data plan dict = .ok (payload, steps))
    (profile : ContentProfile) (plans : List Plan) (limits : Limits)
    (stored : (concluded F data profile plans limits { plan with transforms := steps }
      payload).plan.isStored = true) :
    (concluded F data profile plans limits { plan with transforms := steps } payload).payload =
      data := by
  by_cases kept : data.length ≤ payload.length
  · rw [concluded_payload, if_pos kept]
  · rw [concluded_payload, if_neg kept]
    rw [concluded, if_neg kept] at stored
    exact isStored_of_recorded ran stored

theorem compressBest_eq_ok {data : Bytes} (filled : data ≠ []) {forced : ForcedPlan}
    (free : forced.codec = none) {profile : ContentProfile} {effort : Effort}
    {dict : Option Bytes} {limits : Limits} {planned : Planned}
    (run : compressBest C F data profile effort dict forced limits = .ok planned) :
    let plans := candidates F profile effort (dictAvailable dict forced)
    let measured := measure C (probeOf data plans limits) plans dict
    (bestOf measured = none ∧ ∃ reason, planned =
        storedPlanned data plans.length (isSampled data plans limits) reason) ∨
      ∃ best len payload steps, bestOf measured = some (best, len) ∧
        execute C data best.plan dict = .ok (payload, steps) ∧
        planned = concluded F data profile plans limits { best.plan with transforms := steps }
          payload := by
  rw [compressBest_free C F filled free] at run
  dsimp only at run ⊢
  split at run
  · rename_i nothing
    cases run
    exact Or.inl ⟨nothing, _, rfl⟩
  · rename_i best len found
    cases ran : execute C data best.plan dict with
    | error e =>
        rw [ran] at run
        cases run
    | ok made =>
        obtain ⟨payload, steps⟩ := made
        rw [ran] at run
        cases run
        exact Or.inr ⟨best, len, payload, steps, found, ran, rfl⟩

/-- The result is never longer than the data and is the data when it is stored; unless the
plan was forced or sampled it is the shortest execution of a candidate; and keeping the
outputs makes no difference. -/
theorem compressBest_smallest (C : Codecs) (F : Floats) (data : Bytes) (profile : ContentProfile)
    (effort : Effort) (dict : Option Bytes) (forced : ForcedPlan) (limits : Limits)
    (planned : Planned)
    (run : compressBest C F data profile effort dict forced limits = .ok planned) :
    planned.payload.length ≤ data.length ∧
      (planned.plan.isStored = true → planned.payload = data) ∧
      (forced.codec = none → planned.sampledDecision = false →
        (∃ plan ∈ candidates F profile effort (dictAvailable dict forced), ∃ out steps,
          execute C data plan dict = .ok (out, steps) ∧ out.length = planned.payload.length) ∧
        ∀ plan ∈ candidates F profile effort (dictAvailable dict forced), ∀ out steps,
          execute C data plan dict = .ok (out, steps) → planned.payload.length ≤ out.length) ∧
      ∀ keepOutputMax, compressBest C F data profile effort dict forced
        { limits with keepOutputMax } = .ok planned := by
  cases free : forced.codec with
  | some codecId =>
      have imposed : ∀ limits, compressBest C F data profile effort dict forced limits =
          compressForced C data dict forced codecId := by
        intro limits
        rw [compressBest, free]
      rw [imposed] at run
      obtain ⟨bounded, unchanged⟩ := compressForced_length run
      refine ⟨bounded, unchanged, fun absent => ?_, fun keepOutputMax => ?_⟩
      · cases absent
      · rw [imposed, run]
  | none =>
      obtain ⟨stored, offered, isStored⟩ :=
        stored_candidate (F := F) profile effort (dictAvailable dict forced)
      by_cases filled : data = []
      · subst filled
        have empty : ∀ limits, compressBest C F [] profile effort dict forced limits =
            .ok (storedPlanned [] 0 false "entrada vazia") := by
          intro limits
          rw [compressBest, free]
          rfl
        rw [empty] at run
        cases run
        refine ⟨Nat.le_refl 0, fun _ => rfl, fun _ _ => ⟨?_, fun _ _ _ _ _ => Nat.zero_le _⟩,
          fun _ => empty _⟩
        exact ⟨stored, offered, [], [], execute_stored isStored [] dict, rfl⟩
      · have keeps : ∀ keepOutputMax, compressBest C F data profile effort dict forced
            { limits with keepOutputMax } = .ok planned := by
          intro keepOutputMax
          rw [← run, compressBest_free C F filled free, compressBest_free C F filled free]
          rfl
        rcases compressBest_eq_ok filled free run with
          ⟨nothing, reason, rfl⟩ | ⟨best, len, payload, steps, found, ran, rfl⟩
        · refine ⟨Nat.le_refl _, fun _ => rfl, fun _ notSampled => ?_, keeps⟩
          have none_made := bestOf_eq_none.mp nothing
          have candidate := none_made _ (List.mem_map.mpr ⟨stored, offered, rfl⟩)
          rw [len_measured, execute_stored isStored] at candidate
          cases candidate
        · have bounded : (concluded F data profile (candidates F profile effort
              (dictAvailable dict forced)) limits { best.plan with transforms := steps }
              payload).payload.length ≤ data.length := by
            rw [concluded_payload]
            split <;> omega
          refine ⟨bounded, concluded_stored ran profile _ limits, fun _ notSampled => ?_, keeps⟩
          rw [concluded_sampled] at notSampled
          rw [probeOf, notSampled, if_neg Bool.false_ne_true] at found
          obtain ⟨listed, least⟩ := least_of_bestOf found ran
          -- the stored candidate is no longer than the data
          have short := least stored offered data [] (execute_stored isStored data dict)
          have length : (concluded F data profile (candidates F profile effort
              (dictAvailable dict forced)) limits { best.plan with transforms := steps }
              payload).payload.length = payload.length := by
            rw [concluded_payload]
            split <;> omega
          rw [length]
          exact ⟨⟨best.plan, listed, payload, steps, ran, rfl⟩, least⟩

def zeroProfile : ContentProfile :=
  { mime := "application/octet-stream", contentClass := .binary, size := 8, entropy := 0
    printable := 0, tabular := none, stride := none
    dictionaryKey := "application/octet-stream" }

def zeroLimits : Limits := { probeThreshold := 64, probeSample := 64, keepOutputMax := 64 }

def freePlan : ForcedPlan := { codec := none, level := none, useDictionary := none }

def lowFloats : Floats := { noFloats with entropyBelow2 := fun _ => true }

def zeroPlanned : Planned :=
  { plan := { transforms := [step .rle 1 8], codec := .zstd, level := 12, useDictionary := false }
    payload := [0, 249, 0], candidatesTried := 4, sampledDecision := false
    reason := "4 candidatos medidos no conteúdo integral; vencedor rle+zstd:12 sobre classe binary" }

/-- The run-length coding wins, and still does when no output is kept. -/
theorem compressBest_smallest_zeros :
    compressBest framingCodecs lowFloats (List.replicate 8 0) zeroProfile .balanced none freePlan
        zeroLimits = .ok zeroPlanned ∧
      compressBest framingCodecs lowFloats (List.replicate 8 0) zeroProfile .balanced none
        freePlan { zeroLimits with keepOutputMax := 0 } = .ok zeroPlanned := by
  have run : compressBest framingCodecs lowFloats (List.replicate 8 0) zeroProfile .balanced none
      freePlan zeroLimits = .ok zeroPlanned := by decide +kernel
  exact ⟨run, (compressBest_smallest framingCodecs lowFloats (List.replicate 8 0) zeroProfile
    .balanced none freePlan zeroLimits zeroPlanned run).2.2.2 0⟩

end Syntra

import Syntra.Planner.Best

/-!
# Plans apply to the whole input

A plan chosen on a slice is executed on the whole input.  Its steps apply to any
data but for a columnar layout, which heads a chain and is offered for tables
only; and the layout of a table exists whenever the table was detected.
-/

set_option autoImplicit false

namespace Syntra

open Fallible

/-! ## Detected tables can be laid out -/

theorem length_splitOn (delim : UInt8) (line : Bytes) :
    (line.splitOn delim).length = line.count delim + 1 := by
  induction line with
  | nil => rfl
  | cons byte line ih =>
      rw [List.splitOn_cons_eq_if_modifyHead]
      by_cases same : byte = delim
      · simp [same, ih]
      · simp [same, ih]

theorem csvRows_eq_some {delim : UInt8} {cols rows seen : Nat} {lines : List Bytes}
    (counted : csvRows delim cols lines seen = some rows) :
    rows = seen + lines.length ∧ (∀ line ∈ lines, line.count delim + 1 = cols) ∧
      (lines ≠ [] → rows ≤ maxFields / cols) := by
  induction lines generalizing seen with
  | nil =>
      cases counted
      simp
  | cons line lines ih =>
      rw [csvRows] at counted
      split at counted
      · cases counted
      · rename_i uniform
        split at counted
        · cases counted
        · rename_i small
          obtain ⟨count, all, bounded⟩ := ih counted
          refine ⟨by rw [List.length_cons]; omega, ?_, fun _ => ?_⟩
          · intro other member
            rcases List.mem_cons.mp member with rfl | later
            · exact not_not.mp uniform
            · exact all other later
          · by_cases last : lines = []
            · rw [last, List.length_nil] at count
              omega
            · exact bounded last

theorem csvDetect_eq_some {data : Bytes} {delim : UInt8} {cols : Nat}
    (detected : csvDetect data = some (delim, cols)) :
    2 ≤ cols ∧ ∃ rows, csvRows delim cols (splitLines data).1 0 = some rows := by
  unfold csvDetect at detected
  split at detected
  · simp at detected
  · simp only [Option.bind_eq_bind, Option.bind_eq_some_iff, Prod.exists] at detected
    obtain ⟨_, -, found, count, -, checks⟩ := detected
    split at checks
    · simp at checks
    · rename_i several
      obtain ⟨rows, counted, rest⟩ := Option.bind_eq_some_iff.mp checks
      split at rest
      · simp at rest
      · cases rest
        exact ⟨Nat.le_of_not_lt several, rows, counted⟩

theorem csvApply_isSome (data : Bytes) :
    (csvApply data).isSome = true ↔ (csvDetect data).isSome = true := by
  constructor
  · intro applied
    obtain ⟨out, success⟩ := Option.isSome_iff_exists.mp applied
    obtain ⟨delim, cols, detected, -, -⟩ := csvApply_eq_some data out success
    rw [detected]
    rfl
  · intro found
    obtain ⟨⟨delim, cols⟩, detected⟩ := Option.isSome_iff_exists.mp found
    obtain ⟨several, rows, counted⟩ := csvDetect_eq_some detected
    obtain ⟨count, uniform, bounded⟩ := csvRows_eq_some counted
    rw [Nat.zero_add] at count
    have filled : (splitLines data).1 ≠ [] := List.splitOn_ne_nil _ _
    have small : (splitLines data).1.length * cols ≤ maxFields := by
      rw [← count]
      exact (Nat.le_div_iff_mul_le (by omega)).mp (bounded filled)
    have word : checkedMul (splitLines data).1.length cols =
        some ((splitLines data).1.length * cols) := by
      rw [checkedMul, if_pos]
      exact small.trans_lt (by decide)
    have fields : (splitLines data).1.any (fun line => (line.splitOn delim).length ≠ cols) =
        false := by
      rw [List.any_eq_false]
      intro line member
      rw [length_splitOn, uniform line member]
      simp
    unfold csvApply
    simp only [detected, Option.bind_eq_bind, Option.bind_some, word]
    rw [if_neg (by omega)]
    simp only [fields]
    rfl

/-! ## What a candidate asks for -/

def stepTotal (s : TransformStep) : Bool :=
  match Transform.tryFrom s.transform with
  | some .unspecified | some .rle => true
  | some .delta | some .byteSplit => s.width ∈ widths
  | some .csvColumnar | none => false

/-- The plan has a codec, and its steps apply to any data, the first at least to a table. -/
def Plan.suits (table : Bool) (plan : Plan) : Bool :=
  plan.codec ≠ .unspecified &&
    match plan.transforms with
    | [] => true
    | s :: steps =>
      (stepTotal s || (table && s.transform = Transform.csvColumnar.toI32)) && steps.all stepTotal

theorem apply_of_stepTotal {s : TransformStep} (total : stepTotal s = true) (data : Bytes) :
    ∃ out, apply data s = .ok out := by
  unfold stepTotal at total
  unfold apply
  cases known : Transform.tryFrom s.transform with
  | none => simp [known] at total
  | some transform =>
      cases transform with
      | unspecified => exact ⟨data, rfl⟩
      | delta =>
          have listed : s.width ∈ widths := by simpa [known] using total
          refine ⟨deltaApply data s.width, ?_⟩
          simp [okOr, widthOf, rejectIf_of_not (not_not.mpr listed)]
      | byteSplit =>
          have listed : s.width ∈ widths := by simpa [known] using total
          refine ⟨byteSplitApply data s.width, ?_⟩
          simp [okOr, widthOf, rejectIf_of_not (not_not.mpr listed)]
      | rle => exact ⟨rleApply data, rfl⟩
      | csvColumnar => simp [known] at total

theorem applyChain_of_total {steps : List TransformStep} (total : steps.all stepTotal = true)
    (data : Bytes) : ∃ made, applyChain data steps = .ok made := by
  induction steps generalizing data with
  | nil => exact ⟨(data, []), rfl⟩
  | cons s steps ih =>
      rw [List.all_cons, Bool.and_eq_true] at total
      obtain ⟨staged, first⟩ := apply_of_stepTotal total.1 data
      obtain ⟨⟨out, tail⟩, rest⟩ := ih total.2 staged
      exact ⟨_, applyChain_cons_eq_ok.mpr ⟨staged, tail, first, rest, rfl⟩⟩

theorem execute_of_suits {C : Codecs} {data : Bytes} {plan : Plan} {dict : Option Bytes}
    (suits : plan.suits (csvDetect data).isSome = true)
    (encodes : ∀ staged dict, ∃ out, encode C staged plan.codec plan.level dict = .ok out) :
    ∃ made, execute C data plan dict = .ok made := by
  have chained : ∃ made, applyChain data plan.transforms = .ok made := by
    unfold Plan.suits at suits
    cases steps : plan.transforms with
    | nil => exact ⟨(data, []), rfl⟩
    | cons s rest =>
        simp only [steps, Bool.and_eq_true, Bool.or_eq_true, decide_eq_true_eq] at suits
        obtain ⟨-, first, total⟩ := suits
        obtain ⟨staged, applied⟩ : ∃ staged, apply data s = .ok staged := by
          rcases first with total | ⟨table, columnar⟩
          · exact apply_of_stepTotal total data
          · obtain ⟨out, laid⟩ := Option.isSome_iff_exists.mp ((csvApply_isSome data).mpr table)
            refine ⟨out, ?_⟩
            unfold apply
            rw [columnar]
            simp [okOr, laid]
        obtain ⟨⟨out, tail⟩, others⟩ := applyChain_of_total total staged
        exact ⟨_, applyChain_cons_eq_ok.mpr ⟨staged, tail, applied, others, rfl⟩⟩
  obtain ⟨⟨staged, steps⟩, chain⟩ := chained
  obtain ⟨out, encoded⟩ := encodes staged (if plan.useDictionary then dict else none)
  exact ⟨(out, steps), (execute_eq_ok C).mpr ⟨staged, chain, encoded⟩⟩

variable (F : Floats)

theorem plansFor_suits (profile : ContentProfile) (effort : Effort) (available : Bool)
    (stride : profile.stride.getD 4 ∈ widths) :
    ∀ plan ∈ plansFor F profile effort available,
      plan.suits (profile.contentClass = .tabular) = true := by
  unfold plansFor
  generalize profile.stride.getD 4 = width at stride
  generalize F.entropyBelow2 profile.entropy = low
  generalize profile.contentClass = contentClass
  simp only [widths, List.mem_cons, List.not_mem_nil, or_false] at stride
  rcases stride with rfl | rfl | rfl | rfl <;> cases contentClass <;> cases effort <;>
    cases available <;> cases low <;> decide

theorem candidates_suits (profile : ContentProfile) (effort : Effort) (available : Bool)
    (stride : profile.stride.getD 4 ∈ widths) (plan : Plan)
    (offered : plan ∈ candidates F profile effort available) :
    plan.suits (profile.contentClass = .tabular) = true := by
  have taken : ∀ plan ∈ (plansFor F profile effort available).take effort.candidateBudget,
      plan.suits (profile.contentClass = .tabular) = true := fun plan member =>
    plansFor_suits F profile effort available stride plan (List.mem_of_mem_take member)
  simp only [candidates] at offered
  split at offered
  · exact taken plan offered
  · rcases List.mem_append.mp offered with listed | stored
    · exact taken plan listed
    · rw [List.mem_singleton.mp stored]
      rfl

theorem Plan.suits_of_le {plan : Plan} {table detected : Bool}
    (implies : table = true → detected = true) (suits : plan.suits table = true) :
    plan.suits detected = true := by
  cases table with
  | true => rwa [implies rfl]
  | false =>
      unfold Plan.suits at suits ⊢
      cases steps : plan.transforms with
      | nil => simpa [steps] using suits
      | cons s rest =>
          simp only [steps, Bool.false_and, Bool.or_false, Bool.and_eq_true] at suits
          simp [suits]

/-! ## What is classified -/

variable (infer : Bytes → Option String)

theorem detectStride_mem (sample : Bytes) (width : Nat)
    (found : detectStride F sample = some width) : width ∈ widths := by
  unfold detectStride at found
  dsimp only at found
  split at found
  · cases found
  · have chosen : ∀ lags : List Nat, lags ⊆ widths → ∀ start : Option Nat,
        (∀ lag, start = some lag → lag ∈ widths) → ∀ lag,
          lags.foldl (fun best lag =>
            if F.strideBeats (sample.take (256 * 1024)) lag best then some lag else best) start =
              some lag → lag ∈ widths := by
      intro lags
      induction lags with
      | nil => exact fun _ start held lag same => held lag same
      | cons first lags ih =>
          intro listed start held
          apply ih (List.subset_of_cons_subset listed)
          intro lag same
          dsimp only at same
          split at same
          · cases same
            exact listed List.mem_cons_self
          · exact held lag same
    exact chosen [2, 4, 8] (by decide) none (by simp) width found

theorem classify_stride (data : Bytes) (filename : String) (mimeHint : Option String) :
    (classify F infer data filename mimeHint).stride.getD 4 ∈ widths := by
  have own : (classify F infer data filename mimeHint).stride =
      if (classify F infer data filename mimeHint).contentClass = .numericBinary then
        detectStride F (sampleOf data) else none := rfl
  rw [own]
  split
  · cases found : detectStride F (sampleOf data) with
    | none => decide
    | some width => exact detectStride_mem F _ width found
  · decide

theorem classify_tabular (data : Bytes) (filename : String) (mimeHint : Option String)
    (table : (classify F infer data filename mimeHint).contentClass = .tabular) :
    (csvDetect data).isSome = true := by
  cases detected : csvDetect data with
  | some found => rfl
  | none =>
      -- no other branch calls anything a table
      exfalso
      unfold classify at table
      simp only [detected] at table
      repeat' split at table
      all_goals cases table

/-! ## Planning succeeds -/

theorem columnar_of_suits {plan : Plan} {table : Bool} (suits : plan.suits table = true)
    {s : TransformStep} (member : s ∈ plan.transforms)
    (columnar : s.transform = Transform.csvColumnar.toI32) : table = true := by
  have notTotal : stepTotal s = false := by
    rw [stepTotal, columnar]
    rfl
  unfold Plan.suits at suits
  cases steps : plan.transforms with
  | nil =>
      rw [steps] at member
      cases member
  | cons first rest =>
      simp only [steps, Bool.and_eq_true, Bool.or_eq_true] at suits
      obtain ⟨-, head, tail⟩ := suits
      rw [steps] at member
      rcases List.mem_cons.mp member with rfl | later
      · rcases head with total | ⟨detected, -⟩
        · rw [notTotal] at total
          cases total
        · exact detected
      · rw [List.all_eq_true.mp tail s later] at notTotal
        cases notTotal

theorem candidates_classified (data : Bytes) (filename : String) (mimeHint : Option String)
    (effort : Effort) (available : Bool) :
    ∀ plan ∈ candidates F (classify F infer data filename mimeHint) effort available,
      plan.suits (csvDetect data).isSome = true := by
  intro plan offered
  apply Plan.suits_of_le _ (candidates_suits F _ effort available
    (classify_stride F infer data filename mimeHint) plan offered)
  intro table
  exact classify_tabular F infer data filename mimeHint (of_decide_eq_true table)

/-- Whatever was classified is compressed when the codecs encode, also when the plan was
chosen on a slice: a layout exists for every table detected, and only then is it tried. -/
theorem planning_succeeds (C : Codecs) (F : Floats) (infer : Bytes → Option String)
    (encodes : ∀ data codec level dict, codec ≠ .unspecified →
      ∃ out, encode C data codec level dict = .ok out)
    (data : Bytes) (filename : String) (mimeHint : Option String) (effort : Effort)
    (dict : Option Bytes) (forced : ForcedPlan) (free : forced.codec = none) (limits : Limits) :
    (∃ planned, compressBest C F data (classify F infer data filename mimeHint) effort dict
        forced limits = .ok planned) ∧
      ((csvApply data).isSome = true ↔ (csvDetect data).isSome = true) ∧
      ∀ available, ∀ plan ∈ candidates F (classify F infer data filename mimeHint) effort
        available, (∃ s ∈ plan.transforms, s.transform = Transform.csvColumnar.toI32) →
          (csvDetect data).isSome = true := by
  have suit := candidates_classified F infer data filename mimeHint effort
  refine ⟨?_, csvApply_isSome data, ?_⟩
  · by_cases filled : data = []
    · subst filled
      refine ⟨storedPlanned [] 0 false "entrada vazia", ?_⟩
      rw [compressBest, free]
      rfl
    · rw [compressBest_free C F filled free]
      dsimp only
      split
      · exact ⟨_, rfl⟩
      · rename_i best len found
        obtain ⟨plan, offered, rfl⟩ := List.mem_map.mp (mem_of_bestOf found).1
        have suits := suit _ plan offered
        have coded : plan.codec ≠ .unspecified := by
          unfold Plan.suits at suits
          exact of_decide_eq_true ((Bool.and_eq_true _ _).mp suits).1
        obtain ⟨⟨payload, steps⟩, ran⟩ := execute_of_suits (C := C) suits
          (fun staged used => encodes staged plan.codec plan.level used coded)
        rw [ran]
        exact ⟨_, rfl⟩
  · rintro available plan offered ⟨s, member, columnar⟩
    exact columnar_of_suits (suit available plan offered) member columnar

theorem encode_framingCodecs (data : Bytes) (codec : Codec) (level : Int) (dict : Option Bytes)
    (coded : codec ≠ .unspecified) : ∃ out, encode framingCodecs data codec level dict = .ok out := by
  cases codec with
  | unspecified => exact absurd rfl coded
  | _ => exact ⟨_, rfl⟩

/-- A hundred zero bytes are planned on a slice of them. -/
theorem planning_succeeds_zeros :
    ∃ planned, compressBest framingCodecs lowFloats (List.replicate 100 0)
      (classify lowFloats (fun _ => none) (List.replicate 100 0) "zeros.bin" none) .balanced none
      freePlan zeroLimits = .ok planned :=
  (planning_succeeds framingCodecs lowFloats (fun _ => none) encode_framingCodecs
    (List.replicate 100 0) "zeros.bin" none .balanced none freePlan rfl zeroLimits).1

end Syntra

import Syntra.Transform.ByteSplit
import Syntra.Transform.Csv
import Syntra.Transform.Delta
import Syntra.Transform.Rle

/-!
# Transform steps and chains

A chain records in each step the length of the data it was given; the inverse
runs the steps backwards and refuses a stage longer than its cap.
-/

set_option autoImplicit false

namespace Syntra

open Fallible

def widths : List Nat := [1, 2, 4, 8]

def transformName : Transform → String
  | .unspecified => "none"
  | .delta => "delta"
  | .byteSplit => "byte_split"
  | .rle => "rle"
  | .csvColumnar => "csv_columnar"

def stepLabel (s : TransformStep) : String :=
  match (Transform.tryFrom s.transform).getD .unspecified with
  | .delta => s!"delta:{s.width}"
  | .byteSplit => s!"byte_split:{s.width}"
  | other => transformName other

def chainLabel (steps : List TransformStep) : String :=
  if steps.isEmpty then "none" else String.intercalate ">" (steps.map stepLabel)

def step (transform : Transform) (width inputLen : Nat) : TransformStep :=
  { transform := transform.toI32, width, inputLen }

def widthOf (s : TransformStep) : Except IoError Nat := do
  rejectIf (s.width ∉ widths) (invalid s!"largura de elemento inválida: {s.width}")
  .ok s.width

def apply (data : Bytes) (s : TransformStep) : Except IoError Bytes := do
  match ← okOr (Transform.tryFrom s.transform)
      (invalid s!"transform desconhecido: {s.transform}") with
  | .unspecified => .ok data
  | .delta => .ok (deltaApply data (← widthOf s))
  | .byteSplit => .ok (byteSplitApply data (← widthOf s))
  | .rle => .ok (rleApply data)
  | .csvColumnar => okOr (csvApply data) (invalid "entrada não é tabular uniforme")

def maxChain : Nat := 8

def produce (transform : Transform) (s : TransformStep) (data : Bytes) (limit : Nat) :
    Except IoError Bytes :=
  match transform with
  | .unspecified => do
    checkLen data.length limit
    .ok data
  | .delta => do
    let width ← widthOf s
    checkLen data.length limit
    .ok (deltaInvert data width)
  | .byteSplit => do
    let width ← widthOf s
    checkLen data.length limit
    .ok (byteSplitInvert data width)
  | .rle => rleInvertLimited data limit
  | .csvColumnar => csvInvert data limit

def invertLimited (data : Bytes) (s : TransformStep) (maxOut : Nat) : Except IoError Bytes := do
  let transform ← okOr (Transform.tryFrom s.transform)
    (invalid s!"transform desconhecido no envelope: {s.transform}")
  let declared := s.inputLen
  let limit := if s.inputLen ≠ 0 then min maxOut declared else maxOut
  match produce transform s data limit with
  | .ok out =>
    rejectIf (s.inputLen ≠ 0 ∧ out.length ≠ s.inputLen) (invalid
      s!"inversão de {transformName transform} devolveu {out.length} bytes, esperado {s.inputLen}")
    .ok out
  | .error failure =>
    if s.inputLen ≠ 0 ∧ declared < maxOut ∧ (tooLargeLimit failure).isSome then
      .error (invalid
        s!"inversão de {transformName transform} excede o tamanho declarado ({s.inputLen})")
    else .error failure

def applyChain (data : Bytes) : List TransformStep → Except IoError (Bytes × List TransformStep)
  | [] => .ok (data, [])
  | s :: steps => do
    let s := { s with inputLen := data.length }
    let current ← apply data s
    let (out, steps) ← applyChain current steps
    .ok (out, s :: steps)

/-- The loop of `invert_chain_limited` from the last step to the first: only the
first step of the chain, inverted last, has the cap `cap`. -/
def invertSteps (stageCap : Nat) (data : Bytes) :
    Nat → List TransformStep → Except IoError Bytes
  | _, [] => .ok data
  | cap, s :: steps => do
    let staged ← invertSteps stageCap data stageCap steps
    invertLimited staged s cap

def invertChainLimited (data : Bytes) (steps : List TransformStep) (stageCap finalCap : Nat) :
    Except IoError Bytes := do
  rejectIf (maxChain < steps.length)
    (invalid s!"cadeia de {steps.length} transforms excede o máximo de {maxChain}")
  if steps.isEmpty then do
    checkLen data.length finalCap
    .ok data
  else invertSteps stageCap data finalCap steps

/-! ## One step -/

theorem widthOf_eq_ok (s : TransformStep) (width : Nat) (success : widthOf s = .ok width) :
    s.width = width ∧ s.width ∈ widths := by
  obtain ⟨listed, equal⟩ := rejectIf_bind_eq_ok.mp success
  exact ⟨Except.ok.inj equal, not_not.mp listed⟩

theorem width_le_eight {width : Nat} (listed : width ∈ widths) : width ≤ 8 := by
  simp only [widths, List.mem_cons, List.not_mem_nil, or_false] at listed
  omega

/-- What `apply` accepted, one case for each transform. -/
theorem apply_eq_ok (data out : Bytes) (s : TransformStep) (success : apply data s = .ok out) :
    ∃ transform, Transform.tryFrom s.transform = some transform ∧
      match transform with
      | .unspecified => out = data
      | .delta => s.width ∈ widths ∧ out = deltaApply data s.width
      | .byteSplit => s.width ∈ widths ∧ out = byteSplitApply data s.width
      | .rle => out = rleApply data
      | .csvColumnar => csvApply data = some out := by
  obtain ⟨transform, found, body⟩ := bind_eq_ok.mp success
  refine ⟨transform, okOr_eq_ok.mp found, ?_⟩
  cases transform with
  | unspecified => exact (Except.ok.inj body).symm
  | delta =>
      obtain ⟨width, checked, equal⟩ := bind_eq_ok.mp body
      obtain ⟨rfl, listed⟩ := widthOf_eq_ok s width checked
      exact ⟨listed, (Except.ok.inj equal).symm⟩
  | byteSplit =>
      obtain ⟨width, checked, equal⟩ := bind_eq_ok.mp body
      obtain ⟨rfl, listed⟩ := widthOf_eq_ok s width checked
      exact ⟨listed, (Except.ok.inj equal).symm⟩
  | rle => exact (Except.ok.inj body).symm
  | csvColumnar => exact okOr_eq_ok.mp body

theorem produce_apply (data out : Bytes) (s : TransformStep) (limit len : Nat)
    (fits : out.length < 2 ^ 64) (success : apply data s = .ok out) :
    ∃ transform, Transform.tryFrom s.transform = some transform ∧
      produce transform { s with inputLen := len } out limit =
        if data.length ≤ limit then .ok data else .error (tooLarge limit) := by
  obtain ⟨transform, found, applied⟩ := apply_eq_ok data out s success
  refine ⟨transform, found, ?_⟩
  have checked : ∀ restored : Bytes, restored = data →
      (checkLen data.length limit >>= fun _ => (.ok restored : Except IoError Bytes)) =
        if data.length ≤ limit then .ok data else .error (tooLarge limit) := by
    rintro restored rfl
    by_cases within : restored.length ≤ limit
    · rw [checkLen_of_le within, ok_bind, if_pos within]
    · rw [checkLen_of_lt (by omega), error_bind, if_neg within]
  cases transform with
  | unspecified =>
      obtain rfl := applied
      exact checked out rfl
  | delta =>
      obtain ⟨listed, rfl⟩ := applied
      have narrow := width_le_eight listed
      rw [produce, widthOf, rejectIf_of_not (not_not.mpr listed), ok_bind, ok_bind,
        length_deltaApply data s.width narrow]
      exact checked _ (deltaInvert_deltaApply data s.width narrow)
  | byteSplit =>
      obtain ⟨listed, rfl⟩ := applied
      rw [produce, widthOf, rejectIf_of_not (not_not.mpr listed), ok_bind, ok_bind,
        length_byteSplitApply]
      exact checked _ (byteSplitInvert_byteSplitApply data s.width)
  | rle =>
      obtain rfl := applied
      exact rleInvertLimited_rleApply data limit
  | csvColumnar => exact csvInvert_csvApply data out limit applied fits

/-- The inverse of one step returns its input exactly when the input fits the cap,
whether the step still carries the length of its input or has forgotten it. -/
theorem invertLimited_apply (data out : Bytes) (s : TransformStep) (cap len : Nat)
    (recorded : len = 0 ∨ len = data.length) (fits : out.length < 2 ^ 64)
    (success : apply data s = .ok out) :
    invertLimited out { s with inputLen := len } cap =
      if data.length ≤ cap then .ok data else .error (tooLarge cap) := by
  let limit := if len ≠ 0 then min cap len else cap
  obtain ⟨transform, found, produced⟩ := produce_apply data out s limit len fits success
  rw [invertLimited, found, okOr, ok_bind]
  dsimp only
  rw [produced]
  by_cases within : data.length ≤ cap
  · have inside : data.length ≤ limit := by
      simp only [limit]
      split <;> omega
    rw [if_pos inside, if_pos within]
    dsimp only
    rw [rejectIf_of_not (by omega), ok_bind]
  · have unchanged : limit = cap := by
      simp only [limit]
      split <;> omega
    rw [unchanged, if_neg within]
    dsimp only
    rw [if_neg (by omega)]

/-! ## A whole chain -/

/-- The data after each step, as far as the steps apply. -/
def stages (data : Bytes) : List TransformStep → List Bytes
  | [] => []
  | s :: steps =>
    match apply data s with
    | .ok staged => staged :: stages staged steps
    | .error _ => []

theorem apply_inputLen (data : Bytes) (s : TransformStep) (len : Nat) :
    apply data { s with inputLen := len } = apply data s := rfl

theorem applyChain_cons_eq_ok {data out : Bytes} {s : TransformStep}
    {steps recorded : List TransformStep} :
    applyChain data (s :: steps) = .ok (out, recorded) ↔
      ∃ staged tail, apply data s = .ok staged ∧ applyChain staged steps = .ok (out, tail) ∧
        recorded = { s with inputLen := data.length } :: tail := by
  simp only [applyChain, apply_inputLen, bind_eq_ok, Prod.exists, Except.ok.injEq,
    Prod.mk.injEq]
  constructor
  · rintro ⟨staged, first, out', tail, rest, rfl, rfl⟩
    exact ⟨staged, tail, first, rest, rfl⟩
  · rintro ⟨staged, tail, first, rest, rfl⟩
    exact ⟨staged, first, out, tail, rest, rfl, rfl⟩

theorem stages_cons_of_ok {data staged : Bytes} {s : TransformStep}
    {steps : List TransformStep} (success : apply data s = .ok staged) :
    stages data (s :: steps) = staged :: stages staged steps := by
  rw [stages, success]

theorem length_applyChain {data out : Bytes} {steps recorded : List TransformStep}
    (success : applyChain data steps = .ok (out, recorded)) :
    recorded.length = steps.length := by
  induction steps generalizing data recorded with
  | nil =>
      simp only [applyChain, Except.ok.injEq, Prod.mk.injEq] at success
      rw [← success.2]
  | cons s steps ih =>
      obtain ⟨staged, tail, -, rest, rfl⟩ := applyChain_cons_eq_ok.mp success
      rw [List.length_cons, List.length_cons, ih rest]

/-- The step as a container keeps it, or with its length forgotten as a block plan
keeps it. -/
def keepLen (kept : Bool) (s : TransformStep) : TransformStep :=
  { s with inputLen := if kept then s.inputLen else 0 }

/-- By induction on the chain: the inverse succeeds exactly when every stage fits
the stage cap and the original fits its own, and then returns the original. -/
theorem invertSteps_applyChain (stageCap cap : Nat) (kept : Bool) (data out restored : Bytes)
    (steps recorded : List TransformStep)
    (success : applyChain data steps = .ok (out, recorded))
    (word : stageCap < 2 ^ 64) (last : out.length ≤ stageCap) :
    invertSteps stageCap out cap (recorded.map (keepLen kept)) = .ok restored ↔
      restored = data ∧ (steps ≠ [] → data.length ≤ cap) ∧
        ∀ stage ∈ stages data steps, stage.length ≤ stageCap := by
  induction steps generalizing data cap recorded restored with
  | nil =>
      simp only [applyChain, Except.ok.injEq, Prod.mk.injEq] at success
      obtain ⟨rfl, rfl⟩ := success
      simp [invertSteps, stages, eq_comm]
  | cons s steps ih =>
      obtain ⟨staged, tail, first, rest, rfl⟩ := applyChain_cons_eq_ok.mp success
      have inner := fun middle => ih stageCap staged middle tail rest
      -- the last stage is bounded by `last`, an earlier one by its own inversion
      have stagedFits : (∀ stage ∈ staged :: stages staged steps, stage.length ≤ stageCap) ↔
          (steps ≠ [] → staged.length ≤ stageCap) ∧
            ∀ stage ∈ stages staged steps, stage.length ≤ stageCap := by
        rw [List.forall_mem_cons]
        refine and_congr_left fun _ => ⟨fun bound _ => bound, fun bound => ?_⟩
        cases steps with
        | nil =>
            simp only [applyChain, Except.ok.injEq, Prod.mk.injEq] at rest
            rw [rest.1]
            exact last
        | cons _ _ => exact bound (by simp)
      have outer := fun bounded : staged.length ≤ stageCap =>
        invertLimited_apply data staged s cap (if kept then data.length else 0)
          (by cases kept <;> simp) (by omega) first
      rw [stages_cons_of_ok first, List.map_cons, invertSteps, bind_eq_ok]
      constructor
      · rintro ⟨middle, run, final⟩
        obtain ⟨rfl, within⟩ := (inner middle).mp run
        have bounded := stagedFits.mpr within
        rw [keepLen, outer (bounded middle (by simp))] at final
        split at final
        · rename_i bound
          exact ⟨(Except.ok.inj final).symm, fun _ => bound, bounded⟩
        · simp at final
      · rintro ⟨rfl, bound, within⟩
        refine ⟨staged, (inner staged).mpr ⟨rfl, stagedFits.mp within⟩, ?_⟩
        rw [keepLen, outer (within staged (by simp)), if_pos (bound (by simp))]

/-! ## How far a chain can grow -/

def NoRle (steps : List TransformStep) : Prop :=
  ∀ s ∈ steps, s.transform ≠ Transform.rle.toI32

theorem length_apply_le_of_noRle (data out : Bytes) (s : TransformStep)
    (other : s.transform ≠ Transform.rle.toI32) (success : apply data s = .ok out) :
    out.length ≤ data.length + data.length / 128 + 12 := by
  obtain ⟨transform, found, applied⟩ := apply_eq_ok data out s success
  cases transform with
  | unspecified =>
      obtain rfl := applied
      omega
  | delta =>
      obtain ⟨listed, rfl⟩ := applied
      rw [length_deltaApply data s.width (width_le_eight listed)]
      omega
  | byteSplit =>
      obtain ⟨-, rfl⟩ := applied
      rw [length_byteSplitApply]
      omega
  | rle =>
      refine absurd ?_ other
      unfold Transform.tryFrom at found
      split at found <;> simp_all [Transform.toI32]
  | csvColumnar => exact (length_csvApply_le data out applied).2

/-- Without Rle a stage grows by less than one part in 64 and sixteen bytes at a
time; `done` counts the steps already taken from `size` bytes. -/
theorem length_stages_le_of_noRle (size done : Nat) (data : Bytes) (steps : List TransformStep)
    (noRle : NoRle steps) (few : done + steps.length ≤ 8)
    (bound : 64 * data.length ≤ 64 * size + done * size + 1024 * done) :
    ∀ stage ∈ stages data steps, stage.length ≤ size + size / 8 + 128 := by
  induction steps generalizing data done with
  | nil => simp [stages]
  | cons s steps ih =>
      intro stage member
      rw [stages] at member
      split at member
      · rename_i staged success
        have growth := length_apply_le_of_noRle data staged s (noRle s (by simp)) success
        simp only [List.length_cons] at few
        have taken : done * size ≤ 7 * size := Nat.mul_le_mul_right _ (by omega)
        have next : (done + 1) * size = done * size + size := by ring
        have stagedBound : 64 * staged.length ≤
            64 * size + (done + 1) * size + 1024 * (done + 1) := by omega
        rcases List.mem_cons.mp member with rfl | later
        · omega
        · exact ih (done + 1) staged (fun s member => noRle s (by simp [member]))
            (by omega) stagedBound stage later
      · simp at member

theorem stages_recorded {data out : Bytes} {steps recorded : List TransformStep}
    (success : applyChain data steps = .ok (out, recorded)) :
    stages data recorded = stages data steps := by
  induction steps generalizing data recorded with
  | nil =>
      simp only [applyChain, Except.ok.injEq, Prod.mk.injEq] at success
      rw [← success.2]
  | cons s steps ih =>
      obtain ⟨staged, tail, first, rest, rfl⟩ := applyChain_cons_eq_ok.mp success
      rw [stages_cons_of_ok first, stages_cons_of_ok ((apply_inputLen data s _).trans first),
        ih rest]

theorem stages_applyChain {data out : Bytes} {steps recorded : List TransformStep}
    (success : applyChain data steps = .ok (out, recorded)) :
    (stages data steps).getLast?.getD data = out := by
  induction steps generalizing data recorded with
  | nil =>
      simp only [applyChain, Except.ok.injEq, Prod.mk.injEq] at success
      exact success.1
  | cons s steps ih =>
      obtain ⟨staged, tail, first, rest, rfl⟩ := applyChain_cons_eq_ok.mp success
      rw [stages_cons_of_ok first, List.getLast?_cons, Option.getD_some]
      exact ih rest

theorem mem_stages_of_applyChain {data out : Bytes} {s : TransformStep}
    {steps recorded : List TransformStep}
    (success : applyChain data (s :: steps) = .ok (out, recorded)) :
    out ∈ stages data (s :: steps) := by
  have last := stages_applyChain success
  obtain ⟨staged, tail, first, -, -⟩ := applyChain_cons_eq_ok.mp success
  rw [stages_cons_of_ok first] at last ⊢
  cases final : (staged :: stages staged steps).getLast? with
  | none => simp at final
  | some stage =>
      rw [final, Option.getD_some] at last
      exact last ▸ List.mem_of_getLast? final

theorem invertChainLimited_of_short (data : Bytes) (steps : List TransformStep)
    (stageCap finalCap : Nat) (short : steps.length ≤ maxChain) :
    invertChainLimited data steps stageCap finalCap =
      if steps.isEmpty then checkLen data.length finalCap >>= fun _ => .ok data
      else invertSteps stageCap data finalCap steps := by
  rw [invertChainLimited, rejectIf_of_not (by omega), ok_bind]

end Syntra

import Syntra.Transform.Chain

/-!
# What each step adds

Only run-length coding and the columnar layout change the length of the data.
The first pays a control byte for each literal block and saves what a run has
beyond two bytes; the second pays for its dimensions and for the lengths of long
fields.  The growths of the steps, added up, are the lengths of the stages.
-/

set_option autoImplicit false

namespace Syntra

open Fallible

def literalBlocks : Bytes → Nat
  | [] => 0
  | b :: rest =>
    if runLength b 127 rest = 0 then literalBlocks (rest.drop (literalLength 127 rest)) + 1
    else literalBlocks (rest.drop (runLength b 127 rest))
termination_by data => data.length
decreasing_by
  all_goals simp only [List.length_drop, List.length_cons]; omega

/-- What the runs save: one of `k` bytes is coded in two. -/
def runSavings : Bytes → Nat
  | [] => 0
  | b :: rest =>
    if runLength b 127 rest = 0 then runSavings (rest.drop (literalLength 127 rest))
    else runSavings (rest.drop (runLength b 127 rest)) + (runLength b 127 rest - 1)
termination_by data => data.length
decreasing_by
  all_goals simp only [List.length_drop, List.length_cons]; omega

/-- The bytes of the length of a field after the first, which takes the place of a
delimiter. -/
def extraLenBytes (field : Bytes) : Nat := (putVarint field.length).length - 1

def tableOverhead (delim : UInt8) (cols : Nat) (lines : List Bytes) (trailing : Bool) : Nat :=
  (if trailing then 3 else 4) + (putVarint lines.length).length + (putVarint cols).length +
    ((lines.map fun line => line.splitOn delim).flatten.map extraLenBytes).sum

/-- How many bytes a step adds to the data, negative when it takes some away. -/
def growth (data : Bytes) (s : TransformStep) : Int :=
  match Transform.tryFrom s.transform with
  | some .rle => literalBlocks data - runSavings data
  | some .csvColumnar =>
    match csvDetect data with
    | some (delim, cols) =>
      tableOverhead delim cols (splitLines data).1 (splitLines data).2
    | none => 0
  | _ => 0

def growths (data : Bytes) : List TransformStep → List Int
  | [] => []
  | s :: steps =>
    growth data s :: match apply data s with
      | .ok staged => growths staged steps
      | .error _ => []

/-! ## One step -/

theorem runLength_le_length (b : UInt8) (budget : Nat) (data : Bytes) :
    runLength b budget data ≤ data.length := by
  induction budget generalizing data with
  | zero => simp [runLength]
  | succ budget ih =>
      cases data with
      | nil => simp [runLength]
      | cons x rest =>
          have bound := ih rest
          rw [runLength, List.length_cons]
          split <;> omega

/-- By induction on the length of the data, one block at a time. -/
theorem length_rleApply (data : Bytes) :
    (rleApply data).length + runSavings data = data.length + literalBlocks data := by
  match data with
  | [] => simp [rleApply, runSavings, literalBlocks]
  | b :: rest =>
      by_cases single : runLength b 127 rest = 0
      · have inside := literalLength_le_length 127 rest
        have tail := length_rleApply (rest.drop (literalLength 127 rest))
        rw [List.length_drop] at tail
        rw [rleApply_literal b rest single, literalBlocks, if_pos single, runSavings,
          if_pos single]
        simp only [List.length_append, List.length_cons, List.length_take]
        omega
      · have inside := runLength_le_length b 127 rest
        have tail := length_rleApply (rest.drop (runLength b 127 rest))
        rw [List.length_drop] at tail
        rw [rleApply_run b rest (by omega), literalBlocks, if_neg single, runSavings,
          if_neg single]
        simp only [List.length_cons]
        omega
termination_by data.length
decreasing_by
  all_goals simp only [List.length_drop, List.length_cons]; omega

theorem length_lens (cells : List Bytes) :
    (cells.flatMap fun field => putVarint field.length).length =
      cells.length + (cells.map extraLenBytes).sum := by
  induction cells with
  | nil => rfl
  | cons cell cells ih =>
      have first := Leb128.length_encode_pos cell.length
      simp only [List.flatMap_cons, List.length_append, List.length_cons, List.map_cons,
        List.sum_cons, extraLenBytes, putVarint] at ih ⊢
      omega

theorem length_csvApply (data out : Bytes) (delim : UInt8) (cols : Nat)
    (detected : csvDetect data = some (delim, cols)) (success : csvApply data = some out) :
    out.length =
      data.length + tableOverhead delim cols (splitLines data).1 (splitLines data).2 := by
  obtain ⟨delim', cols', detected', uniform, rfl⟩ := csvApply_eq_some data out success
  obtain ⟨rfl, rfl⟩ := Prod.mk.inj (Option.some.inj (detected'.symm.trans detected))
  have outLen := outLen_eq data delim' cols' uniform
  have count := length_csvCells delim' cols' (splitLines data).1
  have rowsPositive : 0 < (splitLines data).1.length := List.length_pos_iff.mpr uniform.filled
  have filled := Nat.mul_pos rowsPositive uniform.cols_pos
  rw [tableOverhead, ← sum_map_csvCells _ delim' cols' _ uniform]
  simp only [csvLayout, List.length_cons, List.length_append, List.length_flatten, length_lens]
  generalize (splitLines data).2 = trailing at outLen ⊢
  cases trailing <;> simp only [Bool.false_eq_true, if_true, if_false] at outLen ⊢ <;> omega

theorem length_apply (data out : Bytes) (s : TransformStep) (success : apply data s = .ok out) :
    (out.length : Int) = data.length + growth data s := by
  obtain ⟨transform, found, applied⟩ := apply_eq_ok data out s success
  rw [growth, found]
  cases transform with
  | unspecified =>
      obtain rfl := applied
      simp
  | delta =>
      obtain ⟨listed, rfl⟩ := applied
      simp [length_deltaApply data s.width (width_le_eight listed)]
  | byteSplit =>
      obtain ⟨-, rfl⟩ := applied
      simp [length_byteSplitApply]
  | rle =>
      obtain rfl := applied
      have coded := length_rleApply data
      dsimp only
      omega
  | csvColumnar =>
      obtain ⟨delim, cols, detected, -, -⟩ := csvApply_eq_some data out applied
      have laidOut := length_csvApply data out delim cols detected applied
      simp only [detected]
      omega

/-! ## A whole chain -/

theorem growths_cons_of_ok {data staged : Bytes} {s : TransformStep}
    {steps : List TransformStep} (success : apply data s = .ok staged) :
    growths data (s :: steps) = growth data s :: growths staged steps := by
  rw [growths, success]

/-- By induction on the chain: every stage stays within `room` of the data exactly when
every first part of the growths does. -/
theorem stages_within {data out : Bytes} {steps recorded : List TransformStep} (room : Int)
    (success : applyChain data steps = .ok (out, recorded)) :
    (∀ stage ∈ data :: stages data steps, (stage.length : Int) ≤ data.length + room) ↔
      ∀ first ∈ (growths data steps).inits, first.sum ≤ room := by
  induction steps generalizing data recorded room with
  | nil => simp [stages, growths]
  | cons s steps ih =>
      obtain ⟨staged, tail, applied, rest, -⟩ := applyChain_cons_eq_ok.mp success
      have grown := length_apply data staged s applied
      have later := ih (room - growth data s) rest
      have shifted : (data.length : Int) + room =
          staged.length + (room - growth data s) := by omega
      rw [stages_cons_of_ok applied, growths_cons_of_ok applied, List.forall_mem_cons, shifted,
        later, List.inits_cons]
      simp only [List.forall_mem_cons, List.sum_nil, List.forall_mem_map, List.sum_cons]
      refine and_congr (by omega) (forall₂_congr fun first _ => ?_)
      omega

theorem length_last_stage {data out : Bytes} {steps recorded : List TransformStep}
    (success : applyChain data steps = .ok (out, recorded)) :
    (out.length : Int) = data.length + (growths data steps).sum := by
  induction steps generalizing data recorded with
  | nil =>
      simp only [applyChain, Except.ok.injEq, Prod.mk.injEq] at success
      simp [growths, success.1]
  | cons s steps ih =>
      obtain ⟨staged, tail, applied, rest, -⟩ := applyChain_cons_eq_ok.mp success
      have grown := length_apply data staged s applied
      have later := ih rest
      rw [growths_cons_of_ok applied, List.sum_cons]
      omega

end Syntra

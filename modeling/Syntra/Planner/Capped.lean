import Syntra.Planner.Restore
import Syntra.Transform.Indexed

/-!
# Caps on the way back

Whatever the payload and the steps are, no stage of a restoration is longer than
the slack of the figure it was given, and the last not longer than the figure.
-/

set_option autoImplicit false

namespace Syntra

open Fallible

/-! ## One step -/

theorem length_rleInvertFrom_le {limit : Nat} {out data restored : Bytes}
    (within : out.length ≤ limit) (success : rleInvertFrom limit out data = .ok restored) :
    restored.length ≤ limit := by
  induction out, data using rleInvertFrom.induct with
  | case1 out =>
      rw [rleInvertFrom] at success
      exact Except.ok.inj success ▸ within
  | case2 out ctrl rest literal n short =>
      rw [rleInvertFrom, if_pos literal, if_pos short] at success
      cases success
  | case3 out ctrl rest literal n enough ih =>
      rw [rleInvertFrom, if_pos literal, if_neg enough] at success
      obtain ⟨fits, rest_⟩ := rejectIf_bind_eq_ok.mp success
      apply ih _ rest_
      rw [List.length_append, List.length_take]
      omega
  | case4 out ctrl high repeats =>
      rw [rleInvertFrom, if_neg high, if_pos repeats] at success
      cases success
  | case5 out ctrl high repeats n b rest ih =>
      rw [rleInvertFrom, if_neg high, if_pos repeats] at success
      obtain ⟨fits, rest_⟩ := rejectIf_bind_eq_ok.mp success
      apply ih _ rest_
      rw [List.length_append, List.length_replicate]
      omega
  | case6 out ctrl rest high reserved =>
      rw [rleInvertFrom, if_neg high, if_neg reserved] at success
      cases success

theorem length_produce_le {transform : Transform} {s : TransformStep} {data out : Bytes}
    {limit : Nat} (small : data.length < 2 ^ 64)
    (success : produce transform s data limit = .ok out) : out.length ≤ limit := by
  cases transform with
  | unspecified =>
      obtain ⟨checked, equal⟩ := rejectIf_bind_eq_ok.mp success
      rw [← Except.ok.inj equal]
      exact Nat.le_of_not_lt checked
  | delta =>
      obtain ⟨width, checked, rest⟩ := bind_eq_ok.mp success
      obtain ⟨fits, equal⟩ := rejectIf_bind_eq_ok.mp rest
      obtain ⟨rfl, listed⟩ := widthOf_eq_ok s width checked
      rw [← Except.ok.inj equal, length_deltaInvert data s.width (width_le_eight listed)]
      exact Nat.le_of_not_lt fits
  | byteSplit =>
      obtain ⟨width, -, rest⟩ := bind_eq_ok.mp success
      obtain ⟨fits, equal⟩ := rejectIf_bind_eq_ok.mp rest
      rw [← Except.ok.inj equal, length_byteSplitInvert]
      exact Nat.le_of_not_lt fits
  | rle => exact length_rleInvertFrom_le (Nat.zero_le _) success
  | csvColumnar =>
      obtain ⟨-, same, inverse⟩ := Indexed.csvInvert_never_panics data small limit
      have inverted : Indexed.csvInvert data limit = .ok out := by
        rw [same]
        exact congrArg Machine.lift success
      obtain ⟨-, -, -, within, -⟩ := inverse out inverted
      exact within

theorem length_invertLimited_le {s : TransformStep} {data out : Bytes} {cap : Nat}
    (small : data.length < 2 ^ 64) (success : invertLimited data s cap = .ok out) :
    out.length ≤ cap := by
  obtain ⟨transform, -, body⟩ := bind_eq_ok.mp success
  dsimp only at body
  split at body
  · rename_i produced made
    obtain ⟨-, equal⟩ := rejectIf_bind_eq_ok.mp body
    obtain rfl := Except.ok.inj equal
    apply (length_produce_le small made).trans
    split
    · exact Nat.min_le_left _ _
    · exact Nat.le_refl _
  · split at body <;> cases body

/-! ## The chain -/

/-- What a chain of steps leaves is under the cap of its first step, which is inverted last. -/
theorem length_invertSteps_le {stageCap : Nat} (word : stageCap < 2 ^ 64) {data : Bytes}
    (start : data.length ≤ stageCap) {cap : Nat} {steps : List TransformStep} {out : Bytes}
    (success : invertSteps stageCap data cap steps = .ok out) :
    out.length ≤ if steps = [] then stageCap else cap := by
  induction steps generalizing cap out with
  | nil =>
      rw [if_pos rfl, ← Except.ok.inj success]
      exact start
  | cons s steps ih =>
      obtain ⟨staged, run, inverted⟩ := bind_eq_ok.mp success
      have inner := ih run
      rw [ite_self] at inner
      rw [if_neg (List.cons_ne_nil _ _)]
      exact length_invertLimited_le (by omega) inverted

/-- What each step that was inverted left, from the last step of the chain on. -/
def unwinding (stageCap : Nat) (data : Bytes) : Nat → List TransformStep → List Bytes
  | _, [] => []
  | cap, s :: steps => unwinding stageCap data stageCap steps ++
      (invertSteps stageCap data cap (s :: steps)).toOption.toList

theorem length_unwinding_le {stageCap : Nat} (word : stageCap < 2 ^ 64) {data : Bytes}
    (start : data.length ≤ stageCap) {cap : Nat} (below : cap ≤ stageCap)
    (steps : List TransformStep) :
    ∀ stage ∈ unwinding stageCap data cap steps, stage.length ≤ stageCap := by
  induction steps generalizing cap with
  | nil =>
      intro stage member
      cases member
  | cons s steps ih =>
      intro stage member
      rw [unwinding, List.mem_append] at member
      rcases member with earlier | last
      · exact ih (Nat.le_refl _) stage earlier
      · cases run : invertSteps stageCap data cap (s :: steps) with
        | error failure =>
            rw [run] at last
            cases last
        | ok out =>
            rw [run] at last
            obtain rfl := List.mem_singleton.mp last
            have bound := length_invertSteps_le word start run
            rw [if_neg (List.cons_ne_nil _ _)] at bound
            exact bound.trans below

theorem unwinding_getLast {stageCap cap : Nat} {data out : Bytes} {s : TransformStep}
    {steps : List TransformStep} (run : invertSteps stageCap data cap (s :: steps) = .ok out) :
    (unwinding stageCap data cap (s :: steps)).getLast? = some out := by
  rw [unwinding, run]
  exact List.getLast?_concat

/-! ## A whole restoration -/

variable (C : Codecs)

/-- The output of the codec and every stage after it, as far as the restoration gets. -/
def restoredStages (payload : Bytes) (codecId : Codec) (steps : List TransformStep)
    (dict : Option Bytes) (expectedLen : Option Nat) (maxOut : Nat) : List Bytes :=
  let finalCap := expectedLen.elim maxOut (min · maxOut)
  let stageCap := stageSlack finalCap
  let codecCap := if steps.isEmpty then finalCap else stageCap
  let hint := ((steps.getLast?.map (·.inputLen)).filter (· ≠ 0)).or expectedLen
  match decodeLimited C payload codecId dict hint codecCap with
  | .error _ => []
  | .ok staged => staged :: unwinding stageCap staged finalCap steps

theorem finalCap_le_stageSlack {n : Nat} : min n maxDecompressed ≤ stageSlack n := by
  unfold stageSlack saturatingAdd maxDecompressed
  omega

variable {C} {payload : Bytes} {codecId : Codec} {steps : List TransformStep}
  {dict : Option Bytes} {expectedLen : Option Nat} {maxOut : Nat}

theorem length_decodeLimited_le {hint : Option Nat} {finalCap : Nat} {staged : Bytes}
    (decoded : decodeLimited C payload codecId dict hint
      (if steps.isEmpty then finalCap else stageSlack finalCap) = .ok staged) :
    staged.length ≤ stageSlack finalCap := by
  have bound := decodeLimited_length C payload codecId dict hint _ staged decoded
  split at bound
  · exact bound.trans finalCap_le_stageSlack
  · exact bound.trans (Nat.min_le_left _ _)

theorem restoreLimited_eq_ok {out : Bytes}
    (restored : restoreLimited C payload codecId steps dict expectedLen maxOut = .ok out) :
    out.length ≤ expectedLen.elim maxOut (min · maxOut) ∧
      (restoredStages C payload codecId steps dict expectedLen maxOut).getLast? = some out := by
  obtain ⟨short, restored⟩ := rejectIf_bind_eq_ok.mp restored
  obtain ⟨staged, decoded, inverted⟩ := bind_eq_ok.mp restored
  simp only [restoredStages, decoded]
  have word := stageSlack_lt (expectedLen.elim maxOut (min · maxOut))
  have start := length_decodeLimited_le decoded
  rw [invertChainLimited_of_short _ _ _ _ (Nat.le_of_not_lt short)] at inverted
  cases steps with
  | nil =>
      obtain ⟨fits, equal⟩ := rejectIf_bind_eq_ok.mp inverted
      obtain rfl := Except.ok.inj equal
      exact ⟨Nat.le_of_not_lt fits, rfl⟩
  | cons s rest =>
      rw [List.isEmpty_cons, if_neg Bool.false_ne_true] at inverted
      have bound := length_invertSteps_le word start inverted
      rw [if_neg (List.cons_ne_nil _ _)] at bound
      refine ⟨bound, ?_⟩
      rw [List.getLast?_cons, unwinding_getLast inverted]
      rfl

theorem finalCap_lt (word : maxOut < 2 ^ 64) : expectedLen.elim maxOut (min · maxOut) < 2 ^ 64 := by
  cases expectedLen with
  | none => exact word
  | some n => exact (Nat.min_le_right _ _).trans_lt word

theorem length_restoredStages_le (word : maxOut < 2 ^ 64) :
    ∀ stage ∈ restoredStages C payload codecId steps dict expectedLen maxOut,
      stage.length ≤ stageSlack (expectedLen.elim maxOut (min · maxOut)) := by
  intro stage member
  simp only [restoredStages] at member
  split at member
  · cases member
  · rename_i staged decoded
    have start := length_decodeLimited_le decoded
    rcases List.mem_cons.mp member with rfl | later
    · exact start
    · exact length_unwinding_le (stageSlack_lt _) start (le_stageSlack _ (finalCap_lt word)) steps
        stage later

end Syntra

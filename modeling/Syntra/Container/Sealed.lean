import Syntra.Container
import Syntra.Planner.Restore

/-!
# Restoring what was sealed

A sealed envelope gives its data back exactly when the stages of its chain fit,
whoever resolves the dictionary.  The check before a write says the same of the
plan in memory.
-/

set_option autoImplicit false

namespace Syntra

open Fallible

variable {P : Platform}

theorem Executed.codec_specified {C : Codecs} {data : Bytes} {dict : Option Bytes}
    {planned : Planned} (executed : Executed C data dict planned) :
    planned.plan.codec ≠ .unspecified := by
  obtain ⟨plan, -, -, ran, same, -⟩ := executed
  obtain ⟨staged, -, encoded⟩ := (execute_eq_ok C).mp ran
  intro unspecified
  rw [← same, unspecified] at encoded
  simp [encode] at encoded

theorem Executed.stagesFit_empty {C : Codecs} {dict : Option Bytes} {planned : Planned}
    (executed : Executed C [] dict planned) (cap : Nat) :
    StagesFit cap [] planned.plan.transforms := by
  obtain ⟨plan, -, empty, ran, -⟩ := executed
  obtain ⟨staged, chain, -⟩ := (execute_eq_ok C).mp ran
  rw [empty rfl, applyChain, Except.ok.injEq, Prod.mk.injEq] at chain
  rw [← chain.2]
  exact ⟨by simp [stages], by simp [stages]⟩

/-- The inverse of what was chosen, from the chain that was recorded. -/
theorem Executed.restoreLimited_iff (trusted : P.codecs.RoundTrip) {data : Bytes}
    {dict : Option Bytes} {planned : Planned} (executed : Executed P.codecs data dict planned)
    (expectedLen : Option Nat) (maxOut : Nat) (restored : Bytes) :
    restoreLimited P.codecs planned.payload planned.plan.codec planned.plan.transforms
        (if planned.plan.useDictionary then dict else none) expectedLen maxOut = .ok restored ↔
      restored = data ∧ data.length ≤ expectedLen.elim maxOut (min · maxOut) ∧
        StagesFit (stageSlack (expectedLen.elim maxOut (min · maxOut))) data
          planned.plan.transforms := by
  obtain ⟨plan, few, empty, ran, codec, useDictionary⟩ := executed
  obtain ⟨staged, chain, -⟩ := (execute_eq_ok P.codecs).mp ran
  have inverse := restoreLimited_execute trusted true expectedLen maxOut restored
    (few.trans (by decide)) ran
  rw [keepLen_true] at inverse
  rw [codec, useDictionary, inverse]
  refine and_congr_right fun _ => and_congr_right fun _ => ?_
  constructor
  · rintro ⟨within, decodable⟩
    exact ⟨by rwa [stages_recorded chain], by rwa [stages_recorded chain]⟩
  · rintro ⟨within, decodable⟩
    rw [stages_recorded chain] at within decodable
    exact ⟨within, decodable⟩

/-- The check before a write passes only when the stages fit. -/
theorem stagesFit_of_verifyRoundtrip (trusted : P.codecs.RoundTrip) {data : Bytes}
    {dict : Option Bytes} {planned : Planned} (executed : Executed P.codecs data dict planned)
    (verified : verifyRoundtrip P planned data dict = .ok ()) :
    StagesFit (stageSlack data.length) data planned.plan.transforms := by
  rw [verifyRoundtrip, restore] at verified
  cases run : restoreLimited P.codecs planned.payload planned.plan.codec planned.plan.transforms
      (if planned.plan.useDictionary then dict else none) (some data.length) maxDecompressed with
  | error e =>
      rw [run] at verified
      cases verified
  | ok back =>
      obtain ⟨-, fits, stagesFit⟩ := (executed.restoreLimited_iff trusted _ _ _).mp run
      rw [Option.elim_some] at fits stagesFit
      rwa [Nat.min_eq_left (fits.trans (Nat.min_le_right _ _))] at stagesFit

/-! ## The envelope -/

theorem envelopeCodec_build (planned : Planned) (profile : ContentProfile) (name : String)
    (hash : Digest) (dict : Option Dictionary) (compressMs : F64) (verified : Bool)
    (verifyMs : F64) (now : Int) (specified : planned.plan.codec ≠ .unspecified) :
    envelopeCodec (build P planned profile name hash dict compressMs verified verifyMs now) =
      .ok (planned.plan.codec, planned.plan.transforms) := by
  simp only [envelopeCodec, build, containerVersion, le_refl, if_true, Codec.tryFrom_toI32]

theorem resolveDictionary_build (planned : Planned) (profile : ContentProfile) (name : String)
    (hash : Digest) (dict : Option Dictionary) (compressMs : F64) (verified : Bool)
    (verifyMs : F64) (now : Int) (resolver : String → Option Dictionary)
    (resolves : ∀ d, dict = some d → d.id ≠ "" ∧ resolver d.id = some d) :
    resolveDictionary (build P planned profile name hash dict compressMs verified verifyMs now)
      resolver = .ok (if planned.plan.useDictionary then dict else none) := by
  by_cases uses : planned.plan.useDictionary = true
  · cases dict with
    | none => simp [resolveDictionary, envelopeDictionaryId, build]
    | some d =>
        obtain ⟨named, found⟩ := resolves d rfl
        simp [resolveDictionary, envelopeDictionaryId, build, uses, named, found]
  · simp [resolveDictionary, envelopeDictionaryId, build, uses]

def declaredLen (envelope : ProcessedFile) : Option Nat :=
  if envelope.originalSize ≠ 0 then some envelope.originalSize else none

theorem restoreWithLimit_eq_ok {envelope : ProcessedFile} {resolver : String → Option Dictionary}
    {maxOut : Nat} {dict : Option Dictionary} {codec : Codec} {transforms : List TransformStep}
    (found : resolveDictionary envelope resolver = .ok dict)
    (decoded : envelopeCodec envelope = .ok (codec, transforms)) (restored : Restored) :
    restoreWithLimit P envelope resolver maxOut = .ok restored ↔
      restoreLimited P.codecs envelope.data codec transforms (dict.map (·.bytes))
          (declaredLen envelope) maxOut = .ok restored.data ∧
        checkFidelity P envelope restored.data = .ok restored.fidelityChecked ∧
        ¬ (envelope.originalSize ≠ 0 ∧ restored.data.length ≠ envelope.originalSize) := by
  rw [restoreWithLimit, found, decoded, ok_bind, ok_bind]
  simp only [bind_eq_ok, mapError_eq_ok, rejectIf_eq_ok, Except.ok.injEq]
  constructor
  · rintro ⟨data, run, checked, fidelity, -, sized, rfl⟩
    exact ⟨run, fidelity, sized⟩
  · rintro ⟨run, fidelity, sized⟩
    exact ⟨_, run, _, fidelity, ⟨⟩, sized, rfl⟩

theorem envelopeCodec_plain {envelope : ProcessedFile} (plain : envelope.transforms = [])
    {codec : Codec} {transforms : List TransformStep}
    (decoded : envelopeCodec envelope = .ok (codec, transforms)) : transforms = [] := by
  unfold envelopeCodec at decoded
  split at decoded
  · split at decoded
    · cases decoded
    · cases decoded
    · cases decoded
      exact plain
  · split at decoded
    · cases decoded
    · cases decoded
      rfl

theorem restoreWithLimit_plain {envelope : ProcessedFile} (plain : envelope.transforms = [])
    {resolver : String → Option Dictionary} {maxOut : Nat} {restored : Restored}
    (run : restoreWithLimit P envelope resolver maxOut = .ok restored) :
    restored.data.length ≤ maxDecompressed := by
  obtain ⟨dict, found, rest⟩ := bind_eq_ok.mp run
  obtain ⟨⟨codec, transforms⟩, decoded, -⟩ := bind_eq_ok.mp rest
  obtain ⟨restores, -⟩ := (restoreWithLimit_eq_ok found decoded restored).mp run
  obtain rfl := envelopeCodec_plain plain decoded
  obtain ⟨-, restores⟩ := rejectIf_bind_eq_ok.mp restores
  obtain ⟨staged, read, inverted⟩ := bind_eq_ok.mp restores
  obtain ⟨-, inverted⟩ := rejectIf_bind_eq_ok.mp inverted
  obtain ⟨-, -, same⟩ := bind_eq_ok.mp inverted
  obtain rfl := Except.ok.inj same
  exact (decodeLimited_length P.codecs _ _ _ _ _ _ read).trans (Nat.min_le_right _ _)

theorem restoreWithLimit_build (trusted : P.codecs.RoundTrip) {data : Bytes}
    {dict : Option Dictionary} {planned : Planned}
    (executed : Executed P.codecs data (dict.map (·.bytes)) planned) (profile : ContentProfile)
    (size : profile.size = data.length) (name : String) (compressMs : F64) (verified : Bool)
    (verifyMs : F64) (now : Int) (resolver : String → Option Dictionary)
    (resolves : ∀ d, dict = some d → d.id ≠ "" ∧ resolver d.id = some d) (maxOut : Nat)
    (room : data.length ≤ maxOut) :
    (∃ restored, restoreWithLimit P (build P planned profile name (P.blake3 data) dict compressMs
        verified verifyMs now) resolver maxOut = .ok restored ∧ restored.data = data) ↔
      StagesFit (stageSlack data.length) data planned.plan.transforms := by
  have codec := envelopeCodec_build (P := P) planned profile name (P.blake3 data) dict compressMs
    verified verifyMs now executed.codec_specified
  have found := resolveDictionary_build (P := P) planned profile name (P.blake3 data) dict
    compressMs verified verifyMs now resolver resolves
  generalize built : build P planned profile name (P.blake3 data) dict compressMs verified
    verifyMs now = envelope at codec found ⊢
  have payload : envelope.data = planned.payload := by rw [← built]; rfl
  have hash : envelope.fileHash = (P.blake3 data).val := by rw [← built]; rfl
  have declared : envelope.originalSize = data.length := by rw [← built, ← size]; rfl
  have dictBytes : (if planned.plan.useDictionary then dict else none).map (·.bytes) =
      if planned.plan.useDictionary then dict.map (·.bytes) else none := by
    split <;> rfl
  have fidelity : checkFidelity P envelope data = .ok true := by
    simp [checkFidelity, hash, (P.blake3 data).property]
  have inverse := executed.restoreLimited_iff trusted (declaredLen envelope) maxOut data
  -- an empty input declares no size, and is restored under any
  have fit : (data.length ≤ (declaredLen envelope).elim maxOut (min · maxOut) ∧
      StagesFit (stageSlack ((declaredLen envelope).elim maxOut (min · maxOut))) data
        planned.plan.transforms) ↔
      StagesFit (stageSlack data.length) data planned.plan.transforms := by
    rw [declaredLen, declared]
    split
    · rw [Option.elim_some, Nat.min_eq_left room]
      exact and_iff_right (le_refl _)
    · rename_i empty
      obtain rfl := List.eq_nil_of_length_eq_zero (not_not.mp empty)
      exact ⟨fun _ => executed.stagesFit_empty _, fun _ => ⟨room, executed.stagesFit_empty _⟩⟩
  rw [eq_self, true_and, fit, ← payload, ← dictBytes] at inverse
  rw [← inverse]
  constructor
  · rintro ⟨restored, run, rfl⟩
    exact ((restoreWithLimit_eq_ok found codec restored).mp run).1
  · intro run
    refine ⟨{ data, fidelityChecked := true }, ?_, rfl⟩
    exact (restoreWithLimit_eq_ok found codec _).mpr ⟨run, fidelity, fun sized => sized.2 declared.symm⟩

end Syntra

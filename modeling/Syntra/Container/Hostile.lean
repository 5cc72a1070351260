import Syntra.Codec.Indexed
import Syntra.Container.Sealed
import Syntra.FramingPlatform
import Syntra.Planner.Capped
import Syntra.Transform.Backward

/-!
# Hostile envelopes

Restoring an envelope whose fields anyone may have chosen: what comes back is
what the envelope declares, no stage on the way is longer than its slack, and no
declared size makes the arithmetic overflow.
-/

set_option autoImplicit false

namespace Syntra

open Fallible Machine

namespace Indexed

def restoreLimited (C : Codecs) (payload : Bytes) (codecId : Codec) (steps : List TransformStep)
    (dict : Option Bytes) (expectedLen : Option Nat) (maxOut : Nat) :
    Run (Failure IoError) Bytes := do
  within (lift (rejectIf (maxChain < steps.length)
    (.invalidData s!"cadeia de {steps.length} transforms excede o máximo de {maxChain}")))
  let finalCap := expectedLen.elim maxOut (min · maxOut)
  let stageCap := stageSlack finalCap
  let codecCap := if steps.isEmpty then finalCap else stageCap
  let hint := ((steps.getLast?.map (·.inputLen)).filter (· ≠ 0)).or expectedLen
  let staged ← within (decodeLimited C payload codecId dict hint codecCap)
  invertChainLimited staged steps stageCap finalCap

def restoreWithLimit (P : Platform) (envelope : ProcessedFile)
    (resolver : String → Option Dictionary) (maxOut : Nat) :
    Run (Failure ContainerError) Restored := do
  let dict ← within (lift (resolveDictionary envelope resolver))
  let (codecId, transforms) ← within (lift (envelopeCodec envelope))
  let declared := if envelope.originalSize ≠ 0 then some envelope.originalSize else none
  let data ← (restoreLimited P.codecs envelope.data codecId transforms (dict.map (·.bytes))
    declared maxOut).mapError (Stop.map (Failure.map restoreError))
  let fidelityChecked ← within (lift (checkFidelity P envelope data))
  within (lift (rejectIf (envelope.originalSize ≠ 0 ∧ data.length ≠ envelope.originalSize)
    (.malformed
      s!"tamanho reconstruído ({data.length}) difere do declarado ({envelope.originalSize})")))
  .ok { data, fidelityChecked }

theorem decodeLimited_tracks (C : Codecs) (data : Bytes) (codec : Codec) (dict : Option Bytes)
    (expectedLen : Option Nat) (maxOut : Nat) :
    Tracks SameVector (within (decodeLimited C data codec dict expectedLen maxOut))
      (Syntra.decodeLimited C data codec dict expectedLen maxOut) := by
  rw [decodeLimited_eq]
  apply (Tracks.within (Follows.lift _)).imp
  rintro got _ ⟨rfl, decoded⟩
  have bound := decodeLimited_length C data codec dict expectedLen maxOut got decoded
  refine ⟨rfl, ?_⟩
  simp only [maxDecompressed] at bound
  omega

theorem restoreLimited_tracks (C : Codecs) (payload : Bytes) (codecId : Codec)
    (steps : List TransformStep) (dict : Option Bytes) (expectedLen : Option Nat) (maxOut : Nat) :
    Tracks SameVector (restoreLimited C payload codecId steps dict expectedLen maxOut)
      (Syntra.restoreLimited C payload codecId steps dict expectedLen maxOut) := by
  apply Tracks.bind (check_tracks _)
  intro _ _ _
  apply Tracks.bind (decodeLimited_tracks _ _ _ _ _ _)
  rintro staged _ ⟨rfl, fits⟩
  exact invertChainLimited_tracks fits steps _ _

theorem restoreWithLimit_tracks (P : Platform) (envelope : ProcessedFile)
    (resolver : String → Option Dictionary) (maxOut : Nat) :
    Tracks (fun got value => got = value) (restoreWithLimit P envelope resolver maxOut)
      (Syntra.restoreWithLimit P envelope resolver maxOut) := by
  apply Tracks.bind (Tracks.within (Follows.lift _))
  rintro dict _ ⟨rfl, -⟩
  apply Tracks.bind (Tracks.within (Follows.lift _))
  rintro ⟨codecId, transforms⟩ _ ⟨rfl, -⟩
  apply Tracks.bind (Tracks.mapError (restoreLimited_tracks _ _ _ _ _ _ _))
  rintro data _ ⟨rfl, -⟩
  apply Tracks.bind (Tracks.within (Follows.lift _))
  rintro fidelityChecked _ ⟨rfl, -⟩
  apply Tracks.bind (check_tracks _)
  intro _ _ _
  exact Tracks.ok rfl

end Indexed

theorem checkFidelity_eq_ok {P : Platform} {envelope : ProcessedFile} {data : Bytes}
    {fidelityChecked : Bool} (checked : checkFidelity P envelope data = .ok fidelityChecked)
    (hashed : envelope.fileHash.length = 32) :
    (P.blake3 data).val = envelope.fileHash ∧ fidelityChecked = true := by
  rw [checkFidelity, if_pos hashed] at checked
  split at checked
  · cases checked
  · rename_i same
    exact ⟨not_not.mp same, (Except.ok.inj checked).symm⟩

theorem finalCap_le (expectedLen : Option Nat) (maxOut : Nat) :
    expectedLen.elim maxOut (min · maxOut) ≤ maxOut := by
  cases expectedLen with
  | none => exact Nat.le_refl _
  | some n => exact Nat.min_le_right _ _

/-- Whatever an envelope declares: the data that comes back is within the ceiling and has the
length and the hash that are declared, every stage is within the slack of the final figure, and
the restoration ends without an overflow. -/
theorem restoreWithLimit_contained (P : Platform) (envelope : ProcessedFile)
    (resolver : String → Option Dictionary) (maxOut : Nat) (word : maxOut < 2 ^ 64) :
    (∀ restored, restoreWithLimit P envelope resolver maxOut = .ok restored →
        restored.data.length ≤ maxOut ∧
          (envelope.originalSize ≠ 0 → restored.data.length = envelope.originalSize) ∧
          (envelope.fileHash.length = 32 →
            (P.blake3 restored.data).val = envelope.fileHash ∧ restored.fidelityChecked = true)) ∧
      (∀ payload codec steps dict expectedLen,
        (∀ out, restoreLimited P.codecs payload codec steps dict expectedLen maxOut = .ok out →
          out.length ≤ expectedLen.elim maxOut (min · maxOut)) ∧
        ∀ stage ∈ restoredStages P.codecs payload codec steps dict expectedLen maxOut,
          stage.length ≤ stageSlack (expectedLen.elim maxOut (min · maxOut))) ∧
      Indexed.restoreWithLimit P envelope resolver maxOut ≠ .error .panic ∧
      (Indexed.restoreWithLimit P envelope resolver maxOut = .error (.fail .outOfMemory) ∨
        Indexed.restoreWithLimit P envelope resolver maxOut =
          lift ((restoreWithLimit P envelope resolver maxOut).mapError .error)) := by
  have tracks := Indexed.restoreWithLimit_tracks P envelope resolver maxOut
  refine ⟨?_, ?_, tracks.no_panic, tracks.eq_or⟩
  · intro restored run
    obtain ⟨dict, found, rest⟩ := bind_eq_ok.mp run
    obtain ⟨⟨codec, transforms⟩, decoded, -⟩ := bind_eq_ok.mp rest
    obtain ⟨restores, fidelity, sized⟩ := (restoreWithLimit_eq_ok found decoded restored).mp run
    obtain ⟨bound, -⟩ := restoreLimited_eq_ok restores
    refine ⟨bound.trans (finalCap_le _ _), ?_, checkFidelity_eq_ok fidelity⟩
    intro declared
    by_contra differ
    exact sized ⟨declared, differ⟩
  · intro payload codec steps dict expectedLen
    exact ⟨fun out run => (restoreLimited_eq_ok run).1, length_restoredStages_le word⟩

/-- Two bytes of Rle that stand for 128, in an envelope that declares 2^64 - 1. -/
def hostileEnvelope : ProcessedFile :=
  { version := 3, originalName := "", originalNames := [], originalMime := ""
    originalSize := 2 ^ 64 - 1, processedSize := 2, savingsPct := 0, algorithm := 0
    compressionLevel := 0, dictionaryId := "", data := [129, 7], blocks := [], fileMetrics := none
    pointerTo := "", fileHash := [], refCount := 1, envelopeChecksum := 0, createdAt := 0
    updatedAt := 0, codec := Codec.stored.toI32, codecLevel := 0
    transforms := [step .rle 1 (2 ^ 64 - 1)], dictionary := none, contentClass := ""
    planReason := "", verified := false }

theorem restoreWithLimit_contained_hostile :
    Indexed.restoreWithLimit framingPlatform hostileEnvelope (fun _ => none) (2 ^ 64 - 1) ≠
      .error .panic :=
  (restoreWithLimit_contained framingPlatform hostileEnvelope (fun _ => none) (2 ^ 64 - 1)
    (by decide)).2.2.1

end Syntra

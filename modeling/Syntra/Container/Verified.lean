import Syntra.Container.Sealed
import Syntra.DictStore.Hostile
import Syntra.Planner.Wider

/-!
# What the check before a write promises

The check restores the plan in memory under the size of its data.  The envelope
that is written restores under limits at least as large, so it gives the same
data back.
-/

set_option autoImplicit false

namespace Syntra

open Fallible Text

variable {P : Platform}

theorem Dictionary.Genuine.named_some {id : String} {dict : Dictionary}
    (genuine : Dictionary.Genuine P id dict) : id ≠ "" := by
  rintro rfl
  have ending := List.isSuffixOf_iff_suffix.mp genuine.suffix
  have length := ending.length_le
  rw [length_digestSuffix] at length
  exact absurd length (by decide)

/-- The check runs the decoder of the payload, and what it gives back is the original. -/
theorem verifyRoundtrip_eq_ok {planned : Planned} {original : Bytes} {dict : Option Bytes}
    (checked : verifyRoundtrip P planned original dict = .ok ()) :
    restore P.codecs planned.payload planned.plan.codec planned.plan.transforms
      (if planned.plan.useDictionary then dict else none) (some original.length) =
        .ok original := by
  obtain ⟨back, restored, compared⟩ := bind_eq_ok.mp checked
  rw [rejectIf_eq_ok, not_not] at compared
  rw [mapError_eq_ok, compared] at restored
  exact restored

theorem codec_specified_of_restore {payload : Bytes} {codec : Codec}
    {steps : List TransformStep} {dict : Option Bytes} {expectedLen : Option Nat} {data : Bytes}
    (restored : restore P.codecs payload codec steps dict expectedLen = .ok data) :
    codec ≠ .unspecified := by
  rintro rfl
  obtain ⟨-, decodes⟩ := rejectIf_bind_eq_ok.mp restored
  obtain ⟨staged, decoded, -⟩ := bind_eq_ok.mp decodes
  cases decoded

/-- What passed the check before it was sealed is parsed and restored, and its hash compared,
under any limit that the data fits. -/
theorem verified_restores (P : Platform)
    (framed : ∀ file, P.decodeFile (P.encodeFile file) = .ok file)
    (windows : P.codecs.WindowsOnlyRefuse) (planned : Planned) (data : Bytes)
    (profile : ContentProfile) (size : profile.size = data.length) (name : String)
    (dict : Option Dictionary) (genuine : ∀ d, dict = some d → Dictionary.Genuine P d.id d)
    (compressMs : F64) (verified : Bool) (verifyMs : F64) (now : Int)
    (checked : verifyRoundtrip P planned data (dict.map (·.bytes)) = .ok ())
    (resolver : String → Option Dictionary) (resolves : ∀ d, dict = some d → resolver d.id = some d)
    (maxOut : Nat) (room : data.length ≤ maxOut) :
    ∃ envelope,
      parse P (sealEnvelope P (build P planned profile name (P.blake3 data) dict compressMs
        verified verifyMs now)).bytes = .ok envelope ∧
      restoreWithLimit P envelope resolver maxOut = .ok { data, fidelityChecked := true } := by
  have restored := verifyRoundtrip_eq_ok checked
  have codec := envelopeCodec_build (P := P) planned profile name (P.blake3 data) dict compressMs
    verified verifyMs now (codec_specified_of_restore restored)
  have found := resolveDictionary_build (P := P) planned profile name (P.blake3 data) dict
    compressMs verified verifyMs now resolver
    fun d given => ⟨(genuine d given).named_some, resolves d given⟩
  have declared : (build P planned profile name (P.blake3 data) dict compressMs verified verifyMs
      now).originalSize = data.length := size
  have dictBytes : (if planned.plan.useDictionary then dict else none).map (·.bytes) =
      if planned.plan.useDictionary then dict.map (·.bytes) else none := by
    split <;> rfl
  refine ⟨_, parse_sealEnvelope P _ framed, ?_⟩
  refine (restoreWithLimit_eq_ok found codec _).mpr ⟨?_, ?_, fun sized => sized.2 declared.symm⟩
  · rw [dictBytes]
    apply restoreLimited_wider windows _ _ _ _ _ _ restored
    -- an empty input declares no size, so any limit applies
    rw [declaredLen, declared]
    split
    · rw [Option.elim_some, Option.elim_some, Nat.min_eq_left room]
      exact Nat.min_le_left _ _
    · rename_i empty
      rw [not_not.mp empty, Option.elim_some, Nat.zero_min]
      exact Nat.zero_le _
  · simp [checkFidelity, build, (P.blake3 data).property]

theorem framingCodecs_windowsOnlyRefuse : framingCodecs.WindowsOnlyRefuse :=
  fun _ _ _ _ pieces _ _ _ _ _ made read => ⟨pieces, made, read⟩

def oneDictionary : Dictionary := .new framingPlatform "text" [1]

/-- The byte 1 through Delta, Rle and Zstd with a dictionary. -/
def onePlanned : Planned :=
  { plan := (Plan.new .zstd 3).dict.withSteps [(.delta, 1), (.rle, 0)]
    payload := [0, 0, 1], candidatesTried := 1, sampledDecision := false, reason := "" }

theorem verified_restores_oneByte :
    ∃ envelope,
      parse framingPlatform (sealEnvelope framingPlatform (build framingPlatform onePlanned
        (classify noFloats (fun _ => none) [1] "a.bin" none) "a.bin" (framingPlatform.blake3 [1])
        (some oneDictionary) 0 true 0 7)).bytes = .ok envelope ∧
      restoreWithLimit framingPlatform envelope (fun _ => some oneDictionary) 1 =
        .ok { data := [1], fidelityChecked := true } :=
  verified_restores framingPlatform framingPlatform_decodeFile framingCodecs_windowsOnlyRefuse
    onePlanned [1] _ rfl "a.bin" (some oneDictionary)
    (by rintro d ⟨⟩; exact Dictionary.Genuine.new _ _) 0 true 0 7 (by decide +kernel)
    (fun _ => some oneDictionary) (by rintro d ⟨⟩; rfl) 1 (le_refl 1)

end Syntra

import Syntra.Planner.Plan

/-!
# Wider limits

What is decoded and inverted under limits comes out unchanged when the limits
are larger, and whatever length is expected.
-/

set_option autoImplicit false

namespace Syntra

open Fallible

/-! ## Reading -/

theorem readCapped_wider {small large : Nat} (wider : small ≤ large) (pieces : List Piece)
    {out out' final : OutBuf} (same : out.bytes = out'.bytes)
    (read : readCapped small pieces out = .ok final) :
    ∃ final', readCapped large pieces out' = .ok final' ∧ final'.bytes = final.bytes := by
  induction pieces generalizing out out' with
  | nil =>
      obtain rfl := Except.ok.inj read
      exact ⟨out', rfl, same.symm⟩
  | cons piece pieces ih =>
      cases piece with
      | failed failure => cases read
      | interrupted => exact ih same read
      | bytes chunk =>
          rw [readCapped] at read ⊢
          rw [← same]
          split at read
          · rename_i ended
            obtain rfl := Except.ok.inj read
            exact ⟨out', if_pos ended, same.symm⟩
          · rename_i going
            rw [if_neg going]
            split at read
            · cases read
            · rw [if_neg (by omega)]
              apply ih _ read
              simp only [OutBuf.extend, growWithin_bytes, same]

theorem sinkWrites_wider {small large : Nat} (wider : small ≤ large) (chunks : List Bytes)
    {out out' final : OutBuf} (same : out.bytes = out'.bytes)
    (written : sinkWrites small chunks out = some final) :
    ∃ final', sinkWrites large chunks out' = some final' ∧ final'.bytes = final.bytes := by
  induction chunks generalizing out out' with
  | nil =>
      obtain rfl := Option.some.inj written
      exact ⟨out', rfl, same.symm⟩
  | cons chunk chunks ih =>
      rw [sinkWrites] at written ⊢
      rw [← same]
      split at written
      · cases written
      · rw [if_neg (by omega)]
        apply ih _ written
        simp only [OutBuf.extend, growWithin_bytes, same]

theorem withCapacity_bytes (capacity capacity' : Nat) :
    (OutBuf.withCapacity capacity).bytes = (OutBuf.withCapacity capacity').bytes := rfl

theorem readCapped_bytes_wider {small large : Nat} (wider : small ≤ large) (pieces : List Piece)
    (capacity capacity' : Nat) :
    Widens (readCapped small pieces (OutBuf.withCapacity capacity) >>= fun out => .ok out.bytes)
      (readCapped large pieces (OutBuf.withCapacity capacity') >>= fun out => .ok out.bytes) := by
  intro bytes success
  obtain ⟨final, read, equal⟩ := bind_eq_ok.mp success
  obtain rfl := Except.ok.inj equal
  obtain ⟨final', read', same⟩ := readCapped_wider wider pieces
    (withCapacity_bytes capacity capacity') read
  rw [read', ok_bind, same]

/-! ## Zstd frames -/

theorem log2_mono {small large : Nat} (wider : small ≤ large) : small.log2 ≤ large.log2 := by
  by_cases positive : small = 0
  · rw [positive]
    exact Nat.zero_le _
  · rw [Nat.le_log2 (by omega)]
    exact (Nat.log2_self_le positive).trans wider

theorem zstdWindowLogMax_mono {small large : Nat} (wider : small ≤ large) :
    zstdWindowLogMax small ≤ zstdWindowLogMax large := by
  have grows : (small - 1).log2 ≤ (large - 1).log2 := log2_mono (by omega)
  unfold zstdWindowLogMax
  dsimp only
  apply max_le_max (Nat.le_refl _)
  apply min_le_min (Nat.le_refl _)
  split <;> split <;> omega

theorem zstdWindowLogMax_le (limit : Nat) : zstdWindowLogMax limit ≤ zstdWindowLogCeiling :=
  max_le (by decide) (Nat.min_le_left _ _)

variable {C : Codecs}

theorem checkZstdWindows_wider {small large : Nat} (wider : small ≤ large) (data : Bytes) :
    Widens (checkZstdWindows C data small) (checkZstdWindows C data large) := by
  have window : 1 <<< small ≤ 1 <<< large := by
    rw [Nat.one_shiftLeft, Nat.one_shiftLeft]
    exact Nat.pow_le_pow_right (by decide) wider
  induction length : data.length using Nat.strong_induction_on generalizing data with
  | _ n ih =>
      intro _ passed
      rw [checkZstdWindows] at passed ⊢
      split at passed
      · rename_i empty
        rw [if_pos empty]
      · rename_i filled
        rw [if_neg filled]
        split at passed
        · cases passed
        · rename_i admitted
          have still : ¬ (zstdFrameWindow data).any (fun window => 1 <<< large < window) = true := by
            intro refused
            apply admitted
            rw [Option.any_eq_true] at refused ⊢
            obtain ⟨window, found, exceeds⟩ := refused
            refine ⟨window, found, ?_⟩
            rw [decide_eq_true_eq] at exceeds ⊢
            omega
          rw [if_neg still]
          cases frame : C.zstdFrameCompressedSize data with
          | error e => rfl
          | ok len =>
              simp only [frame] at passed ⊢
              split at passed
              · rename_i inside
                rw [if_pos inside]
                apply ih (data.drop len).length _ _ rfl _ passed
                rw [List.length_drop]
                omega
              · rename_i outside
                rw [if_neg outside]

/-- The documented behaviour of the zstd decoder: a limit on windows, of those it has,
only refuses frames, and what was read to its end under one is read under a larger one. -/
def Codecs.WindowsOnlyRefuse (C : Codecs) : Prop :=
  ∀ (dict : Option Bytes) (small large : Nat) (data : Bytes) (pieces : List Piece)
    (limit : Nat) (out final : OutBuf), small ≤ large → large ≤ zstdWindowLogCeiling →
    C.zstdDecoder dict small data = .ok pieces → readCapped limit pieces out = .ok final →
    ∃ pieces', C.zstdDecoder dict large data = .ok pieces' ∧
      readCapped limit pieces' out = .ok final

/-! ## Decoding -/

theorem decodeLimited_wider (windows : C.WindowsOnlyRefuse) {small large : Nat}
    (wider : small ≤ large) (data : Bytes) (codec : Codec) (dict : Option Bytes)
    (expectedLen expectedLen' : Option Nat) :
    Widens (decodeLimited C data codec dict expectedLen small)
      (decodeLimited C data codec dict expectedLen' large) := by
  have limits : min small maxDecompressed ≤ min large maxDecompressed :=
    min_le_min wider (Nat.le_refl _)
  cases codec with
  | stored => exact Widens.bind (Widens.rejectIf fun _ => by omega) fun _ _ => Widens.refl _
  | lz4 =>
      apply Widens.after
      rintro ⟨declared, body⟩
      exact Widens.bind (Widens.rejectIf fun _ => by omega) fun _ _ => Widens.refl _
  | zstd =>
      intro out success
      obtain ⟨_, declared, success⟩ := bind_eq_ok.mp success
      obtain ⟨_, checked, success⟩ := bind_eq_ok.mp success
      obtain ⟨pieces, made, success⟩ := bind_eq_ok.mp success
      obtain ⟨final, read, equal⟩ := bind_eq_ok.mp success
      obtain ⟨pieces', made', read'⟩ := windows _ _ _ data pieces _ _ final
        (zstdWindowLogMax_mono limits) (zstdWindowLogMax_le _) made read
      have whole := readCapped_bytes_wider limits pieces'
        (initialCapacity expectedLen (min small maxDecompressed) data.length)
        (initialCapacity expectedLen' (min large maxDecompressed) data.length) out
        (by rw [read', ok_bind]; exact equal)
      have content : checkZstdContentSize C data (min large maxDecompressed) = .ok () := by
        unfold checkZstdContentSize at declared ⊢
        split at declared
        · rw [rejectIf_eq_ok] at declared ⊢
          omega
        · rfl
      unfold decodeLimited
      dsimp only
      rw [content, ok_bind, checkZstdWindows_wider (zstdWindowLogMax_mono limits) data _ checked,
        ok_bind, made', ok_bind]
      exact whole
  | brotli =>
      intro out success
      unfold decodeLimited at success ⊢
      dsimp only at success ⊢
      split at success
      · cases success
      · rename_i final written
        obtain ⟨final', written', same⟩ := sinkWrites_wider limits _
          (withCapacity_bytes _ (initialCapacity expectedLen' (min large maxDecompressed)
            data.length)) written
        rw [written']
        dsimp only
        rw [same]
        exact success
  | xz => exact Widens.after _ fun pieces => readCapped_bytes_wider limits pieces _ _
  | bzip2 => exact readCapped_bytes_wider limits _ _ _
  | deflate => exact readCapped_bytes_wider limits _ _ _
  | unspecified =>
      intro out success
      cases success

/-! ## Inverting -/

theorem checkLen_wider {small large : Nat} (wider : small ≤ large) (len : Nat) :
    Widens (checkLen len small) (checkLen len large) :=
  Widens.rejectIf fun _ => by omega

theorem rleInvertFrom_wider {small large : Nat} (wider : small ≤ large) (out data : Bytes) :
    Widens (rleInvertFrom small out data) (rleInvertFrom large out data) := by
  induction length : data.length using Nat.strong_induction_on generalizing out data with
  | _ n ih =>
      cases data with
      | nil =>
          rw [rleInvertFrom, rleInvertFrom]
          exact Widens.refl _
      | cons ctrl rest =>
          rw [rleInvertFrom, rleInvertFrom]
          rw [List.length_cons] at length
          split
          · dsimp only
            split
            · exact Widens.refl _
            · apply Widens.bind (checkLen_wider wider _)
              intro _ _
              exact ih _ (by rw [List.length_drop]; omega) _ _ rfl
          · split
            · cases rest with
              | nil => exact Widens.refl _
              | cons b rest =>
                  rw [List.length_cons] at length
                  apply Widens.bind (checkLen_wider wider _)
                  intro _ _
                  exact ih _ (by omega) _ _ rfl
            · exact Widens.refl _

theorem csvInvert_wider {small large : Nat} (wider : small ≤ large) (data : Bytes) :
    Widens (csvInvert data small) (csvInvert data large) := by
  unfold csvInvert
  split
  · apply Widens.after
    intro _
    apply Widens.after
    rintro ⟨rows, rest⟩
    apply Widens.after
    rintro ⟨cols, rest⟩
    apply Widens.after
    intro _
    apply Widens.after
    intro total
    apply Widens.after
    intro _
    apply Widens.after
    rintro ⟨lens, payload, rest⟩
    apply Widens.after
    intro _
    apply Widens.after
    intro outLen
    exact Widens.bind (checkLen_wider wider outLen) fun _ _ => Widens.refl _
  · exact Widens.refl _

theorem produce_wider {small large : Nat} (wider : small ≤ large) (transform : Transform)
    (s : TransformStep) (data : Bytes) :
    Widens (produce transform s data small) (produce transform s data large) := by
  have checked : ∀ out : Bytes, Widens (checkLen data.length small >>= fun _ => .ok out)
      (checkLen data.length large >>= fun _ => .ok out) := fun out =>
    Widens.bind (checkLen_wider wider _) fun _ _ => Widens.refl _
  cases transform with
  | unspecified => exact checked data
  | delta => exact Widens.after _ fun width => checked (deltaInvert data width)
  | byteSplit => exact Widens.after _ fun width => checked (byteSplitInvert data width)
  | rle => exact rleInvertFrom_wider wider [] data
  | csvColumnar => exact csvInvert_wider wider data

theorem invertLimited_wider {small large : Nat} (wider : small ≤ large) (data : Bytes)
    (s : TransformStep) : Widens (invertLimited data s small) (invertLimited data s large) := by
  apply Widens.after
  intro transform out success
  have limits : (if s.inputLen ≠ 0 then min small s.inputLen else small) ≤
      if s.inputLen ≠ 0 then min large s.inputLen else large := by
    split <;> omega
  dsimp only at success ⊢
  cases made : produce transform s data (if s.inputLen ≠ 0 then min small s.inputLen else small) with
  | error failure =>
      rw [made] at success
      dsimp only at success
      split at success <;> cases success
  | ok produced =>
      rw [made] at success
      rw [produce_wider limits transform s data produced made]
      exact success

theorem invertSteps_wider {small large cap cap' : Nat} (wider : small ≤ large) (last : cap ≤ cap')
    (data : Bytes) (steps : List TransformStep) :
    Widens (invertSteps small data cap steps) (invertSteps large data cap' steps) := by
  induction steps generalizing cap cap' with
  | nil => exact Widens.refl _
  | cons s steps ih => exact Widens.bind (ih wider) fun staged _ => invertLimited_wider last staged s

theorem invertChainLimited_wider {small large cap cap' : Nat} (wider : small ≤ large)
    (last : cap ≤ cap') (data : Bytes) (steps : List TransformStep) :
    Widens (invertChainLimited data steps small cap) (invertChainLimited data steps large cap') := by
  apply Widens.after
  intro _
  split
  · exact Widens.bind (checkLen_wider last _) fun _ _ => Widens.refl _
  · exact invertSteps_wider wider last data steps

/-! ## Restoring -/

theorem stageSlack_mono {small large : Nat} (wider : small ≤ large) :
    stageSlack small ≤ stageSlack large := by
  unfold stageSlack saturatingAdd
  omega

/-- What is restored under a cap is restored under a larger one. -/
theorem restoreLimited_wider (windows : C.WindowsOnlyRefuse)
    {expectedLen expectedLen' : Option Nat} {maxOut maxOut' : Nat}
    (wider : expectedLen.elim maxOut (min · maxOut) ≤ expectedLen'.elim maxOut' (min · maxOut'))
    (payload : Bytes) (codec : Codec) (steps : List TransformStep) (dict : Option Bytes) :
    Widens (restoreLimited C payload codec steps dict expectedLen maxOut)
      (restoreLimited C payload codec steps dict expectedLen' maxOut') := by
  have stage := stageSlack_mono wider
  apply Widens.after
  intro _
  apply Widens.bind
  · apply decodeLimited_wider windows
    split
    · exact wider
    · exact stage
  · intro staged _
    exact invertChainLimited_wider stage wider staged steps

end Syntra

import Syntra.Codec
import Syntra.Lib.Machine

/-!
# Decoding under a limit, with its word arithmetic

`decode_limited` and what it calls, in which an overflow or a bad index is a
panic.  The figures come from the payload and the envelope; the checks before
each operation keep all of them in range.
-/

set_option autoImplicit false

namespace Syntra.Indexed

open Fallible Machine

/-! ## The zstd window -/

def leadingZeros (value : Nat) : Nat := if value = 0 then 64 else 63 - Nat.log2 value

def zstdWindowLogMax (limit : Nat) : Run IoError Nat := do
  let bits ← if limit ≤ 1 then .ok 0 else do
    let below ← sub limit 1
    sub 64 (leadingZeros below)
  .ok (max zstdWindowLogFloor (min zstdWindowLogCeiling bits))

/-- `size |= u64::from(byte) << (8 * i)`. -/
def sizeByte (raw : Bytes) (i size : Nat) : Run IoError Nat := do
  let byte ← index raw i
  let shift ← mul 64 8 i
  let part ← shiftLeft 64 byte.toNat shift
  .ok (size ||| part)

def dictIdLen (descriptor : UInt8) : Nat :=
  match (descriptor &&& 3).toNat with
  | 0 => 0
  | 1 => 1
  | 2 => 2
  | _ => 4

def sizeFieldLen (descriptor : UInt8) : Nat :=
  match (descriptor >>> 6).toNat with
  | 0 => 1
  | 1 => 2
  | 2 => 4
  | _ => 8

/-- The content size of a frame of one segment. -/
def zstdSizeField (frame : Bytes) (dictLen sizeLen : Nat) : Run IoError (Option Nat) := do
  let start ← add 64 5 dictLen
  let stop ← add 64 start sizeLen
  match getRange frame start stop with
  | none => .ok none
  | some raw =>
    let size ← loop (sizeByte raw) 0 raw.length 0
    if sizeLen = 2 then do
      let size ← add 64 size 256
      .ok (some size)
    else .ok (some size)

def zstdFrameWindow (frame : Bytes) : Run IoError (Option Nat) := do
  if frame.length < 6 then .ok none
  else
    let front ← slice frame 0 4
    if front ≠ zstdMagic then .ok none
    else
      let descriptor ← index frame 4
      if descriptor &&& 0x20 = 0 then do
        let byte ← index frame 5
        let shift ← add 32 10 (byte >>> 3).toNat
        let base ← shiftLeft 64 1 shift
        let part ← mul 64 (base / 8) (byte &&& 7).toNat
        let window ← add 64 base part
        .ok (some window)
      else zstdSizeField frame (dictIdLen descriptor) (sizeFieldLen descriptor)

theorem zstdWindowLogMax_eq {limit : Nat} (word : limit < 2 ^ 64) :
    zstdWindowLogMax limit = .ok (Syntra.zstdWindowLogMax limit) := by
  unfold zstdWindowLogMax Syntra.zstdWindowLogMax
  by_cases tiny : limit ≤ 1
  · rw [if_pos tiny, if_pos tiny]
    rfl
  · have positive : limit - 1 ≠ 0 := by omega
    have bits : Nat.log2 (limit - 1) < 64 := (Nat.log2_lt positive).mpr (by omega)
    rw [if_neg tiny, if_neg tiny, sub_eq (by omega), ok_bind, leadingZeros, if_neg positive,
      sub_eq (by omega), ok_bind]
    have count : 64 - (63 - Nat.log2 (limit - 1)) = Nat.log2 (limit - 1) + 1 := by omega
    rw [count]

theorem sizeLoop_eq {raw : Bytes} (few : raw.length ≤ 8) :
    loop (sizeByte raw) 0 raw.length 0 = .ok (LittleEndian.ofBytes raw) := by
  have turn : ∀ i size, i < raw.length → size = LittleEndian.ofBytes (raw.take i) →
      ∃ next, sizeByte raw i size = .ok next ∧ next = LittleEndian.ofBytes (raw.take (i + 1)) := by
    intro i size inside found
    have there := List.getElem?_eq_getElem inside
    have small := raw[i].toNat_lt
    have below : raw[i].toNat <<< (8 * i) < 2 ^ 64 := by
      rw [Nat.shiftLeft_eq]
      calc raw[i].toNat * 2 ^ (8 * i) < 2 ^ 8 * 2 ^ (8 * i) :=
            Nat.mul_lt_mul_of_pos_right small (Nat.two_pow_pos _)
        _ = 2 ^ (8 + 8 * i) := (Nat.pow_add 2 8 (8 * i)).symm
        _ ≤ 2 ^ 64 := Nat.pow_le_pow_right (by decide) (by omega)
    refine ⟨_, ?_, rfl⟩
    rw [sizeByte, index_eq there, ok_bind, mul_eq (by omega), ok_bind, shiftLeft_eq (by omega),
      ok_bind, Nat.mod_eq_of_lt below, found, List.take_add_one, there, Option.toList_some,
      LittleEndian.ofBytes_concat, List.length_take, Nat.min_eq_left inside.le]
  have start : 0 = LittleEndian.ofBytes (raw.take 0) := rfl
  obtain ⟨size, run, found⟩ := loop_zero_ok (fun i size => size = LittleEndian.ofBytes (raw.take i))
    turn start
  rw [run, found, List.take_length]

theorem windowByte_bounds (byte : UInt8) :
    (byte >>> 3).toNat ≤ 31 ∧ (byte &&& 7).toNat ≤ 7 := by
  constructor
  · have small := byte.toNat_lt
    rw [UInt8.toNat_shiftRight]
    have three : (3 : UInt8).toNat % 8 = 3 := rfl
    rw [three, Nat.shiftRight_eq_div_pow]
    omega
  · rw [UInt8.toNat_and]
    exact Nat.and_le_right

theorem dictIdLen_le (descriptor : UInt8) : dictIdLen descriptor ≤ 4 := by
  unfold dictIdLen
  split <;> omega

theorem sizeFieldLen_bounds (descriptor : UInt8) :
    0 < sizeFieldLen descriptor ∧ sizeFieldLen descriptor ≤ 8 := by
  unfold sizeFieldLen
  split <;> omega

theorem zstdSizeField_eq (frame : Bytes) {dictLen sizeLen : Nat} (dictFew : dictLen ≤ 4)
    (sizeFew : 0 < sizeLen ∧ sizeLen ≤ 8) :
    zstdSizeField frame dictLen sizeLen =
      .ok (let raw := (frame.drop (5 + dictLen)).take sizeLen
        if raw.length < sizeLen then none
        else
          let size := LittleEndian.ofBytes raw
          some (if sizeLen = 2 then size + 256 else size)) := by
  have sized : ((frame.drop (5 + dictLen)).take sizeLen).length =
      min sizeLen (frame.length - (5 + dictLen)) := by
    rw [List.length_take, List.length_drop]
  rw [zstdSizeField, add_eq (by omega), ok_bind, add_eq (by omega), ok_bind]
  by_cases inside : 5 + dictLen + sizeLen ≤ frame.length
  · have whole : ((frame.drop (5 + dictLen)).take sizeLen).length = sizeLen := by omega
    rw [getRange_eq inside]
    dsimp only
    rw [if_neg (by omega), sizeLoop_eq (by omega), ok_bind]
    by_cases two : sizeLen = 2
    · subst two
      have small := LittleEndian.ofBytes_lt ((frame.drop (5 + dictLen)).take 2)
      rw [whole] at small
      rw [if_pos rfl, if_pos rfl, add_eq (by omega), ok_bind]
    · rw [if_neg two, if_neg two]
  · have outside : getRange frame (5 + dictLen) (5 + dictLen + sizeLen) = none := by
      unfold getRange
      rw [if_neg (by omega)]
    rw [outside]
    dsimp only
    rw [if_pos (by omega)]

theorem zstdFrameWindow_eq (frame : Bytes) :
    zstdFrameWindow frame = .ok (Syntra.zstdFrameWindow frame) := by
  unfold zstdFrameWindow Syntra.zstdFrameWindow
  by_cases short : frame.length < 6
  · rw [if_pos short, if_pos (Or.inl short)]
  rw [if_neg short, slice_eq (Nat.zero_le 4) (by omega), ok_bind, List.drop_zero]
  by_cases magic : frame.take 4 ≠ zstdMagic
  · rw [if_pos magic, if_pos (Or.inr magic)]
  rw [if_neg magic, if_neg (not_or.mpr ⟨short, magic⟩)]
  have four : frame[4]? = some (frame.getD 4 0) := by
    rw [List.getD_eq_getElem?_getD, List.getElem?_eq_getElem (by omega)]
    rfl
  have five : frame[5]? = some (frame.getD 5 0) := by
    rw [List.getD_eq_getElem?_getD, List.getElem?_eq_getElem (by omega)]
    rfl
  rw [index_eq four, ok_bind]
  dsimp only
  split
  · obtain ⟨high, low⟩ := windowByte_bounds (frame.getD 5 0)
    rw [index_eq five, ok_bind]
    generalize (frame.getD 5 0 >>> 3).toNat = e at high ⊢
    generalize (frame.getD 5 0 &&& 7).toNat = m at low ⊢
    have base : 1 <<< (10 + e) ≤ 2 ^ 41 := by
      rw [Nat.one_shiftLeft]
      exact Nat.pow_le_pow_right (by decide) (by omega)
    have part : 1 <<< (10 + e) / 8 * m ≤ 2 ^ 41 * 7 :=
      Nat.mul_le_mul ((Nat.div_le_self _ _).trans base) low
    rw [add_eq (by omega), ok_bind, shiftLeft_eq (by omega), ok_bind, Nat.mod_eq_of_lt (by omega),
      mul_eq (by omega), ok_bind, add_eq (by omega), ok_bind]
  · exact zstdSizeField_eq frame (dictIdLen_le _) (sizeFieldLen_bounds _)

/-! ## Windows of all frames -/

variable (C : Codecs)

/-- The loop of `check_zstd_windows`. -/
def zstdWindowsLoop (max : Nat) (rest : Bytes) : Run IoError Unit :=
  if rest.isEmpty then .ok ()
  else do
    let window ← zstdFrameWindow rest
    if window.any (fun window => max < window) then
      fails (.zstdWindowTooLarge (window.getD 0) max)
    else
      match C.zstdFrameCompressedSize rest with
      | .ok len =>
        if 0 < len ∧ len ≤ rest.length then zstdWindowsLoop max (rest.drop len) else .ok ()
      | .error _ => .ok ()
termination_by rest.length
decreasing_by
  simp only [List.length_drop]
  omega

def checkZstdWindows (data : Bytes) (windowLog : Nat) : Run IoError Unit := do
  let max ← shiftLeft 64 1 windowLog
  zstdWindowsLoop C max data

theorem zstdWindowsLoop_eq (rest : Bytes) (windowLog : Nat) :
    zstdWindowsLoop C (1 <<< windowLog) rest = lift (Syntra.checkZstdWindows C rest windowLog) := by
  induction rest using Syntra.checkZstdWindows.induct C windowLog with
  | case1 rest ended =>
      rw [zstdWindowsLoop, Syntra.checkZstdWindows, if_pos ended, if_pos ended]
      rfl
  | case2 rest max more large =>
      rw [zstdWindowsLoop, Syntra.checkZstdWindows, if_neg more, if_neg more, zstdFrameWindow_eq,
        ok_bind, if_pos large, if_pos large]
      rfl
  | case3 rest max more small len found inside ih =>
      rw [zstdWindowsLoop, Syntra.checkZstdWindows, if_neg more, if_neg more, zstdFrameWindow_eq,
        ok_bind, if_neg small, if_neg small, found]
      dsimp only
      rw [if_pos inside, if_pos inside, ih]
  | case4 rest max more small len found outside =>
      rw [zstdWindowsLoop, Syntra.checkZstdWindows, if_neg more, if_neg more, zstdFrameWindow_eq,
        ok_bind, if_neg small, if_neg small, found]
      dsimp only
      rw [if_neg outside, if_neg outside]
      rfl
  | case5 rest max more small failure found =>
      rw [zstdWindowsLoop, Syntra.checkZstdWindows, if_neg more, if_neg more, zstdFrameWindow_eq,
        ok_bind, if_neg small, if_neg small, found]
      rfl

theorem checkZstdWindows_eq (data : Bytes) {windowLog : Nat} (few : windowLog < 64) :
    checkZstdWindows C data windowLog = lift (Syntra.checkZstdWindows C data windowLog) := by
  have below : 1 <<< windowLog < 2 ^ 64 := by
    rw [Nat.one_shiftLeft]
    exact Nat.pow_lt_pow_right (by decide) few
  rw [checkZstdWindows, shiftLeft_eq few, ok_bind, Nat.mod_eq_of_lt below, zstdWindowsLoop_eq]

/-! ## Pieces under a limit -/

def growWithin (out : OutBuf) (extra limit : Nat) : Run IoError OutBuf := do
  let room ← sub out.capacity out.bytes.length
  if extra ≤ room then .ok out
  else do
    let needed ← add 64 out.bytes.length extra
    let target := min (max (saturatingMul out.capacity 2) needed) (max limit needed)
    let more ← sub target out.bytes.length
    .ok { out with capacity := out.bytes.length + more }

def readCapped (limit : Nat) : List Piece → OutBuf → Run IoError OutBuf
  | [], out => .ok out
  | .bytes chunk :: pieces, out =>
    if chunk.isEmpty then .ok out
    else if limit < saturatingAdd out.bytes.length chunk.length then fails (tooLarge limit)
    else do
      let out ← growWithin out chunk.length limit
      readCapped limit pieces (out.extend chunk)
  | .interrupted :: pieces, out => readCapped limit pieces out
  | .failed failure :: _, _ => fails failure

def sinkWrites (limit : Nat) : List Bytes → OutBuf → Run IoError (Option OutBuf)
  | [], out => .ok (some out)
  | chunk :: chunks, out =>
    if limit < saturatingAdd out.bytes.length chunk.length then .ok none
    else do
      let out ← growWithin out chunk.length limit
      sinkWrites limit chunks (out.extend chunk)

def Roomy (out : OutBuf) : Prop := out.bytes.length ≤ out.capacity

theorem growWithin_eq {out : OutBuf} (roomy : Roomy out) {extra : Nat} (limit : Nat)
    (fits : out.bytes.length + extra < 2 ^ 64) :
    growWithin out extra limit = .ok (Syntra.growWithin out extra limit) ∧
      out.bytes.length + extra ≤ (Syntra.growWithin out extra limit).capacity := by
  unfold Roomy at roomy
  unfold growWithin Syntra.growWithin
  rw [sub_eq roomy, ok_bind]
  by_cases enough : extra ≤ out.capacity - out.bytes.length
  · rw [if_pos enough, if_pos enough]
    exact ⟨rfl, by omega⟩
  · rw [if_neg enough, if_neg enough, add_eq fits, ok_bind]
    dsimp only
    rw [sub_eq (by omega), ok_bind]
    refine ⟨?_, by omega⟩
    congr 2
    omega

/-- Either the limit or what comes in is below the largest word. -/
def Addressable (limit total : Nat) : Prop := limit < 2 ^ 64 - 1 ∨ total < 2 ^ 64 - 1

theorem saturatingAdd_lt_iff {left right limit total : Nat} (within : left + right ≤ total)
    (addressable : Addressable limit total) :
    limit < saturatingAdd left right ↔ limit < left + right := by
  unfold Addressable at addressable
  unfold saturatingAdd
  omega

/-- By induction on the pieces: the buffer stays roomy, and under the limit the sums are words. -/
theorem readCapped_eq {limit : Nat} (pieces : List Piece) (out : OutBuf)
    (addressable : Addressable limit (out.bytes.length + (delivered pieces).length))
    (roomy : Roomy out) : readCapped limit pieces out = lift (Syntra.readCapped limit pieces out) := by
  induction pieces generalizing out with
  | nil => rfl
  | cons piece pieces ih =>
      cases piece with
      | bytes chunk =>
          rw [readCapped, Syntra.readCapped]
          by_cases ended : chunk.isEmpty = true
          · rw [if_pos ended, if_pos ended]
            rfl
          rw [delivered, if_neg ended, List.length_append, ← Nat.add_assoc] at addressable
          simp only [saturatingAdd_lt_iff (Nat.le_add_right _ _) addressable]
          rw [if_neg ended, if_neg ended]
          by_cases large : limit < out.bytes.length + chunk.length
          · rw [if_pos large, if_pos large]
            rfl
          rw [if_neg large, if_neg large]
          have fits : out.bytes.length + chunk.length < 2 ^ 64 := by
            unfold Addressable at addressable
            omega
          obtain ⟨grown, capacity⟩ := growWithin_eq roomy limit fits
          rw [grown, ok_bind]
          apply ih
          · rwa [OutBuf.extend, List.length_append, growWithin_bytes]
          · unfold Roomy OutBuf.extend
            rw [List.length_append, growWithin_bytes]
            exact capacity
      | interrupted => exact ih out addressable roomy
      | failed failure => rfl

theorem sinkWrites_eq {limit : Nat} (chunks : List Bytes) (out : OutBuf)
    (addressable : Addressable limit (out.bytes.length + chunks.flatten.length))
    (roomy : Roomy out) : sinkWrites limit chunks out = .ok (Syntra.sinkWrites limit chunks out) := by
  induction chunks generalizing out with
  | nil => rfl
  | cons chunk chunks ih =>
      rw [List.flatten_cons, List.length_append, ← Nat.add_assoc] at addressable
      rw [sinkWrites, Syntra.sinkWrites]
      simp only [saturatingAdd_lt_iff (Nat.le_add_right _ _) addressable]
      by_cases large : limit < out.bytes.length + chunk.length
      · rw [if_pos large, if_pos large]
      rw [if_neg large, if_neg large]
      have fits : out.bytes.length + chunk.length < 2 ^ 64 := by
        unfold Addressable at addressable
        omega
      obtain ⟨grown, capacity⟩ := growWithin_eq roomy limit fits
      rw [grown, ok_bind]
      apply ih
      · rwa [OutBuf.extend, List.length_append, growWithin_bytes]
      · unfold Roomy OutBuf.extend
        rw [List.length_append, growWithin_bytes]
        exact capacity

/-! ## Every codec -/

def decodeLimited (data : Bytes) (codec : Codec) (dict : Option Bytes)
    (expectedLen : Option Nat) (maxOut : Nat) : Run IoError Bytes :=
  let limit := min maxOut maxDecompressed
  let out := OutBuf.withCapacity (initialCapacity expectedLen limit data.length)
  match codec with
  | .stored => do
    lift (rejectIf (limit < data.length) (tooLarge limit))
    .ok data
  | .lz4 => do
    let (declared, body) ← lift ((C.lz4UncompressedSize data).mapError .other)
    lift (rejectIf (limit < declared) (tooLarge limit))
    let plausibleLen := saturatingAdd (saturatingMul body.length lz4MaxExpansion) capacityFloor
    lift (rejectIf (plausibleLen < declared)
      (invalid "prefixo LZ4 maior do que o bloco comprimido pode produzir"))
    let out ← lift ((C.lz4Decompress body declared).mapError .other)
    .ok out.val
  | .zstd => do
    lift (checkZstdContentSize C data limit)
    let windowLog ← zstdWindowLogMax limit
    checkZstdWindows C data windowLog
    let pieces ← lift (C.zstdDecoder (dict.filter (fun d => !d.isEmpty)) windowLog data)
    let out ← readCapped limit pieces out
    .ok out.bytes
  | .brotli => do
    let (writes, result) := C.brotliDecompress data
    match ← sinkWrites limit writes out with
    | none => fails (tooLarge limit)
    | some out => do
      lift result
      .ok out.bytes
  | .xz => do
    let pieces ← lift (C.xzDecoder xzMemlimit data)
    let out ← readCapped limit pieces out
    .ok out.bytes
  | .bzip2 => do
    let out ← readCapped limit (C.bzip2Decoder data) out
    .ok out.bytes
  | .deflate => do
    let out ← readCapped limit (C.deflateDecoder data) out
    .ok out.bytes
  | .unspecified => fails (.invalidInput "codec não especificado no envelope")

theorem roomy_withCapacity (capacity : Nat) : Roomy (OutBuf.withCapacity capacity) :=
  Nat.zero_le _

theorem zstdWindowLogMax_lt (limit : Nat) : Syntra.zstdWindowLogMax limit < 64 := by
  simp only [Syntra.zstdWindowLogMax, zstdWindowLogFloor, zstdWindowLogCeiling]
  omega

theorem decodeLimited_eq (data : Bytes) (codec : Codec) (dict : Option Bytes)
    (expectedLen : Option Nat) (maxOut : Nat) :
    decodeLimited C data codec dict expectedLen maxOut =
      lift (Syntra.decodeLimited C data codec dict expectedLen maxOut) := by
  have word : min maxOut maxDecompressed < 2 ^ 64 - 1 := by
    simp only [maxDecompressed]
    omega
  have read := fun pieces capacity =>
    readCapped_eq pieces _ (Or.inl word) (roomy_withCapacity capacity)
  cases codec with
  | stored =>
      simp only [decodeLimited, Syntra.decodeLimited, lift_bind, lift_ok]
  | lz4 => simp only [decodeLimited, Syntra.decodeLimited, lift_bind, lift_ok]
  | zstd =>
      simp only [decodeLimited, Syntra.decodeLimited, lift_bind, lift_ok, read, ok_bind,
        zstdWindowLogMax_eq (word.trans (by decide)), checkZstdWindows_eq C data
          (zstdWindowLogMax_lt _)]
  | brotli =>
      simp only [decodeLimited, Syntra.decodeLimited,
        sinkWrites_eq _ _ (Or.inl word) (roomy_withCapacity _), ok_bind]
      cases Syntra.sinkWrites (min maxOut maxDecompressed) (C.brotliDecompress data).1
          (OutBuf.withCapacity
            (initialCapacity expectedLen (min maxOut maxDecompressed) data.length)) with
      | none => rfl
      | some out =>
          dsimp only
          rw [lift_bind]
          rfl
  | xz => simp only [decodeLimited, Syntra.decodeLimited, lift_bind, lift_ok, read]
  | bzip2 => simp only [decodeLimited, Syntra.decodeLimited, lift_bind, lift_ok, read]
  | deflate => simp only [decodeLimited, Syntra.decodeLimited, lift_bind, lift_ok, read]
  | unspecified => rfl

end Syntra.Indexed

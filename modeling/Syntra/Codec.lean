import Mathlib.Algebra.Order.Ring.Nat
import Mathlib.Data.Nat.Log
import Syntra.IoError
import Syntra.Lib.LittleEndian

/-!
# Codecs

The catalogue, `encode` and `decode_limited`.  The compression libraries are a
parameter: an encoder is a function on the whole input, a decoder yields its
output in pieces, and what the engine does around them (levels, limits, window
and size checks) is modelled here.
-/

set_option autoImplicit false

namespace Syntra

open Fallible

/-- What one `read` of a decoder returns; after the last piece it returns 0. -/
inductive Piece where
  | bytes (chunk : Bytes)
  | interrupted
  | failed (error : IoError)
  deriving Repr, DecidableEq

/-- The third-party compression libraries. -/
structure Codecs where
  lz4CompressPrependSize : Bytes → Bytes
  lz4UncompressedSize : Bytes → Except String (Nat × Bytes)
  /-- Decompresses into a buffer of the given size. -/
  lz4Decompress : Bytes → (size : Nat) → Except String { out : Bytes // out.length ≤ size }
  zstdEncode : (level : Int) → (longDistance : Bool) → (dict : Option Bytes) → Bytes →
    Except IoError Bytes
  zstdDecoder : (dict : Option Bytes) → (windowLogMax : Nat) → Bytes →
    Except IoError (List Piece)
  zstdFrameContentSize : Bytes → Except Unit (Option Nat)
  zstdFrameCompressedSize : Bytes → Except Unit Nat
  brotliCompress : (quality : Int) → (lgwin sizeHint : Nat) → Bytes → Except IoError Bytes
  /-- The buffers written to the sink and how the decoder ends if all are taken. -/
  brotliDecompress : Bytes → List Bytes × Except IoError Unit
  xzEncode : (level : Nat) → Bytes → Except IoError Bytes
  xzDecoder : (memLimit : Nat) → Bytes → Except IoError (List Piece)
  bzip2Encode : (level : Nat) → Bytes → Except IoError Bytes
  bzip2Decoder : Bytes → List Piece
  deflateEncode : (level : Nat) → Bytes → Except IoError Bytes
  deflateDecoder : Bytes → List Piece

/-! ## Catalogue -/

structure CodecInfo where
  codec : Codec
  name : String
  minLevel : Int
  maxLevel : Int
  defaultLevel : Int
  supportsDictionary : Bool
  deriving Repr, DecidableEq

def catalog : List CodecInfo :=
  [⟨.stored, "stored", 0, 0, 0, false⟩,
   ⟨.lz4, "lz4", 0, 0, 0, false⟩,
   ⟨.deflate, "deflate", 0, 9, 6, false⟩,
   ⟨.zstd, "zstd", -7, 22, 10, true⟩,
   ⟨.bzip2, "bzip2", 1, 9, 9, false⟩,
   ⟨.brotli, "brotli", 0, 11, 11, false⟩,
   ⟨.xz, "xz", 0, 9, 6, false⟩]

namespace Codec

def info (codec : Codec) : Option CodecInfo := catalog.find? (fun entry => entry.codec = codec)

def name (codec : Codec) : String := (codec.info.map (·.name)).getD "unspecified"

def supportsDictionary (codec : Codec) : Bool :=
  (codec.info.map (·.supportsDictionary)).getD false

def defaultLevel (codec : Codec) : Int := (codec.info.map (·.defaultLevel)).getD 0

def clampLevel (codec : Codec) (level : Int) : Int :=
  match codec.info with
  | some entry => max entry.minLevel (min entry.maxLevel level)
  | none => 0

end Codec

variable (C : Codecs)

def encode (data : Bytes) (codec : Codec) (level : Int) (dict : Option Bytes) :
    Except IoError Bytes :=
  let level := codec.clampLevel level
  match codec with
  | .stored => .ok data
  | .lz4 => .ok (C.lz4CompressPrependSize data)
  | .zstd => C.zstdEncode level (10 ≤ level ∧ 2 ^ 20 < data.length)
      (dict.filter (fun d => !d.isEmpty)) data
  | .brotli => C.brotliCompress level 24 data.length data
  | .xz => C.xzEncode level.toNat data
  | .bzip2 => C.bzip2Encode level.toNat data
  | .deflate => C.deflateEncode level.toNat data
  | .unspecified => .error (.invalidInput "codec não especificado")

/-! ## Decoding under a limit -/

def maxDecompressed : Nat := 64 * 1024 * 1024 * 1024
def xzMemlimit : Nat := 256 * 1024 * 1024
def capacityPerInputByte : Nat := 64
def lz4MaxExpansion : Nat := 255
def capacityFloor : Nat := 1024 * 1024

def saturatingMul (left right : Nat) : Nat := min (left * right) (2 ^ 64 - 1)

def initialCapacity (expectedLen : Option Nat) (limit payloadLen : Nat) : Nat :=
  let plausibleLen := saturatingAdd (saturatingMul payloadLen capacityPerInputByte) capacityFloor
  min (min (expectedLen.getD 0) limit) plausibleLen

structure OutBuf where
  bytes : Bytes
  capacity : Nat
  deriving Repr, DecidableEq

def OutBuf.withCapacity (capacity : Nat) : OutBuf := { bytes := [], capacity }

def OutBuf.extend (out : OutBuf) (chunk : Bytes) : OutBuf :=
  { out with bytes := out.bytes ++ chunk }

/-- `reserve_exact` is taken to reserve exactly. -/
def growWithin (out : OutBuf) (extra limit : Nat) : OutBuf :=
  if extra ≤ out.capacity - out.bytes.length then out
  else
    let needed := out.bytes.length + extra
    { out with capacity := min (max (saturatingMul out.capacity 2) needed) (max limit needed) }

def readCapped (limit : Nat) : List Piece → OutBuf → Except IoError OutBuf
  | [], out => .ok out
  | .bytes chunk :: pieces, out => do
    if chunk.isEmpty then .ok out
    else if limit < out.bytes.length + chunk.length then .error (tooLarge limit)
    else readCapped limit pieces ((growWithin out chunk.length limit).extend chunk)
  | .interrupted :: pieces, out => readCapped limit pieces out
  | .failed failure :: _, _ => .error failure

/-- What a reader yields before it ends. -/
def delivered : List Piece → Bytes
  | [] => []
  | .bytes chunk :: pieces => if chunk.isEmpty then [] else chunk ++ delivered pieces
  | .interrupted :: pieces => delivered pieces
  | .failed _ :: _ => []

/-- The writes into a `CappedSink`; `none` once it is exceeded. -/
def sinkWrites (limit : Nat) : List Bytes → OutBuf → Option OutBuf
  | [], out => some out
  | chunk :: chunks, out =>
    if limit < out.bytes.length + chunk.length then none
    else sinkWrites limit chunks ((growWithin out chunk.length limit).extend chunk)

def zstdWindowLogFloor : Nat := 17
def zstdWindowLogCeiling : Nat := 31
def zstdMagic : Bytes := [0x28, 0xB5, 0x2F, 0xFD]

def zstdWindowLogMax (limit : Nat) : Nat :=
  let bits := if limit ≤ 1 then 0 else Nat.log2 (limit - 1) + 1
  max zstdWindowLogFloor (min zstdWindowLogCeiling bits)

def zstdFrameWindow (frame : Bytes) : Option Nat :=
  if frame.length < 6 ∨ frame.take 4 ≠ zstdMagic then none
  else
    let descriptor := frame.getD 4 0
    if descriptor &&& 0x20 = 0 then
      let byte := frame.getD 5 0
      let base := 1 <<< (10 + (byte >>> 3).toNat)
      some (base + base / 8 * (byte &&& 7).toNat)
    else
      let dictLen := match (descriptor &&& 3).toNat with
        | 0 => 0
        | 1 => 1
        | 2 => 2
        | _ => 4
      let sizeLen := match (descriptor >>> 6).toNat with
        | 0 => 1
        | 1 => 2
        | 2 => 4
        | _ => 8
      let raw := (frame.drop (5 + dictLen)).take sizeLen
      if raw.length < sizeLen then none
      else
        let size := LittleEndian.ofBytes raw
        some (if sizeLen = 2 then size + 256 else size)

def checkZstdWindows (data : Bytes) (windowLog : Nat) : Except IoError Unit :=
  let max := 1 <<< windowLog
  if data.isEmpty then .ok ()
  else if (zstdFrameWindow data).any (fun window => max < window) then
    .error (.zstdWindowTooLarge ((zstdFrameWindow data).getD 0) max)
  else
    match C.zstdFrameCompressedSize data with
    | .ok len =>
      if 0 < len ∧ len ≤ data.length then checkZstdWindows (data.drop len) windowLog else .ok ()
    | .error _ => .ok ()
termination_by data.length
decreasing_by
  simp only [List.length_drop]
  omega

/-- A frame that declares more than the limit is refused before anything is read. -/
def checkZstdContentSize (data : Bytes) (limit : Nat) : Except IoError Unit :=
  match C.zstdFrameContentSize data with
  | .ok (some declared) => rejectIf (limit < declared) (tooLarge limit)
  | _ => .ok ()

def decodeLimited (data : Bytes) (codec : Codec) (dict : Option Bytes)
    (expectedLen : Option Nat) (maxOut : Nat) : Except IoError Bytes :=
  let limit := min maxOut maxDecompressed
  let out := OutBuf.withCapacity (initialCapacity expectedLen limit data.length)
  match codec with
  | .stored => do
    rejectIf (limit < data.length) (tooLarge limit)
    .ok data
  | .lz4 => do
    let (declared, body) ← (C.lz4UncompressedSize data).mapError .other
    rejectIf (limit < declared) (tooLarge limit)
    let plausibleLen := saturatingAdd (saturatingMul body.length lz4MaxExpansion) capacityFloor
    rejectIf (plausibleLen < declared)
      (invalid "prefixo LZ4 maior do que o bloco comprimido pode produzir")
    let out ← (C.lz4Decompress body declared).mapError .other
    .ok out.val
  | .zstd => do
    checkZstdContentSize C data limit
    let windowLog := zstdWindowLogMax limit
    checkZstdWindows C data windowLog
    let pieces ← C.zstdDecoder (dict.filter (fun d => !d.isEmpty)) windowLog data
    let out ← readCapped limit pieces out
    .ok out.bytes
  | .brotli =>
    let (writes, result) := C.brotliDecompress data
    match sinkWrites limit writes out with
    | none => .error (tooLarge limit)
    | some out => do
      result
      .ok out.bytes
  | .xz => do
    let pieces ← C.xzDecoder xzMemlimit data
    let out ← readCapped limit pieces out
    .ok out.bytes
  | .bzip2 => do
    let out ← readCapped limit (C.bzip2Decoder data) out
    .ok out.bytes
  | .deflate => do
    let out ← readCapped limit (C.deflateDecoder data) out
    .ok out.bytes
  | .unspecified => .error (.invalidInput "codec não especificado no envelope")

/-! ## Nothing longer than the limit comes out -/

theorem growWithin_bytes (out : OutBuf) (extra limit : Nat) :
    (growWithin out extra limit).bytes = out.bytes := by
  unfold growWithin
  split <;> rfl

theorem readCapped_length (limit : Nat) (pieces : List Piece) (out final : OutBuf)
    (within : out.bytes.length ≤ limit) (success : readCapped limit pieces out = .ok final) :
    final.bytes.length ≤ limit := by
  induction pieces generalizing out with
  | nil =>
      obtain rfl := Except.ok.inj success
      exact within
  | cons piece pieces ih =>
      cases piece with
      | bytes chunk =>
          rw [readCapped] at success
          split at success
          · obtain rfl := Except.ok.inj success
            exact within
          · split at success
            · simp at success
            · refine ih _ ?_ success
              simp only [OutBuf.extend, growWithin_bytes, List.length_append]
              omega
      | interrupted => exact ih out within success
      | failed failure => simp [readCapped] at success

theorem sinkWrites_length (limit : Nat) (chunks : List Bytes) (out final : OutBuf)
    (within : out.bytes.length ≤ limit) (success : sinkWrites limit chunks out = some final) :
    final.bytes.length ≤ limit := by
  induction chunks generalizing out with
  | nil =>
      obtain rfl := Option.some.inj success
      exact within
  | cons chunk chunks ih =>
      rw [sinkWrites] at success
      split at success
      · simp at success
      · refine ih _ ?_ success
        simp only [OutBuf.extend, growWithin_bytes, List.length_append]
        omega

theorem readCapped_fresh_length (limit capacity : Nat) (pieces : List Piece) (final : OutBuf)
    (success : readCapped limit pieces (OutBuf.withCapacity capacity) = .ok final) :
    final.bytes.length ≤ limit :=
  readCapped_length limit pieces _ final (Nat.zero_le _) success

theorem decodeLimited_length (data : Bytes) (codec : Codec) (dict : Option Bytes)
    (expectedLen : Option Nat) (maxOut : Nat) (out : Bytes)
    (success : decodeLimited C data codec dict expectedLen maxOut = .ok out) :
    out.length ≤ min maxOut maxDecompressed := by
  cases codec with
  | stored =>
      obtain ⟨within, equal⟩ := rejectIf_bind_eq_ok.mp success
      obtain rfl := Except.ok.inj equal
      exact Nat.le_of_not_lt within
  | lz4 =>
      obtain ⟨⟨declared, body⟩, -, checks⟩ := bind_eq_ok.mp success
      obtain ⟨within, checks⟩ := rejectIf_bind_eq_ok.mp checks
      obtain ⟨-, checks⟩ := rejectIf_bind_eq_ok.mp checks
      obtain ⟨decoded, -, equal⟩ := bind_eq_ok.mp checks
      obtain rfl := Except.ok.inj equal
      exact decoded.property.trans (Nat.le_of_not_lt within)
  | zstd =>
      obtain ⟨_, -, checks⟩ := bind_eq_ok.mp success
      obtain ⟨_, -, checks⟩ := bind_eq_ok.mp checks
      obtain ⟨pieces, -, checks⟩ := bind_eq_ok.mp checks
      obtain ⟨final, read, equal⟩ := bind_eq_ok.mp checks
      obtain rfl := Except.ok.inj equal
      exact readCapped_fresh_length _ _ pieces final read
  | brotli =>
      simp only [decodeLimited] at success
      split at success
      · simp at success
      · rename_i final written
        obtain ⟨_, -, equal⟩ := bind_eq_ok.mp success
        obtain rfl := Except.ok.inj equal
        exact sinkWrites_length _ _ _ final (Nat.zero_le _) written
  | xz =>
      obtain ⟨pieces, -, checks⟩ := bind_eq_ok.mp success
      obtain ⟨final, read, equal⟩ := bind_eq_ok.mp checks
      obtain rfl := Except.ok.inj equal
      exact readCapped_fresh_length _ _ pieces final read
  | bzip2 =>
      obtain ⟨final, read, equal⟩ := bind_eq_ok.mp success
      obtain rfl := Except.ok.inj equal
      exact readCapped_fresh_length _ _ _ final read
  | deflate =>
      obtain ⟨final, read, equal⟩ := bind_eq_ok.mp success
      obtain rfl := Except.ok.inj equal
      exact readCapped_fresh_length _ _ _ final read
  | unspecified => simp [decodeLimited] at success

/-! ## What the engine relies on -/

/-- The documented behaviour of the libraries: whatever an encoder produced decodes
under every limit the data fits, and never to other data.  The length that lz4 prepends is
taken to fit its 32 bits. -/
structure Codecs.RoundTrip : Prop where
  decodes : ∀ (codec : Codec) (level : Int) (dict : Option Bytes) (data payload : Bytes)
    (expectedLen : Option Nat) (maxOut : Nat), codec ≠ .stored →
    encode C data codec level dict = .ok payload → data.length ≤ min maxOut maxDecompressed →
    decodeLimited C payload codec dict expectedLen maxOut = .ok data
  faithful : ∀ (codec : Codec) (level : Int) (dict : Option Bytes) (data payload out : Bytes)
    (expectedLen : Option Nat) (maxOut : Nat), codec ≠ .stored →
    encode C data codec level dict = .ok payload →
    decodeLimited C payload codec dict expectedLen maxOut = .ok out → out = data

variable {C}

/-- Decoding what was encoded succeeds exactly under the limits the data fits. -/
theorem Codecs.RoundTrip.decodeLimited_encode (trusted : C.RoundTrip) {data payload out : Bytes}
    {codec : Codec} {level : Int} {dict : Option Bytes} {expectedLen : Option Nat} {maxOut : Nat}
    (encoded : encode C data codec level dict = .ok payload) :
    decodeLimited C payload codec dict expectedLen maxOut = .ok out ↔
      out = data ∧ data.length ≤ min maxOut maxDecompressed := by
  by_cases stored : codec = .stored
  · subst stored
    obtain rfl := Except.ok.inj encoded
    rw [decodeLimited, rejectIf_bind_eq_ok, Except.ok.injEq, Nat.not_lt]
    exact ⟨fun run => ⟨run.2.symm, run.1⟩, fun run => ⟨run.2, run.1.symm⟩⟩
  · constructor
    · intro run
      obtain rfl := trusted.faithful codec level dict data payload out expectedLen maxOut stored
        encoded run
      exact ⟨rfl, decodeLimited_length C payload codec dict expectedLen maxOut out run⟩
    · rintro ⟨rfl, within⟩
      exact trusted.decodes codec level dict out payload expectedLen maxOut stored encoded within

end Syntra

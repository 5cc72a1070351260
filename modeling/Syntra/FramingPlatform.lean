import Syntra.FramingCodecs
import Syntra.Lib.PrefixCode
import Syntra.Platform

/-!
# A platform that only frames

An instance of the platform on which concrete inputs can be followed: the
codecs frame, messages are coded field by field, floating-point measures are
zero and BLAKE3 is tabulated for the inputs that occur.
-/

set_option autoImplicit false

namespace Syntra

open PrefixCode

def word32 : PrefixCode UInt32 :=
  nat.ofInverse UInt32.toNat UInt32.ofNat fun _ => UInt32.ofNat_toNat

def word64 : PrefixCode UInt64 :=
  nat.ofInverse UInt64.toNat UInt64.ofNat fun _ => UInt64.ofNat_toNat

def bytesCode : PrefixCode Bytes := byte.list

def stepCode : PrefixCode TransformStep :=
  (int.pair (nat.pair nat)).ofInverse (fun s => (s.transform, s.width, s.inputLen))
    (fun r => ⟨r.1, r.2.1, r.2.2⟩) fun _ => rfl

def dictionaryRefCode : PrefixCode DictionaryRef :=
  (string.pair (bytesCode.pair nat)).ofInverse (fun d => (d.id, d.digest, d.size))
    (fun r => ⟨r.1, r.2.1, r.2.2⟩) fun _ => rfl

def blockCode : PrefixCode Block :=
  (bytesCode.pair (int.pair (bytesCode.pair (bool.pair (nat.pair (int.pair int)))))).ofInverse
    (fun b => (b.data, b.algorithm, b.hash, b.deduplicated, b.originalLen, b.codec,
      b.codecLevel))
    (fun r => ⟨r.1, r.2.1, r.2.2.1, r.2.2.2.1, r.2.2.2.2.1, r.2.2.2.2.2.1, r.2.2.2.2.2.2⟩)
    fun _ => rfl

def metricsCode : PrefixCode FileMetrics :=
  (word64.pair (word64.pair (nat.pair (word64.pair (string.pair (string.pair
    (nat.pair word64))))))).ofInverse
    (fun m => (m.throughputMbps, m.compressionRatio, m.dedupSavingsBytes, m.processingTimeMs,
      m.algorithmUsed, m.strategyReason, m.candidatesTried, m.reconstructMs))
    (fun r => ⟨r.1, r.2.1, r.2.2.1, r.2.2.2.1, r.2.2.2.2.1, r.2.2.2.2.2.1, r.2.2.2.2.2.2.1,
      r.2.2.2.2.2.2.2⟩)
    fun _ => rfl

/-- The first half of the fields of an envelope, up to its metrics. -/
def headCode :=
  int.pair (string.pair (string.list.pair (string.pair (nat.pair (nat.pair (word32.pair
    (int.pair (int.pair (string.pair (bytesCode.pair (blockCode.list.pair
      metricsCode.option)))))))))))

def tailCode :=
  string.pair (bytesCode.pair (nat.pair (nat.pair (int.pair (int.pair (int.pair (int.pair
    (stepCode.list.pair (dictionaryRefCode.option.pair (string.pair (string.pair
      bool)))))))))))

def fileCode : PrefixCode ProcessedFile :=
  (headCode.pair tailCode).ofInverse
    (fun f => ((f.version, f.originalName, f.originalNames, f.originalMime, f.originalSize,
        f.processedSize, f.savingsPct, f.algorithm, f.compressionLevel, f.dictionaryId, f.data,
        f.blocks, f.fileMetrics),
      (f.pointerTo, f.fileHash, f.refCount, f.envelopeChecksum, f.createdAt, f.updatedAt,
        f.codec, f.codecLevel, f.transforms, f.dictionary, f.contentClass, f.planReason,
        f.verified)))
    (fun r =>
      let (version, originalName, originalNames, originalMime, originalSize, processedSize,
        savingsPct, algorithm, compressionLevel, dictionaryId, data, blocks, fileMetrics) := r.1
      let (pointerTo, fileHash, refCount, envelopeChecksum, createdAt, updatedAt, codec,
        codecLevel, transforms, dictionary, contentClass, planReason, verified) := r.2
      { version, originalName, originalNames, originalMime, originalSize, processedSize,
        savingsPct, algorithm, compressionLevel, dictionaryId, data, blocks, fileMetrics,
        pointerTo, fileHash, refCount, envelopeChecksum, createdAt, updatedAt, codec,
        codecLevel, transforms, dictionary, contentClass, planReason, verified })
    fun _ => rfl

/-- BLAKE3 of the empty input. -/
def emptyHash : Digest :=
  ⟨[0xaf, 0x13, 0x49, 0xb9, 0xf5, 0xf9, 0xa1, 0xa6, 0xa0, 0x40, 0x4d, 0xea, 0x36, 0xdc, 0xc9,
    0x49, 0x9b, 0xcb, 0x25, 0xc9, 0xad, 0xc1, 0x12, 0xb7, 0xcc, 0x9a, 0x93, 0xca, 0xe4, 0x1f,
    0x32, 0x62], rfl⟩

/-- BLAKE3 of the single byte 1. -/
def oneHash : Digest :=
  ⟨[0x48, 0xfc, 0x72, 0x1f, 0xbb, 0xc1, 0x72, 0xe0, 0x92, 0x5f, 0xa2, 0x7a, 0xf1, 0x67, 0x1d,
    0xe2, 0x25, 0xba, 0x92, 0x71, 0x34, 0x80, 0x29, 0x98, 0xb1, 0x0a, 0x15, 0x68, 0xa1, 0x88,
    0x65, 0x2b], rfl⟩

def noFloats : Floats where
  shannonEntropy _ := 0
  printableRatio _ := 0
  entropyAtLeast794 _ := false
  entropyBelow2 _ := false
  printableAbove88 _ := false
  printableAbove90 _ := false
  markersAbove4 _ _ := false
  strideBeats _ _ _ := false
  percent _ _ := "100.0"

def framingPlatform : Platform where
  codecs := framingCodecs
  floats := noFloats
  infer _ := none
  blake3 data := if data.isEmpty then emptyHash else oneHash
  zstdTrain _ _ := some [1]
  encodeFile := fileCode.encode
  decodeFile data := match fileCode.decode data with
    | some (file, _) => .ok file
    | none => .error "invalid wire type"
  decodeFooter _ := .error "invalid wire type"
  savingsPct _ _ := 0
  ratio _ _ := 0
  addMs _ _ := 0
  throughput _ _ := 0

theorem framingPlatform_decodeFile (file : ProcessedFile) :
    framingPlatform.decodeFile (framingPlatform.encodeFile file) = .ok file := by
  have read := fileCode.decode_encode file []
  rw [List.append_nil] at read
  simp only [framingPlatform, read]

end Syntra

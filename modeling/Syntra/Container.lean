import Syntra.DictStore
import Syntra.Planner.Choose

/-!
# The envelope

A planned payload with what is needed to undo it, sealed as one message and
restored from it.
-/

set_option autoImplicit false

namespace Syntra

open Fallible Text

def containerVersion : Int := 3

inductive ContainerError where
  | decode (message : String)
  | malformed (message : String)
  | checksumMismatch (expected found : Nat)
  | missingDictionary (id : String)
  | dictionaryMismatch (id : String)
  | restore (message : String)
  | decompressedTooLarge (limit : Nat)
  | fidelityMismatch (expected found : String)
  deriving Repr, DecidableEq

/-- `{:#018x}`. -/
def hexWord (n : Nat) : String := "0x" ++ hexEncode (LittleEndian.toBytes 8 n).reverse

/-- The `Display` text of the error. -/
def ContainerError.text : ContainerError → String
  | decode message => s!"envelope inválido: {message}"
  | malformed message => s!"envelope inconsistente: {message}"
  | checksumMismatch expected found =>
    s!"checksum do payload não confere (esperado {hexWord expected}, obtido {hexWord found}); a essência provavelmente está corrompida"
  | missingDictionary id =>
    s!"dicionário '{id}' necessário para reconstruir não está disponível neste nó"
  | dictionaryMismatch id => s!"dicionário '{id}' encontrado não corresponde ao usado na compressão"
  | restore message => s!"falha na reconstrução: {message}"
  | decompressedTooLarge limit =>
    s!"a reconstrução excede o teto de descompressão de {limit} bytes (o menor entre o tamanho declarado no envelope e SYNTRA_MAX_DECOMPRESSED_MB)"
  | fidelityMismatch expected found =>
    s!"reconstrução não é bit-a-bit idêntica ao original (hash esperado {expected}, obtido {found})"

structure Sealed where
  envelope : ProcessedFile
  bytes : Bytes
  deriving Repr, DecidableEq

variable (P : Platform)

/-! ## Writing -/

def payloadChecksum (payload : Bytes) : Nat := LittleEndian.ofBytes ((P.blake3 payload).val.take 8)

def legacyAlgorithm : Codec → Algorithm
  | .stored => .passthrough
  | .lz4 => .lz4
  | .zstd => .zstdBalanced
  | _ => .auto

def oneF64 : F64 := 0x3FF0000000000000

def build (planned : Planned) (profile : ContentProfile) (originalName : String)
    (fileHash : Digest) (dictionary : Option Dictionary) (durationMs : F64) (verified : Bool)
    (reconstructMs : F64) (now : Int) : ProcessedFile :=
  let originalSize := profile.size
  let payload := planned.payload
  let processedSize := payload.length
  let dictionaryRef := if planned.plan.useDictionary then
      dictionary.map fun d => { id := d.id, digest := d.digest.val, size := d.size : DictionaryRef }
    else none
  { version := containerVersion
    originalName
    originalNames := [originalName]
    originalMime := profile.mime
    originalSize
    processedSize
    savingsPct := if 0 < originalSize then P.savingsPct processedSize originalSize else 0
    algorithm := (legacyAlgorithm planned.plan.codec).toI32
    compressionLevel := planned.plan.level
    dictionaryId := (dictionaryRef.map (·.id)).getD ""
    data := payload
    blocks := []
    fileMetrics := some
      { throughputMbps := P.throughput originalSize durationMs
        compressionRatio := if 0 < originalSize then P.ratio processedSize originalSize else oneF64
        dedupSavingsBytes := 0
        processingTimeMs := durationMs
        algorithmUsed := planned.plan.label
        strategyReason := planned.reason
        candidatesTried := planned.candidatesTried
        reconstructMs }
    pointerTo := ""
    fileHash := fileHash.val
    refCount := 1
    envelopeChecksum := payloadChecksum P payload
    createdAt := now
    updatedAt := now
    codec := planned.plan.codec.toI32
    codecLevel := planned.plan.level
    transforms := planned.plan.transforms
    dictionary := dictionaryRef
    contentClass := profile.contentClass.asStr
    planReason := planned.reason
    verified }

/-- Encoding into a growing buffer never runs out of space. -/
def sealEnvelope (envelope : ProcessedFile) : Sealed :=
  let envelope := { envelope with envelopeChecksum := payloadChecksum P envelope.data }
  { envelope, bytes := P.encodeFile envelope }

/-! ## Reading -/

def parse (bytes : Bytes) : Except ContainerError ProcessedFile :=
  match P.decodeFile bytes with
  | .error message => .error (.decode message)
  | .ok envelope =>
    if envelope.envelopeChecksum ≠ 0 ∧
        payloadChecksum P envelope.data ≠ envelope.envelopeChecksum then
      .error (.checksumMismatch envelope.envelopeChecksum (payloadChecksum P envelope.data))
    else .ok envelope

def restoreError (e : IoError) : ContainerError :=
  match tooLargeLimit e with
  | some limit => .decompressedTooLarge limit
  | none => .restore e.text

def envelopeDictionaryId (envelope : ProcessedFile) : String :=
  (envelope.dictionary.map (·.id)).getD envelope.dictionaryId

/-- The dictionary an envelope needs, found and compared with its reference. -/
def resolveDictionary (envelope : ProcessedFile) (resolver : String → Option Dictionary) :
    Except ContainerError (Option Dictionary) :=
  let dictId := envelopeDictionaryId envelope
  if dictId = "" then .ok none
  else
    match resolver dictId with
    | none => .error (.missingDictionary dictId)
    | some found =>
      match envelope.dictionary with
      | some reference =>
        if reference.digest.length = 32 ∧ reference.digest ≠ found.digest.val then
          .error (.dictionaryMismatch dictId)
        else .ok (some found)
      | none => .ok (some found)

def fromLegacy (algorithm : Algorithm) : Codec :=
  match algorithm with
  | .passthrough => .stored
  | .lz4 => .lz4
  | .zstdFast | .zstdBalanced | .zstdMax | .auto => .zstd

def envelopeCodec (envelope : ProcessedFile) :
    Except ContainerError (Codec × List TransformStep) :=
  if 3 ≤ envelope.version then
    match Codec.tryFrom envelope.codec with
    | none => .error (.malformed s!"codec desconhecido: {envelope.codec}")
    | some .unspecified => .error (.malformed "envelope v3 sem codec definido")
    | some codec => .ok (codec, envelope.transforms)
  else
    match Algorithm.tryFrom envelope.algorithm with
    | none => .error (.malformed s!"algoritmo legado desconhecido: {envelope.algorithm}")
    | some legacy => .ok (fromLegacy legacy, [])

structure Restored where
  data : Bytes
  fidelityChecked : Bool
  deriving Repr, DecidableEq

def checkFidelity (envelope : ProcessedFile) (data : Bytes) : Except ContainerError Bool :=
  if envelope.fileHash.length = 32 then
    if (P.blake3 data).val ≠ envelope.fileHash then
      .error (.fidelityMismatch (hexEncode envelope.fileHash) (hexEncode (P.blake3 data).val))
    else .ok true
  else .ok false

def restoreWithLimit (envelope : ProcessedFile) (resolver : String → Option Dictionary)
    (maxOut : Nat) : Except ContainerError Restored := do
  let dict ← resolveDictionary envelope resolver
  let (codecId, transforms) ← envelopeCodec envelope
  let declared := if envelope.originalSize ≠ 0 then some envelope.originalSize else none
  let data ← (restoreLimited P.codecs envelope.data codecId transforms (dict.map (·.bytes))
    declared maxOut).mapError restoreError
  let fidelityChecked ← checkFidelity P envelope data
  rejectIf (envelope.originalSize ≠ 0 ∧ data.length ≠ envelope.originalSize)
    (.malformed
      s!"tamanho reconstruído ({data.length}) difere do declarado ({envelope.originalSize})")
  .ok { data, fidelityChecked }

def verifyRoundtrip (planned : Planned) (original : Bytes) (dict : Option Bytes) :
    Except ContainerError Unit := do
  let back ← (restore P.codecs planned.payload planned.plan.codec planned.plan.transforms
    (if planned.plan.useDictionary then dict else none) (some original.length)).mapError
    fun e => .restore e.text
  rejectIf (back ≠ original)
    (.fidelityMismatch (hexEncode (P.blake3 original).val) (hexEncode (P.blake3 back).val))

/-! ## What is sealed can be parsed -/

theorem parse_sealEnvelope (envelope : ProcessedFile)
    (framed : ∀ file, P.decodeFile (P.encodeFile file) = .ok file) :
    parse P (sealEnvelope P envelope).bytes = .ok (sealEnvelope P envelope).envelope := by
  simp [parse, sealEnvelope, framed]

end Syntra

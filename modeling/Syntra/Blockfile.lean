import Syntra.Container

/-!
# Files of blocks

The version 4 file: a header, the payloads of the blocks one after the other, a
footer with their table, and a trailer with its length and hash.  Every block has
a plan of its own and is compressed and decoded alone.
-/

set_option autoImplicit false

namespace Syntra.Blockfile

open Fallible

/-- `SYNT`. -/
def magic : Bytes := [0x53, 0x59, 0x4E, 0x54]
def formatVersion : UInt8 := 4
def headerLen : Nat := 7
def trailerLen : Nat := 24
def hashLen : Nat := 16
def minBlockLog2 : Nat := 12
def maxBlockLog2 : Nat := 26
def maxFooterLen : Nat := 64 * 1024 * 1024
def maxPlans : Nat := 65536
def maxChain : Nat := 8
def maxNames : Nat := 1024
def maxDictionaryId : Nat := 256
def entryBytes : Nat := 4 + 4 + 2 + hashLen
def footerReserve : Nat := 1024 * 1024
def knownFlags : UInt8 := 0
def maxBlocks : Nat := (maxFooterLen - footerReserve) / entryBytes

def slackLen (n : Nat) : Nat := saturatingAdd (saturatingAdd n (n / 8)) 4096

inductive BlockError where
  | badMagic
  | unsupportedVersion (found : UInt8)
  | unsupportedFlags (found : UInt8)
  | blockSizeInvalid (log2 : Nat)
  | truncated (detail : String)
  | footerTooLarge (len max : Nat)
  | footerCorrupted (message : String)
  | layoutInvalid (message : String)
  | planInvalid (plan : Nat) (reason : String)
  | blockOutOfRange (index count : Nat)
  | blockCorrupted (index : Nat) (expected found : String)
  | dictionaryMissing (block : Nat) (id : String)
  | dictionaryMismatch (block : Nat) (id : String)
  | blockDecode (index : Nat) (reason : String)
  | fidelity (expected found : String)
  | io (message : String)
  | invalidInput (message : String)
  deriving Repr, DecidableEq

/-- `From<io::Error>`. -/
def BlockError.fromIo : IoError → BlockError
  | .unexpectedEof _ => .truncated "leitura além do fim do arquivo"
  | e => .io e.text

variable (P : Platform)

def shortHash (bytes : Bytes) : Bytes := (P.blake3 bytes).val.take hashLen

def checkLog2 (log2 : Nat) : Except BlockError Unit :=
  if minBlockLog2 ≤ log2 ∧ log2 ≤ maxBlockLog2 then .ok () else .error (.blockSizeInvalid log2)

theorem checkLog2_eq_ok {log2 : Nat} :
    checkLog2 log2 = .ok () ↔ minBlockLog2 ≤ log2 ∧ log2 ≤ maxBlockLog2 := by
  unfold checkLog2
  split
  · rename_i within
    exact iff_of_true rfl within
  · rename_i outside
    exact iff_of_false (by intro impossible; cases impossible) outside

/-! ## Plans -/

structure BlockPlan where
  transforms : List TransformStep
  codec : Codec
  level : Int
  dictionary : Option DictionaryRef
  deriving Repr, DecidableEq

def dictionaryRef (dict : Dictionary) : DictionaryRef :=
  { id := dict.id, digest := dict.digest.val, size := dict.size }

def validateStep (i : Nat) (s : TransformStep) : Except String Unit := do
  match ← okOr (Transform.tryFrom s.transform) s!"transform {i} desconhecido: {s.transform}" with
  | .unspecified => .error s!"transform {i} não especificado"
  | .delta | .byteSplit =>
    rejectIf (s.width ∉ widths) s!"transform {i} com largura inválida: {s.width}"
  | .rle | .csvColumnar => .ok ()
  rejectIf (s.inputLen ≠ 0) s!"transform {i} traz input_len, que no v4 deve ser 0"

def validateSteps : (i : Nat) → List TransformStep → Except String Unit
  | _, [] => .ok ()
  | i, s :: steps => do
    validateStep i s
    validateSteps (i + 1) steps

namespace BlockPlan

def stored : BlockPlan := { transforms := [], codec := .stored, level := 0, dictionary := none }

def isStored (plan : BlockPlan) : Bool := plan.codec = .stored && plan.transforms.isEmpty

def normalized (plan : BlockPlan) : BlockPlan :=
  { plan with transforms := plan.transforms.map fun s => { s with inputLen := 0 } }

def validateDictionary (info : CodecInfo) (codec : Codec) :
    Option DictionaryRef → Except String Unit
  | none => .ok ()
  | some d => do
    rejectIf (d.id = "" ∨ maxDictionaryId < d.id.utf8ByteSize)
      "id do dicionário vazio ou longo demais"
    rejectIf (d.digest.length ≠ 32) "digest do dicionário deve ter 32 bytes"
    rejectIf (codec.supportsDictionary = false) s!"codec {info.name} não aceita dicionário"

def validate (plan : BlockPlan) : Except String Unit := do
  let info ← okOr plan.codec.info "codec não especificado"
  rejectIf (plan.level < info.minLevel ∨ info.maxLevel < plan.level)
    s!"nível {plan.level} fora da faixa {info.minLevel}..={info.maxLevel} do codec {info.name}"
  rejectIf (maxChain < plan.transforms.length)
    s!"cadeia de {plan.transforms.length} transforms excede o limite de {maxChain}"
  validateSteps 0 plan.transforms
  validateDictionary info plan.codec plan.dictionary

def toProto (plan : BlockPlan) : BlockPlanV4 :=
  { transforms := plan.transforms, codec := plan.codec.toI32, codecLevel := plan.level
    dictionary := plan.dictionary }

def fromProto (p : BlockPlanV4) : Except String BlockPlan := do
  let codec ← okOr (Codec.tryFrom p.codec) s!"codec desconhecido: {p.codec}"
  let plan := { transforms := p.transforms, codec, level := p.codecLevel
                dictionary := p.dictionary : BlockPlan }
  plan.validate
  .ok plan

theorem fromProto_toProto {plan : BlockPlan} (valid : plan.validate = .ok ()) :
    fromProto plan.toProto = .ok plan := by
  unfold fromProto toProto
  rw [Codec.tryFrom_toI32, okOr, ok_bind]
  dsimp only
  rw [valid, ok_bind]

theorem normalized_normalized (plan : BlockPlan) : plan.normalized.normalized = plan.normalized := by
  simp [normalized]

end BlockPlan

/-! ## Blocks -/

structure CompressedBlock where
  plan : BlockPlan
  payload : Bytes
  deriving Repr, DecidableEq

def storedBlock (original : Bytes) : CompressedBlock := { plan := .stored, payload := original }

variable (C : Codecs)

/-- The dictionary that a plan uses, when its codec takes one and there is one. -/
def dictInUse (plan : Plan) (dict : Option Dictionary) : Bool :=
  plan.useDictionary && plan.codec.supportsDictionary &&
    (dict.map fun d => !d.bytes.isEmpty).getD false

def compressBlock (original : Bytes) (plan : Plan) (dict : Option Dictionary) :
    Except IoError CompressedBlock :=
  if original.isEmpty || plan.isStored then .ok (storedBlock original)
  else do
    let inUse := dictInUse plan dict
    let dictBytes := if inUse then dict.map (·.bytes) else none
    let (payload, steps) ← execute C original { plan with useDictionary := inUse } dictBytes
    if original.length ≤ payload.length then .ok (storedBlock original)
    else
      .ok { plan := BlockPlan.normalized
              { transforms := steps, codec := plan.codec, level := plan.codec.clampLevel plan.level
                dictionary := if inUse then dict.map dictionaryRef else none }
            payload }

def checkDeclaredSize (payload : Bytes) (codec : Codec) (limit : Nat) : Except IoError Unit :=
  let tooBig (declared : Nat) := invalid
    s!"tamanho declarado no payload ({declared}) excede o limite do bloco ({limit})"
  match codec with
  | .lz4 =>
    if 4 ≤ payload.length then
      let declared := LittleEndian.ofBytes (payload.take 4)
      rejectIf (limit < declared) (tooBig declared)
    else .ok ()
  | .zstd =>
    match C.zstdFrameContentSize payload with
    | .ok (some declared) => rejectIf (limit < declared) (tooBig declared)
    | .ok none => .error (invalid "frame zstd sem tamanho de conteúdo declarado")
    | .error _ => .ok ()
  | _ => .ok ()

def decodeBlock (payload : Bytes) (plan : BlockPlan) (dict : Option Bytes) (originalLen : Nat) :
    Except IoError Bytes :=
  let mismatch (found : Nat) := invalid
    s!"bloco reconstruído com {found} bytes, esperado {originalLen}"
  if plan.isStored then do
    rejectIf (payload.length ≠ originalLen) (mismatch payload.length)
    .ok payload
  else do
    checkDeclaredSize C payload plan.codec (slackLen originalLen)
    let out ← restore C payload plan.codec plan.transforms dict (some originalLen)
    rejectIf (out.length ≠ originalLen) (mismatch out.length)
    .ok out

theorem decodeBlock_length {payload out : Bytes} {plan : BlockPlan} {dict : Option Bytes}
    {originalLen : Nat} (decoded : decodeBlock C payload plan dict originalLen = .ok out) :
    out.length = originalLen := by
  unfold decodeBlock at decoded
  dsimp only at decoded
  split at decoded
  · obtain ⟨sized, equal⟩ := rejectIf_bind_eq_ok.mp decoded
    obtain rfl := Except.ok.inj equal
    exact not_not.mp sized
  · obtain ⟨-, -, rest⟩ := bind_eq_ok.mp decoded
    obtain ⟨restored, -, rest⟩ := bind_eq_ok.mp rest
    obtain ⟨sized, equal⟩ := rejectIf_bind_eq_ok.mp rest
    obtain rfl := Except.ok.inj equal
    exact not_not.mp sized

/-! ## What a file says of itself -/

structure Metadata where
  originalName : String
  originalNames : List String
  originalMime : String
  contentClass : String
  planReason : String
  verified : Bool
  createdAt : Int
  updatedAt : Int
  fileMetrics : Option FileMetrics
  deriving Repr, DecidableEq

def Metadata.fromFooter (f : FooterV4) : Metadata :=
  { originalName := f.originalName, originalNames := f.originalNames
    originalMime := f.originalMime, contentClass := f.contentClass, planReason := f.planReason
    verified := f.verified, createdAt := f.createdAt, updatedAt := f.updatedAt
    fileMetrics := f.fileMetrics }

structure Summary where
  fileHash : Digest
  originalSize : Nat
  fileLen : Nat
  blockCount : Nat
  deriving Repr, DecidableEq

end Syntra.Blockfile

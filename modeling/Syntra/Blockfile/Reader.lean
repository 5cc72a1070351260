import Syntra.Blockfile.Writer
import Syntra.Lib.Machine

/-!
# The reader

A file in memory is opened from its end: the trailer gives the footer, and every
number of the footer is checked before a block is read.  The arithmetic is that
of 64-bit words, so that an overflow would be a panic.
-/

set_option autoImplicit false

namespace Syntra.Blockfile

open Fallible Machine Text

variable (P : Platform)

def footerError (message : String) : BlockError := .footerCorrupted message

/-! ## Reading words and slices -/

/-- `le_u32` and `le_u16`: the word at place `i`, zero beyond the end. -/
def leWord (width : Nat) (buf : Bytes) (i : Nat) : Run BlockError Nat := do
  let lo ← mul 64 i width
  let hi ← add 64 lo width
  match getRange buf lo hi with
  | some word => .ok (LittleEndian.ofBytes word)
  | none => .ok 0

def leU32 (buf : Bytes) (i : Nat) : Run BlockError Nat := leWord 4 buf i
def leU16 (buf : Bytes) (i : Nat) : Run BlockError Nat := leWord 2 buf i

/-- `SliceSource::read_at`. -/
def readAt (src : Bytes) (offset len : Nat) : Run BlockError Bytes := do
  let stop ← lift (okOr ((checkedAdd offset len).filter fun stop => stop ≤ src.length)
    (.truncated "leitura além do fim do arquivo"))
  slice src offset stop

/-! ## Checking the footer -/

def divCeil (value divisor : Nat) : Nat :=
  value / divisor + if value % divisor = 0 then 0 else 1

def readPlans (i : Nat) : List BlockPlanV4 → Except BlockError (List BlockPlan)
  | [] => .ok []
  | p :: rest => do
    let plan ← (BlockPlan.fromProto p).mapError (BlockError.planInvalid i)
    let plans ← readPlans (i + 1) rest
    .ok (plan :: plans)

/-- Every table, with the width of its entries, has `n` of them. -/
def checkTables (n : Nat) : List (Nat × Nat) → Run BlockError Unit
  | [] => .ok ()
  | (len, width) :: rest => do
    let sized ← mul 64 n width
    lift (rejectIf (len ≠ sized) (footerError "tabela de blocos com tamanho incoerente"))
    checkTables n rest

/-- The length that block `i` of `n` must declare. -/
def expectedLen (originalSize n blockSize i : Nat) : Run BlockError Nat := do
  let next ← add 64 i 1
  if next < n then .ok blockSize
  else do
    let last ← sub n 1
    let before ← mul 64 last blockSize
    sub originalSize before

/-- The turn of the loop for block `i`: its offset is where the cursor stands. -/
def placeBlock (footer : FooterV4) (planCount n blockSize i : Nat) (placed : List Nat × Nat) :
    Run BlockError (List Nat × Nat) := do
  let originalLen ← leU32 footer.originalLens i
  let expected ← expectedLen footer.originalSize n blockSize i
  lift (rejectIf (originalLen ≠ expected) (.layoutInvalid
    s!"bloco {i}: original_len {originalLen} diverge do esperado {expected}"))
  let planIdx ← leU16 footer.planIndices i
  lift (rejectIf (planCount ≤ planIdx) (.layoutInvalid
    s!"bloco {i}: plano {planIdx} fora da tabela de {planCount} planos"))
  let storedLen ← leU32 footer.storedLens i
  lift (rejectIf (slackLen originalLen < storedLen) (.layoutInvalid
    s!"bloco {i}: stored_len {storedLen} acima do limite para {originalLen} bytes"))
  let cursor ← add 64 placed.2 storedLen
  .ok (placed.1 ++ [placed.2], cursor)

/-- The offsets of the blocks, and the end of the last one. -/
def placeBlocks (footer : FooterV4) (planCount n blockSize fileLen footerLen : Nat) :
    Run BlockError (List Nat) := do
  let (offsets, cursor) ← loop (placeBlock footer planCount n blockSize) 0 n ([], headerLen)
  let body ← add 64 cursor footerLen
  let total ← add 64 body trailerLen
  lift (rejectIf (total ≠ fileLen) (.layoutInvalid
    s!"blocos, cabeçalho, rodapé e final somam {total} bytes, o arquivo tem {fileLen}"))
  .ok (offsets ++ [cursor])

def validateFooter (footer : FooterV4) (flags log2 fileLen footerLen : Nat) :
    Run BlockError (List BlockPlan × List Nat) := do
  lift (rejectIf (footer.headerFlags ≠ flags) (footerError "flags do cabeçalho divergem do rodapé"))
  lift (rejectIf (footer.blockSizeLog2 ≠ log2)
    (footerError "tamanho de bloco do cabeçalho diverge do rodapé"))
  lift (rejectIf (footer.fileHash.length ≠ 32)
    (footerError "hash do arquivo com tamanho inválido"))
  lift (rejectIf (maxPlans < footer.plans.length)
    (footerError "tabela de planos grande demais"))
  let plans ← lift (readPlans 0 footer.plans)
  let n := footer.blockCount
  lift (rejectIf (maxBlocks < n) (footerError "contagem de blocos acima do limite"))
  checkTables n [(footer.storedLens.length, 4), (footer.originalLens.length, 4),
    (footer.planIndices.length, 2), (footer.payloadHashes.length, hashLen)]
  let blockSize ← shiftLeft 64 1 log2
  lift (rejectIf (divCeil footer.originalSize blockSize ≠ n) (.layoutInvalid
    s!"{n} blocos não correspondem a original_size {footer.originalSize} com blocos de {blockSize} bytes"))
  lift (rejectIf (n = 0 ∧ footer.fileHash ≠ (P.blake3 []).val)
    (footerError "arquivo vazio com hash diferente do BLAKE3 do vazio"))
  let offsets ← placeBlocks footer plans.length n blockSize fileLen footerLen
  .ok (plans, offsets)

/-! ## Opening -/

def readHeader (src : Bytes) : Run BlockError (UInt8 × UInt8 × UInt8) := do
  let head ← readAt src 0 (min src.length headerLen)
  lift (rejectIf (magic.length ≤ head.length ∧ head.take magic.length ≠ magic) .badMagic)
  lift (rejectIf (head.length < headerLen) (.truncated "cabeçalho incompleto"))
  let version ← index head 4
  let flags ← index head 5
  let log2 ← index head 6
  .ok (version, flags, log2)

def readTrailer (src : Bytes) : Run BlockError (Nat × Bytes) := do
  lift (rejectIf (src.length < headerLen + trailerLen)
    (.truncated "sem espaço para o final do arquivo"))
  let start ← sub src.length trailerLen
  let tail ← readAt src start trailerLen
  lift (rejectIf (tail.length ≠ trailerLen) (.truncated "final do arquivo incompleto"))
  let mark ← slice tail 20 24
  lift (rejectIf (mark ≠ magic) (.truncated "o final do arquivo não tem a assinatura SYNT"))
  let word ← slice tail 0 4
  let footerLen := LittleEndian.ofBytes word
  lift (rejectIf (maxFooterLen < footerLen) (.footerTooLarge footerLen maxFooterLen))
  let needed ← add 64 (headerLen + trailerLen) footerLen
  lift (rejectIf (src.length < needed) (footerError "tamanho do rodapé excede o arquivo"))
  let hash ← slice tail 4 20
  .ok (footerLen, hash)

def readFooter (src : Bytes) (footerLen : Nat) (hash : Bytes) : Run BlockError FooterV4 := do
  let beforeTrailer ← sub src.length trailerLen
  let start ← sub beforeTrailer footerLen
  let bytes ← readAt src start footerLen
  lift (rejectIf (shortHash P bytes ≠ hash) (footerError "hash do rodapé não confere"))
  lift ((scanFooter bytes).mapError BlockError.footerCorrupted)
  lift ((P.decodeFooter bytes).mapError BlockError.footerCorrupted)

structure Reader where
  src : Bytes
  fileLen : Nat
  footerLen : Nat
  log2 : Nat
  plans : List BlockPlan
  offsets : List Nat
  footer : FooterV4
  deriving Repr, DecidableEq

structure BlockInfo where
  index : Nat
  offset : Nat
  storedLen : Nat
  originalLen : Nat
  planIdx : Nat
  payloadHash : Bytes
  deriving Repr, DecidableEq

def fetch (src : Bytes) (offsets : List Nat) (footer : FooterV4) (i : Nat) :
    Run BlockError Bytes := do
  let count := footer.blockCount
  lift (rejectIf (count ≤ i) (.blockOutOfRange i count))
  let start ← index offsets i
  let len ← leU32 footer.storedLens i
  let data ← readAt src start len
  let found := shortHash P data
  let lo ← mul 64 i hashLen
  let next ← add 64 i 1
  let hi ← mul 64 next hashLen
  let expected ← lift (okOr (getRange footer.payloadHashes lo hi)
    (footerError "tabela de hashes truncada"))
  lift (rejectIf (found ≠ expected) (.blockCorrupted i (hexEncode expected) (hexEncode found)))
  .ok data

/-- The dictionaries found so far, by the place of their plan. -/
abbrev DictCache := List (Nat × Dictionary)

def dictionaryFor (reference : DictionaryRef) (planIdx block : Nat)
    (dicts : String → Option Dictionary) (cache : DictCache) :
    Except BlockError Dictionary × DictCache :=
  match cache.find? (·.1 = planIdx) with
  | some (_, d) => (.ok d, cache)
  | none =>
    match dicts reference.id with
    | none => (.error (.dictionaryMissing block reference.id), cache)
    | some found =>
      if reference.digest ≠ found.digest.val then
        (.error (.dictionaryMismatch block reference.id), cache)
      else (.ok found, cache ++ [(planIdx, found)])

structure Progress where
  cache : DictCache
  hashed : Bytes
  out : Bytes
  written : Nat
  deriving Repr, DecidableEq

namespace Reader

/-- `Reader::open` over a file in memory. -/
def fromBytes (src : Bytes) : Run BlockError Reader := do
  let (version, flags, log2) ← readHeader src
  lift (rejectIf (version ≠ formatVersion) (.unsupportedVersion version))
  lift (rejectIf (flags &&& ~~~knownFlags ≠ 0) (.unsupportedFlags flags))
  lift (checkLog2 log2.toNat)
  let (footerLen, hash) ← readTrailer src
  let footer ← readFooter P src footerLen hash
  let (plans, offsets) ← validateFooter P footer flags.toNat log2.toNat src.length footerLen
  .ok { src, fileLen := src.length, footerLen, log2 := log2.toNat, plans, offsets, footer }

def blockCount (r : Reader) : Nat := r.footer.blockCount

def originalSize (r : Reader) : Nat := r.footer.originalSize

/-- The copy panics when the hash has another length. -/
def fileHash (r : Reader) : Run BlockError Bytes := do
  assert (r.footer.fileHash.length = 32)
  .ok r.footer.fileHash

def metadata (r : Reader) : Metadata := Metadata.fromFooter r.footer

def blockInfo (r : Reader) (i : Nat) : Run BlockError (Option BlockInfo) :=
  if r.blockCount ≤ i then .ok none
  else do
    let lo ← mul 64 i hashLen
    let next ← add 64 i 1
    let hi ← mul 64 next hashLen
    let payloadHash ← slice r.footer.payloadHashes lo hi
    let offset ← index r.offsets i
    let storedLen ← leU32 r.footer.storedLens i
    let originalLen ← leU32 r.footer.originalLens i
    let planIdx ← leU16 r.footer.planIndices i
    .ok (some { index := i, offset, storedLen, originalLen, planIdx, payloadHash })

def fetchPlanned (r : Reader) (i : Nat) : Run BlockError (Bytes × Nat × BlockPlan) := do
  let payload ← fetch P r.src r.offsets r.footer i
  let planIdx ← leU16 r.footer.planIndices i
  let plan ← lift (okOr r.plans[planIdx]?
    (.layoutInvalid s!"bloco {i}: plano {planIdx} fora da tabela"))
  .ok (payload, planIdx, plan)

def planDictionary (plan : BlockPlan) (planIdx i : Nat) (dicts : String → Option Dictionary)
    (cache : DictCache) : Except BlockError (Option Dictionary) × DictCache :=
  match plan.dictionary with
  | none => (.ok none, cache)
  | some reference =>
    let (found, cache) := dictionaryFor reference planIdx i dicts cache
    (found.map some, cache)

def decodePlanned (r : Reader) (i : Nat) (payload : Bytes) (plan : BlockPlan)
    (dict : Except BlockError (Option Dictionary)) : Run BlockError Bytes := do
  let dict ← lift dict
  let originalLen ← leU32 r.footer.originalLens i
  lift ((decodeBlock P.codecs payload plan (dict.map (·.bytes)) originalLen).mapError
    fun e => .blockDecode i e.text)

def readCached (r : Reader) (i : Nat) (dicts : String → Option Dictionary) (cache : DictCache) :
    Run BlockError Bytes × DictCache :=
  match r.fetchPlanned P i with
  | .error stop => (.error stop, cache)
  | .ok (payload, planIdx, plan) =>
    let (dict, cache) := planDictionary plan planIdx i dicts cache
    (r.decodePlanned P i payload plan dict, cache)

def readBlock (r : Reader) (i : Nat) (dicts : String → Option Dictionary) : Run BlockError Bytes :=
  (r.readCached P i dicts []).1

/-- `faults` says how the write of each block fails. -/
def restoreLoop (r : Reader) (dicts : String → Option Dictionary) (faults : Nat → Option Fault) :
    (i count : Nat) → Progress → Run BlockError Unit × Progress
  | _, 0, s => (.ok (), s)
  | i, count + 1, s =>
    match r.readCached P i dicts s.cache with
    | (.error stop, cache) => (.error stop, { s with cache })
    | (.ok block, cache) =>
      let s := { s with cache, hashed := s.hashed ++ block }
      match writeAll s.out block (faults i) with
      | (.error failure, out) => (fails failure, { s with out })
      | (.ok (), out) =>
        match (add 64 s.written block.length : Run BlockError Nat) with
        | .error stop => (.error stop, { s with out })
        | .ok written => r.restoreLoop dicts faults (i + 1) count { s with out, written }

/-- The blocks together are the file that the footer describes. -/
def checkRestored (r : Reader) (s : Progress) : Run BlockError Nat :=
  let found := P.blake3 s.hashed
  lift (do
    rejectIf (s.written ≠ r.footer.originalSize ∨ found.val ≠ r.footer.fileHash)
      (.fidelity (hexEncode r.footer.fileHash) (hexEncode found.val))
    .ok s.written)

def restoreTo (r : Reader) (dicts : String → Option Dictionary) (out : Bytes)
    (faults : Nat → Option Fault) : Run BlockError Nat × Bytes :=
  let ended := r.restoreLoop P dicts faults 0 r.blockCount
    { cache := [], hashed := [], out, written := 0 }
  (ended.1 >>= fun _ => r.checkRestored P ended.2, ended.2.out)

/-- A vector as the sink never fails. -/
def restoreAll (r : Reader) (dicts : String → Option Dictionary) : Run BlockError Bytes :=
  let (result, out) := r.restoreTo P dicts [] fun _ => none
  result.map fun _ => out

def verifyLoop (r : Reader) : (i count : Nat) → Run BlockError Unit
  | _, 0 => .ok ()
  | i, count + 1 => do
    let _ ← fetch P r.src r.offsets r.footer i
    r.verifyLoop (i + 1) count

def verifyAll (r : Reader) : Run BlockError Unit := r.verifyLoop P 0 r.blockCount

/-- The blocks whose hash is wrong; any other failure ends the loop. -/
def corruptedLoop (r : Reader) : (i count : Nat) → (bad : List Nat) → Run BlockError (List Nat)
  | _, 0, bad => .ok bad
  | i, count + 1, bad =>
    match fetch P r.src r.offsets r.footer i with
    | .ok _ => r.corruptedLoop (i + 1) count bad
    | .error (.fail (.blockCorrupted j _ _)) => r.corruptedLoop (i + 1) count (bad ++ [j])
    | .error other => .error other

def corruptedBlocks (r : Reader) : Run BlockError (List Nat) := r.corruptedLoop P 0 r.blockCount []

end Reader

end Syntra.Blockfile

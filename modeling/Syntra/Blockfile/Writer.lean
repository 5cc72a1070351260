import Syntra.Blockfile.Footer

/-!
# The writer

Plans are registered and blocks pushed one after the other; `finish` adds the
footer and the trailer.  A write may fail after any part of it reached the sink.
-/

set_option autoImplicit false

namespace Syntra.Blockfile

open Fallible

/-- The failure of one `write_all`: what it wrote before, and its error. -/
structure Fault where
  written : Nat
  error : IoError
  deriving Repr, DecidableEq

/-- `write_all`, with what the sink holds afterwards. -/
def writeAll (out data : Bytes) : Option Fault → Except BlockError Unit × Bytes
  | none => (.ok (), out ++ data)
  | some fault => (.error (.fromIo fault.error), out ++ data.take fault.written)

/-- `out` is what the sink holds, `hashed` what the hasher was given. -/
structure Writer where
  out : Bytes
  log2 : Nat
  plans : List BlockPlan
  storedLens : Bytes
  originalLens : Bytes
  planIndices : Bytes
  payloadHashes : Bytes
  blocks : Nat
  hashed : Bytes
  originalSize : Nat
  payloadBytes : Nat
  sealedByShortBlock : Bool
  deriving Repr, DecidableEq

def header (log2 : Nat) : Bytes := magic ++ [formatVersion, 0, UInt8.ofNat log2]

/-- How the writes of a call to `finish` fail. -/
structure FinishFaults where
  footer : Option Fault
  length : Option Fault
  hash : Option Fault
  magic : Option Fault
  flush : Option IoError
  deriving Repr, DecidableEq

def FinishFaults.none : FinishFaults :=
  { footer := .none, length := .none, hash := .none, magic := .none, flush := .none }

variable (P : Platform) (metrics : FileMetrics → Bytes)

namespace Writer

def new (log2 : Nat) (first second : Option Fault) : Except BlockError Writer := do
  checkLog2 log2
  let (result, out) := writeAll [] magic first
  result
  let (result, out) := writeAll out [formatVersion, 0, UInt8.ofNat log2] second
  result
  .ok { out, log2, plans := [], storedLens := [], originalLens := [], planIndices := []
        payloadHashes := [], blocks := 0, hashed := [], originalSize := 0, payloadBytes := 0
        sealedByShortBlock := false }

def blockSize (w : Writer) : Nat := 1 <<< w.log2

def addPlan (w : Writer) (plan : BlockPlan) : Except BlockError Nat × Writer :=
  let plan := plan.normalized
  match plan.validate with
  | .error reason => (.error (.planInvalid w.plans.length reason), w)
  | .ok () =>
    match w.plans.findIdx? (· = plan) with
    | some i => (.ok (i % 2 ^ 16), w)
    | none =>
      if maxPlans ≤ w.plans.length then (.error (.invalidInput "tabela de planos cheia"), w)
      else (.ok (w.plans.length % 2 ^ 16), { w with plans := w.plans ++ [plan] })

/-- What `push_block` refuses before it writes. -/
def checkPush (w : Writer) (original : Bytes) (planIdx : Nat) (payload : Bytes) :
    Except BlockError Unit := do
  rejectIf (w.sealedByShortBlock = true)
    (.invalidInput "só o último bloco pode ser menor que o tamanho de bloco")
  rejectIf (original = []) (.invalidInput "bloco original vazio")
  rejectIf (w.blockSize < original.length) (.invalidInput
    s!"bloco de {original.length} bytes excede o tamanho de bloco ({w.blockSize})")
  rejectIf (w.plans.length ≤ planIdx) (.invalidInput s!"plano {planIdx} não registrado")
  rejectIf (slackLen original.length < payload.length) (.invalidInput
    s!"payload de {payload.length} bytes excede o limite para um bloco de {original.length} bytes")
  rejectIf (maxBlocks ≤ w.blocks) (.invalidInput s!"limite de {maxBlocks} blocos atingido")

def record (w : Writer) (original : Bytes) (planIdx : Nat) (payload : Bytes) : Writer :=
  { w with
    hashed := w.hashed ++ original
    storedLens := w.storedLens ++ LittleEndian.toBytes 4 payload.length
    originalLens := w.originalLens ++ LittleEndian.toBytes 4 original.length
    planIndices := w.planIndices ++ LittleEndian.toBytes 2 planIdx
    payloadHashes := w.payloadHashes ++ shortHash P payload
    blocks := w.blocks + 1
    originalSize := w.originalSize + original.length
    payloadBytes := w.payloadBytes + payload.length
    sealedByShortBlock := w.sealedByShortBlock || original.length < w.blockSize }

def pushBlock (w : Writer) (original : Bytes) (planIdx : Nat) (payload : Bytes)
    (fault : Option Fault) : Except BlockError Unit × Writer :=
  match w.checkPush original planIdx payload with
  | .error refusal => (.error refusal, w)
  | .ok () =>
    match writeAll w.out payload fault with
    | (.error failure, out) => (.error failure, { w with out })
    | (.ok (), out) => (.ok (), record P { w with out } original planIdx payload)

def pushCompressed (w : Writer) (original : Bytes) (block : CompressedBlock)
    (fault : Option Fault) : Except BlockError Nat × Writer :=
  match w.addPlan block.plan with
  | (.error refusal, w) => (.error refusal, w)
  | (.ok planIdx, w) =>
    let (result, w) := pushBlock P w original planIdx block.payload fault
    (result.map fun _ => planIdx, w)

def footer (w : Writer) (info : Metadata) : FooterV4 :=
  { headerFlags := 0
    blockSizeLog2 := w.log2
    originalSize := w.originalSize
    fileHash := (P.blake3 w.hashed).val
    plans := w.plans.map BlockPlan.toProto
    blockCount := w.blocks % 2 ^ 32
    storedLens := w.storedLens
    originalLens := w.originalLens
    planIndices := w.planIndices
    payloadHashes := w.payloadHashes
    originalName := info.originalName
    originalNames := info.originalNames
    originalMime := info.originalMime
    contentClass := info.contentClass
    planReason := info.planReason
    verified := info.verified
    createdAt := info.createdAt
    updatedAt := info.updatedAt
    fileMetrics := info.fileMetrics }

def finish (w : Writer) (info : Metadata) (faults : FinishFaults) :
    Except BlockError (Bytes × Summary) := do
  rejectIf (maxNames < info.originalNames.length)
    (.invalidInput s!"mais de {maxNames} nomes originais")
  let footerBytes := encodeFooter metrics (w.footer P info)
  rejectIf (maxFooterLen < footerBytes.length) (.footerTooLarge footerBytes.length maxFooterLen)
  let (result, out) := writeAll w.out footerBytes faults.footer
  result
  let (result, out) := writeAll out (LittleEndian.toBytes 4 footerBytes.length) faults.length
  result
  let (result, out) := writeAll out (shortHash P footerBytes) faults.hash
  result
  let (result, out) := writeAll out magic faults.magic
  result
  match faults.flush with
  | some failure => .error (.fromIo failure)
  | none =>
    .ok (out, { fileHash := P.blake3 w.hashed, originalSize := w.originalSize
                fileLen := headerLen + trailerLen + w.payloadBytes + footerBytes.length
                blockCount := w.blocks })

end Writer

def trailer (footerBytes : Bytes) : Bytes :=
  LittleEndian.toBytes 4 footerBytes.length ++ shortHash P footerBytes ++ magic

theorem Writer.finish_eq_ok {w : Writer} {info : Metadata} {faults : FinishFaults} {file : Bytes}
    {summary : Summary} (finished : w.finish P metrics info faults = .ok (file, summary)) :
    info.originalNames.length ≤ maxNames ∧
      (encodeFooter metrics (w.footer P info)).length ≤ maxFooterLen ∧
      file = w.out ++ (encodeFooter metrics (w.footer P info) ++
        trailer P (encodeFooter metrics (w.footer P info))) ∧
      summary = { fileHash := P.blake3 w.hashed, originalSize := w.originalSize
                  fileLen := headerLen + trailerLen + w.payloadBytes +
                    (encodeFooter metrics (w.footer P info)).length
                  blockCount := w.blocks } := by
  obtain ⟨names, finished⟩ := rejectIf_bind_eq_ok.mp finished
  obtain ⟨sized, finished⟩ := rejectIf_bind_eq_ok.mp finished
  generalize encodeFooter metrics (w.footer P info) = footerBytes at *
  refine ⟨Nat.le_of_not_lt names, Nat.le_of_not_lt sized, ?_⟩
  obtain ⟨first, second, third, fourth, flush⟩ := faults
  cases first with
  | some fault => cases finished
  | none =>
      cases second with
      | some fault => cases finished
      | none =>
          cases third with
          | some fault => cases finished
          | none =>
              cases fourth with
              | some fault => cases finished
              | none =>
                  cases flush with
                  | some failure => cases finished
                  | none =>
                      cases finished
                      refine ⟨?_, rfl⟩
                      simp only [trailer, List.append_assoc]

theorem Writer.finish_of_fits {w : Writer} {info : Metadata}
    (names : info.originalNames.length ≤ maxNames)
    (sized : (encodeFooter metrics (w.footer P info)).length ≤ maxFooterLen) :
    w.finish P metrics info .none =
      .ok (w.out ++ (encodeFooter metrics (w.footer P info) ++
          trailer P (encodeFooter metrics (w.footer P info))),
        { fileHash := P.blake3 w.hashed, originalSize := w.originalSize
          fileLen := headerLen + trailerLen + w.payloadBytes +
            (encodeFooter metrics (w.footer P info)).length
          blockCount := w.blocks }) := by
  unfold finish
  rw [rejectIf_of_not (Nat.not_lt_of_le names), ok_bind]
  dsimp only
  rw [rejectIf_of_not (Nat.not_lt_of_le sized), ok_bind]
  simp only [FinishFaults.none, writeAll, trailer, List.append_assoc]
  rfl

/-- A call that succeeds is one whose writes did not fail. -/
theorem Writer.finish_unfailing {w : Writer} {info : Metadata} {faults : FinishFaults}
    {done : Bytes × Summary} (finished : w.finish P metrics info faults = .ok done) :
    w.finish P metrics info .none = .ok done := by
  obtain ⟨file, summary⟩ := done
  obtain ⟨names, sized, rfl, rfl⟩ := w.finish_eq_ok P metrics finished
  exact Writer.finish_of_fits P metrics names sized

end Syntra.Blockfile

import Syntra.Engine

/-!
# Requests

`compress`, the reads of what it stored and `delete_object`, as programs of
engine calls.
-/

set_option autoImplicit false

namespace Syntra

open Program Text

inductive EngineError where
  | notFound (message : String)
  | container (error : ContainerError)
  | io (message : String)
  | internal (message : String)
  | overloaded
  deriving Repr, DecidableEq

def EngineError.text : EngineError → String
  | notFound message => message
  | container error => error.text
  | io message => s!"falha de I/O: {message}"
  | internal message => s!"erro interno: {message}"
  | overloaded => "motor saturado; tente novamente"

structure Config where
  limits : Limits
  maxDecompressedBytes : Nat

structure TenantContext where
  tenantId : String
  keyId : Option String

structure CompressRequest where
  filename : String
  mimeHint : Option String
  effort : Effort
  forced : ForcedPlan
  verify : Bool
  persist : Bool
  allowDedup : Bool
  idempotencyKey : Option String
  requestId : Option String

structure CompressResult where
  id : String
  envelope : ProcessedFile
  bytes : Bytes
  deduplicated : Bool
  sampledDecision : Bool
  references : Option Int
  compressMs : F64
  verifyMs : F64
  replayed : Bool

structure BlockingOutcome where
  hash : Digest
  envelope : ProcessedFile
  bytes : Bytes
  blobExisted : Bool
  sampledDecision : Bool
  compressMs : F64
  verifyMs : F64

variable (P : Platform) (config : Config)

/-! ## Compression -/

/-- The stored blob of `hash`, when it may be used and can be read. -/
def existingBlob (hash : Digest) (req : CompressRequest) :
    Handler (Option (ProcessedFile × Bytes)) :=
  if req.persist && req.allowDedup then
    .call (.contains hash) fun
      | false => .done none
      | true => .call (.readBlob hash) fun
        | .error _ => .done none
        | .ok bytes => .done ((parse P bytes).toOption.map (·, bytes))
  else .done none

def verifyWrite (planned : Planned) (data : Bytes) (dict : Option Bytes) (req : CompressRequest) :
    Handler (Except EngineError (F64 × Bool)) :=
  if req.verify then
    match verifyRoundtrip P planned data dict with
    | .error e => .done (.error (.container e))
    | .ok _ => .call .elapsedMs fun ms => .done (.ok (ms, true))
  else .done (.ok (0, false))

def persistSealed (hash : Digest) (req : CompressRequest) (written : Sealed) :
    Handler (Except EngineError Unit) :=
  if req.persist then
    attempt (Handler.send (.ensurePath hash)) EngineError.internal fun _ =>
    attempt (Handler.send (.writeBlob hash written.bytes)) (fun e => EngineError.io e.text) fun _ =>
    .call .nowMillis fun now =>
    attempt (Handler.send (.recordObject hash req.filename written.envelope.originalSize
      written.envelope.processedSize now)) EngineError.internal fun _ =>
    .done (.ok ())
  else .done (.ok ())

/-- The blocking part when no stored blob serves. -/
def compressFresh (data : Bytes) (req : CompressRequest) (hash : Digest) :
    Handler (Except EngineError BlockingOutcome) :=
  let profile := classify P.floats P.infer data req.filename req.mimeHint
  .call (.activeFor profile.dictionaryKey) fun dict =>
  let dictBytes := dict.map (·.bytes)
  match compressBest P.codecs P.floats data profile req.effort dictBytes req.forced
    config.limits with
  | .error e => .done (.error (.internal s!"compressão falhou: {e.text}"))
  | .ok planned =>
    .call .elapsedMs fun compressMs =>
    attempt (verifyWrite P planned data dictBytes req) id fun (verifyMs, verified) =>
    .call (.observe profile.dictionaryKey data) fun _ =>
    .call .nowMillis fun now =>
    let written := sealEnvelope P
      (build P planned profile req.filename hash dict compressMs verified verifyMs now)
    attempt (persistSealed hash req written) id fun _ =>
    .done (.ok
      { hash
        envelope := written.envelope
        bytes := written.bytes
        blobExisted := false
        sampledDecision := planned.sampledDecision
        compressMs
        verifyMs })

def compressBlocking (data : Bytes) (req : CompressRequest) :
    Handler (Except EngineError BlockingOutcome) :=
  let hash := P.blake3 data
  (existingBlob P hash req).bind fun
    | some (envelope, bytes) =>
      .done (.ok
        { hash, envelope, bytes, blobExisted := true, sampledDecision := false
          compressMs := 0, verifyMs := 0 })
    | none => compressFresh P config data req hash

/-! ## Reading -/

def requireGrant (tenantId : String) (hash : Digest) : Handler (Except EngineError Unit) :=
  let hashHex := hexEncode hash.val
  attempt (Handler.send (.findGrant tenantId hashHex)) EngineError.internal fun grant =>
    if grant.isNone then .done (.error (.notFound s!"objeto {hashHex} não encontrado"))
    else .done (.ok ())

def loadContainer (tenantId : String) (hash : Digest) : Handler (Except EngineError Bytes) :=
  attempt (requireGrant tenantId hash) id fun _ =>
  attempt (Handler.send (.readBlob hash))
    (fun _ => EngineError.notFound s!"objeto {hexEncode hash.val} não encontrado no vault")
    fun bytes => .done (.ok bytes)

def loadObject (tenantId : String) (hash : Digest) :
    Handler (Except EngineError ProcessedFile) :=
  attempt (loadContainer tenantId hash) id fun bytes =>
    .done ((parse P bytes).mapError EngineError.container)

/-! ## The whole request -/

def asI64 (n : Nat) : Int := Int.bmod n (2 ^ 64)

def codecLabel (envelope : ProcessedFile) : String :=
  (((envelope.fileMetrics.map (·.algorithmUsed)).filter (· ≠ ""))).getD
    (((Codec.tryFrom envelope.codec).map Codec.name).getD "desconhecido")

def dedupScopeOf (hadGrant blobExisted : Bool) : DedupScope :=
  if hadGrant then .tenant else if blobExisted then .global else .none

def compressEvent (ctx : TenantContext) (req : CompressRequest) (originalSize : Nat)
    (outcome : BlockingOutcome) (cpuMs : F64) (hadGrant : Bool) (now : Int) : UsageEvent :=
  { tenantId := ctx.tenantId
    keyId := ctx.keyId
    idempotencyKey := req.idempotencyKey
    operation := .compress
    objectHash := some (hexEncode outcome.hash.val)
    bytesIn := asI64 originalSize
    bytesOut := asI64 outcome.envelope.processedSize
    bytesSaved := max (asI64 outcome.envelope.originalSize - asI64 outcome.envelope.processedSize) 0
    effort := req.effort.asStr
    codec := codecLabel outcome.envelope
    cpuMs
    dedupScope := dedupScopeOf hadGrant outcome.blobExisted
    requestId := req.requestId
    occurredAtMs := now }

def resultOf (outcome : BlockingOutcome) (references : Option Int) (hadGrant : Bool) :
    CompressResult :=
  { id := hexEncode outcome.hash.val
    envelope := outcome.envelope
    bytes := outcome.bytes
    deduplicated := hadGrant
    sampledDecision := outcome.sampledDecision
    references
    compressMs := outcome.compressMs
    verifyMs := outcome.verifyMs
    replayed := false }

/-- Grants the object and records the event; a failure of the ledger is only logged. -/
def account (ctx : TenantContext) (req : CompressRequest) (originalSize : Nat)
    (outcome : BlockingOutcome) (now : Int) : Handler (Except EngineError CompressResult) :=
  let hashHex := hexEncode outcome.hash.val
  attempt (Handler.send (.findGrant ctx.tenantId hashHex)) EngineError.internal fun grant =>
  attempt (Handler.send (.addGrant ctx.tenantId hashHex req.filename
    (asI64 outcome.envelope.originalSize) (asI64 outcome.envelope.processedSize) now))
    EngineError.internal fun (refs, _) =>
  let event := compressEvent ctx req originalSize outcome
    (P.addMs outcome.compressMs outcome.verifyMs) grant.isSome now
  .call (.recordUsage event) fun _ => .done (.ok (resultOf outcome (some refs) grant.isSome))

def compressNew (ctx : TenantContext) (data : Bytes) (req : CompressRequest) :
    Handler (Except EngineError CompressResult) :=
  attempt (compressBlocking P config data req) id fun outcome =>
  .call .nowMillis fun now =>
    if req.persist then account P ctx req data.length outcome now
    else .done (.ok (resultOf outcome none false))

/-- An earlier event with the same key answers for the request. -/
def replay (tenantId : String) (prev : StoredEvent) :
    Handler (Except EngineError CompressResult) :=
  match prev.objectHash with
  | none => .done (.error (.internal "evento idempotente sem objeto associado"))
  | some hashHex =>
    match parseId hashHex with
    | .error e => .done (.error (.internal e))
    | .ok hash =>
      attempt (loadObject P tenantId hash) id fun envelope =>
      attempt (loadContainer tenantId hash) id fun bytes =>
      .call (.findGrant tenantId hashHex) fun grant =>
      .done (.ok
        { id := hashHex
          envelope
          bytes
          deduplicated := true
          sampledDecision := false
          references := grant.toOption.bind fun found => found.map (·.refs)
          compressMs := prev.cpuMs
          verifyMs := 0
          replayed := true })

def compress (ctx : TenantContext) (data : Bytes) (req : CompressRequest) :
    Handler (Except EngineError CompressResult) :=
  match req.idempotencyKey with
  | none => compressNew P config ctx data req
  | some key =>
    attempt (Handler.send (.findEvent ctx.tenantId key)) EngineError.internal fun
      | some prev => replay P ctx.tenantId prev
      | none => compressNew P config ctx data req

/-! ## Deletion -/

structure DeleteOutcome where
  id : String
  remainingRefs : Option Int
  blobRemoved : Bool

def deleteEvent (ctx : TenantContext) (hashHex : String) (now : Int) : UsageEvent :=
  { tenantId := ctx.tenantId
    keyId := ctx.keyId
    idempotencyKey := none
    operation := .delete
    objectHash := some hashHex
    bytesIn := 0
    bytesOut := 0
    bytesSaved := 0
    effort := ""
    codec := ""
    cpuMs := 0
    dedupScope := .none
    requestId := none
    occurredAtMs := now }

def purgeUngranted (hash : Digest) (remaining : Int) : Handler (Except EngineError Bool) :=
  if remaining = 0 then
    attempt (Handler.send (.countGrants (hexEncode hash.val))) EngineError.internal fun others =>
      if others = 0 then
        attempt (Handler.send (.purge hash)) EngineError.internal fun removed => .done (.ok removed)
      else .done (.ok false)
  else .done (.ok false)

def deleteObject (ctx : TenantContext) (hash : Digest) (purge : Bool) :
    Handler (Except EngineError DeleteOutcome) :=
  let hashHex := hexEncode hash.val
  .call .nowMillis fun now =>
  attempt (Handler.send (.releaseGrant ctx.tenantId hashHex purge now)) EngineError.internal fun released =>
    match released with
    | none => .done (.error (.notFound s!"objeto {hashHex} não encontrado"))
    | some remaining =>
      attempt (purgeUngranted hash remaining) id fun blobRemoved =>
      .call .nowMillis fun later =>
      .call (.recordUsage (deleteEvent ctx hashHex later)) fun _ =>
      .done (.ok
        { id := hashHex
          remainingRefs := if 0 < remaining then some remaining else none
          blobRemoved })

/-! ## Requests of tenants -/

inductive Request where
  | compress (ctx : TenantContext) (data : Bytes) (req : CompressRequest)
  | delete (ctx : TenantContext) (hash : Digest) (purge : Bool)

inductive Reply where
  | compressed (result : Except EngineError CompressResult)
  | deleted (result : Except EngineError DeleteOutcome)

def Request.handle : Request → Handler Reply
  | .compress ctx data req => (Syntra.compress P config ctx data req).bind (.done ∘ .compressed)
  | .delete ctx hash purge => (deleteObject ctx hash purge).bind (.done ∘ .deleted)

end Syntra

import Syntra.Api.Gate
import Syntra.Api.Responses
import Syntra.Tenancy.Search

/-!
# The routes of objects

Uploads, reads and deletions as programs of calls on the engine, and the data plane they
make of it.  The reports on usage and on the engine itself only read, whatever they say.
-/

set_option autoImplicit false

namespace Syntra

open Program Text

def ContainerError.code : ContainerError → String
  | decode _ => "envelope_invalid"
  | malformed _ => "envelope_malformed"
  | checksumMismatch _ _ => "envelope_corrupted"
  | missingDictionary _ => "dictionary_unavailable"
  | dictionaryMismatch _ => "dictionary_mismatch"
  | restore _ => "restore_failed"
  | decompressedTooLarge _ => "decompressed_too_large"
  | fidelityMismatch _ _ => "fidelity_mismatch"

def EngineError.code : EngineError → String
  | notFound _ => "not_found"
  | container error => error.code
  | io _ => "io_error"
  | internal _ => "internal_error"
  | overloaded => "overloaded"

def EngineError.status : EngineError → Nat
  | notFound _ => 404
  | container (.decode _) | container (.malformed _) => 400
  | container (.missingDictionary _) => 409
  | container _ => 422
  | io _ | internal _ => 500
  | overloaded => 503

namespace Api

def ApiError.ofEngine (e : EngineError) : ApiError := .new e.status e.code e.text

/-! ## Calls -/

inductive PlaneCall where
  | engine (asked : EngineCall)
  /-- `DictionaryStore::resolve`. -/
  | resolve (id : String)
  | listGrants (tenantId : String) (limit : Int) (search : Option String)
  | report (route : DataRoute) (ctx : Tenancy.TenantContext)

/-- What the reports say, by the route and whom they are for. -/
structure Reports where
  Report : Type
  read : DataRoute → Tenancy.TenantContext → World → Except ApiError Report

variable (P : Platform) (R : Rendering) (Q : Reports) (kind : DbType) (config : ApiConfig)

abbrev PlaneCall.Answer : PlaneCall → Type
  | .engine asked => asked.Answer
  | .resolve _ => Option Dictionary
  | .listGrants _ _ _ => Except DbError (List GrantRow)
  | .report _ _ => Except ApiError Q.Report

abbrev PlaneAction (α : Type) := Program PlaneCall (PlaneCall.Answer Q) α

abbrev RouteAction := PlaneAction Q (Except ApiError (Response Q.Report))

def performPlane (world : World) : (asked : PlaneCall) → asked.Answer Q × World
  | .engine asked => world.perform P asked
  | .resolve id =>
    let now := world.outside 0
    let (found, dictionaries) := world.engine.dictionaries.resolve P id now.mtime now.redisOnline
      now.dictionaryWritten
    (found, { engine := { world.engine with dictionaries }, outside := fun n => world.outside (n + 1) })
  | .listGrants tenantId limit search =>
    let rows := match (world.outside 0).statementFault 0 with
      | some e => .error e
      | none => Syntra.listGrants kind world.engine.db tenantId limit search
    (rows, { world with outside := fun n => world.outside (n + 1) })
  | .report route ctx =>
    (Q.read route ctx world, { world with outside := fun n => world.outside (n + 1) })

variable {P R Q kind config}

def forEngine (ctx : Tenancy.TenantContext) : TenantContext :=
  { tenantId := ctx.tenant.id, keyId := ctx.keyId }

def lift {α : Type} (handler : Handler α) : PlaneAction Q α :=
  handler.within .engine fun _ answer => answer

def engineStep {α : Type} (handler : Handler (Except EngineError α)) (next : α → RouteAction Q) :
    RouteAction Q :=
  attempt (lift handler) ApiError.ofEngine next

def orFail {α : Type} (value : Except ApiError α) (next : α → RouteAction Q) : RouteAction Q :=
  match value with
  | .ok value => next value
  | .error e => .done (.error e)

/-! ## Ledger -/

structure OpMeasure where
  bytesIn : Nat
  bytesOut : Nat
  cpuMs : F64

def readEvent (ctx : TenantContext) (hashHex : String) (measure : OpMeasure)
    (operation : Operation) (requestId : Option String) (now : Int) : UsageEvent :=
  { tenantId := ctx.tenantId
    keyId := ctx.keyId
    idempotencyKey := none
    operation
    objectHash := some hashHex
    bytesIn := asI64 measure.bytesIn
    bytesOut := asI64 measure.bytesOut
    bytesSaved := 0
    effort := ""
    codec := ""
    cpuMs := measure.cpuMs
    dedupScope := .none
    requestId
    occurredAtMs := now }

def recordRead (ctx : TenantContext) (hashHex : String) (measure : OpMeasure)
    (operation : Operation) (requestId : Option String) : Handler Unit :=
  .call .nowMillis fun now =>
  .call (.recordUsage (readEvent ctx hashHex measure operation requestId now)) fun _ => .done ()

/-! ## Reconstruction -/

/-- The dictionary that the envelope names, when it names one. -/
def lookUp (envelope : ProcessedFile) : PlaneAction Q (Option Dictionary) :=
  if envelopeDictionaryId envelope = "" then .done none
  else .call (.resolve (envelopeDictionaryId envelope)) .done

variable (P config) in
/-- `reconstruct`, with the time it took. -/
def reconstruct (envelope : ProcessedFile) :
    PlaneAction Q (Except EngineError (Restored × F64)) :=
  (lookUp envelope).bind fun found =>
    match restoreWithLimit P envelope (fun _ => found) config.maxDecompressedBytes with
    | .error e => .done (.error (.container e))
    | .ok restored => .call (.engine .elapsedMs) fun ms => .done (.ok (restored, ms))

/-! ## Uploads -/

/-- The request for the engine, with the headers that only uploads read. -/
def uploadOf (config : ApiConfig) (params : CompressParams) (headers : Headers) :
    Except ApiError CompressRequest :=
  (params.resolve headers config).map fun req =>
    { req with idempotencyKey := idempotencyKey headers, requestId := requestIdOf headers }

variable (P R config) in
def compressRoute (ctx : Tenancy.TenantContext) (params : CompressParams) (headers : Headers)
    (body : Bytes) : RouteAction Q :=
  orFail (uploadOf config params headers) fun req =>
  engineStep (compress P config.toConfig (forEngine ctx) body req) fun result =>
  .call (.engine .elapsedMs) fun totalMs =>
    let view := CompressResponse.fromResult P R result req.persist totalMs
    match params.format headers .binary with
    | .json => .done (.ok { headers := [], body := .compressed view })
    | .binary =>
      .done (.ok
        { headers := headerMap
            [("content-type", "application/x-syntra-essence"),
             ("content-disposition", contentDisposition s!"{result.id}.syntra"),
             ("x-syntra-id", view.id),
             ("x-syntra-original-size", toString view.originalSize),
             ("x-syntra-essence-size", toString view.essenceSize),
             ("x-syntra-savings-pct", R.fixed2 view.savingsPct),
             ("x-syntra-plan", view.plan.label),
             ("x-syntra-content-class", view.contentClass),
             ("x-syntra-verified", toString view.verified),
             ("x-syntra-deduplicated", toString view.deduplicated),
             ("x-syntra-tenant", ctx.tenant.id)]
          body := .bytes result.bytes })

variable (P R config) in
def process (ctx : Tenancy.TenantContext) (params : CompressParams) (headers : Headers)
    (body : Bytes) : RouteAction Q :=
  orFail (uploadOf config params headers) fun req =>
  engineStep (compress P config.toConfig (forEngine ctx) body req) fun result =>
  .done (.ok
    { headers := [("content-type", "application/x-protobuf"),
          ("x-syn-filename", s!"{result.id}.syntra"), ("x-syntra-id", result.id),
          ("x-syntra-savings-pct",
            R.fixed2 (savingsOf R result.envelope.processedSize result.envelope.originalSize))].foldl
        insertText []
      body := .bytes result.bytes })

variable (P R config) in
/-- The request id is not passed on here. -/
def simProcess (ctx : Tenancy.TenantContext) (params : CompressParams) (headers : Headers)
    (body : Bytes) : RouteAction Q :=
  orFail (params.resolve headers config) fun req =>
  engineStep (compress P config.toConfig (forEngine ctx) body
    { req with idempotencyKey := idempotencyKey headers }) fun result =>
  .done (.ok { headers := [], body := .simulated (SimResult.of R req.filename result) })

/-! ## Reads of a body -/

def emptyBody (message : String) : ApiError := .badRequest "empty_body" message

def ledgerHash (envelope : ProcessedFile) : String :=
  if envelope.fileHash.length = 32 then hexEncode envelope.fileHash else ""

variable (P R config) in
def decompress (ctx : Tenancy.TenantContext) (params : CompressParams) (headers : Headers)
    (body : Bytes) : RouteAction Q :=
  if body = [] then .done (.error (emptyBody "o corpo deve conter um container .syntra"))
  else
    orFail ((parse P body).mapError fun e => .ofEngine (.container e)) fun envelope =>
    attempt (reconstruct P config envelope) ApiError.ofEngine fun (restored, ms) =>
    let view := DecompressMeta.build R envelope restored ms
    (lift (recordRead (forEngine ctx) (ledgerHash envelope)
      { bytesIn := body.length, bytesOut := restored.data.length, cpuMs := ms } .decompress
      (requestIdOf headers))).bind fun _ =>
    match params.format headers .binary with
    | .json => .done (.ok { headers := [], body := .restored view })
    | .binary =>
      .done (.ok
        { headers := headerMap
            [("content-type", envelope.originalMime),
             ("content-disposition", contentDisposition envelope.originalName),
             ("x-syntra-filename", envelope.originalName),
             ("x-syntra-original-size", toString envelope.originalSize),
             ("x-syntra-plan", view.plan.label),
             ("x-syntra-fidelity-checked", toString restored.fidelityChecked),
             ("x-syntra-reconstruct-ms", R.fixed2 ms)]
          body := .bytes restored.data })

variable (P R config) in
def analyze (ctx : Tenancy.TenantContext) (params : CompressParams) (headers : Headers)
    (body : Bytes) : RouteAction Q :=
  if body = [] then .done (.error (emptyBody "o corpo deve conter o conteúdo a analisar"))
  else
    orFail (params.resolve headers config) fun req =>
    let profile := classify P.floats P.infer body req.filename req.mimeHint
    .call (.engine (.activeFor profile.dictionaryKey)) fun dict =>
    .call (.engine .elapsedMs) fun elapsedMs =>
    let report : AnalysisReport :=
      { profile
        effort := req.effort
        probeSize := min body.length config.limits.probeSample
        measurements := measureAll P.codecs P.floats (fun part whole => R.percent part whole) body
          profile req.effort (dict.map (·.bytes)) config.limits
        dictionaryId := dict.map (·.id)
        elapsedMs }
    let response := AnalyzeResponse.build R report req.filename
    (lift (recordRead (forEngine ctx) ""
      { bytesIn := body.length, bytesOut := R.jsonSize response, cpuMs := elapsedMs } .analyze
      (requestIdOf headers))).bind fun _ =>
    .done (.ok { headers := [], body := .analyzed response })

variable (P R) in
def inspect (body : Bytes) : RouteAction Q :=
  if body = [] then .done (.error (emptyBody "o corpo deve conter um container .syntra"))
  else
    orFail ((parse P body).mapError fun e => .ofEngine (.container e)) fun envelope =>
    .done (.ok { headers := [], body := .inspected (InspectResponse.of R envelope) })

/-! ## Reads of the vault -/

def parseObjectId (id : String) : Except ApiError Digest :=
  (parseId id).mapError fun e =>
    (ApiError.badRequest "invalid_object_id" e).withHint
      "O identificador é o hash BLAKE3 do original, 64 dígitos hexadecimais."

/-- The older routes give no hint. -/
def parseFileId (id : String) : Except ApiError Digest :=
  (parseId id).mapError (ApiError.badRequest "invalid_object_id")

variable (P R) in
def getObject (ctx : Tenancy.TenantContext) (id : String) : RouteAction Q :=
  orFail (parseObjectId id) fun hash =>
  engineStep (loadObject P ctx.tenant.id hash) fun envelope =>
  .call (.engine (.findGrant ctx.tenant.id (hexEncode hash.val))) fun found =>
  .done (.ok
    { headers := []
      body := .object (ObjectResponse.build R (hexEncode hash.val) envelope
        found.toOption.join) })

variable (P config) in
/-- Loads and reconstructs an object, and records the read. -/
def fetch (ctx : Tenancy.TenantContext) (hash : Digest)
    (next : ProcessedFile → Restored → F64 → RouteAction Q) : RouteAction Q :=
  engineStep (loadObject P ctx.tenant.id hash) fun envelope =>
  attempt (reconstruct P config envelope) ApiError.ofEngine fun (restored, ms) =>
  (lift (recordRead (forEngine ctx) (hexEncode hash.val)
    { bytesIn := envelope.data.length, bytesOut := restored.data.length, cpuMs := ms } .read
    none)).bind fun _ => next envelope restored ms

variable (P R config) in
def getContent (ctx : Tenancy.TenantContext) (id : String) : RouteAction Q :=
  orFail (parseObjectId id) fun hash =>
  fetch P config ctx hash fun envelope restored ms =>
  .done (.ok
    { headers := [("content-type", envelope.originalMime),
          ("content-disposition", contentDisposition envelope.originalName),
          ("x-syntra-id", hexEncode hash.val), ("x-syntra-filename", envelope.originalName),
          ("x-syntra-fidelity-checked", toString restored.fidelityChecked),
          ("x-syntra-reconstruct-ms", R.fixed2 ms)].foldl insertText []
      body := .bytes restored.data })

variable (P R config) in
def downloadFile (ctx : Tenancy.TenantContext) (id : String) : RouteAction Q :=
  orFail (parseFileId id) fun hash =>
  fetch P config ctx hash fun envelope restored ms =>
  .done (.ok
    { headers := [("content-type", envelope.originalMime),
          ("content-disposition", contentDisposition envelope.originalName),
          ("x-filename", envelope.originalName), ("x-file-id", hexEncode hash.val),
          ("x-reconstruct-time-ms", R.fixed2 ms)].foldl insertText []
      body := .bytes restored.data })

def getEssence (ctx : Tenancy.TenantContext) (id : String) : RouteAction Q :=
  orFail (parseObjectId id) fun hash =>
  engineStep (loadContainer ctx.tenant.id hash) fun bytes =>
  .call (.engine .elapsedMs) fun ms =>
  (lift (recordRead (forEngine ctx) (hexEncode hash.val)
    { bytesIn := bytes.length, bytesOut := bytes.length, cpuMs := ms } .read none)).bind fun _ =>
  .done (.ok
    { headers := [("content-type", "application/x-syntra-essence"),
          ("content-disposition",
            contentDisposition s!"{hexEncode hash.val}.syntra")].foldl insertText []
      body := .bytes bytes })

/-! ## Lists -/

def limitOf (params : ListParams) : Int := max 1 (min (params.limit.getD 100) 1000)

def listed (ctx : Tenancy.TenantContext) (params : ListParams)
    (view : List GrantRow → Body Q.Report) : RouteAction Q :=
  .call (.listGrants ctx.tenant.id (limitOf params) params.search) fun
    | .error e => .done (.error (.internal s!"falha ao listar: {e}"))
    | .ok rows => .done (.ok { headers := [], body := view rows })

variable (R) in
def listObjects (ctx : Tenancy.TenantContext) (params : ListParams) : RouteAction Q :=
  listed ctx params fun rows =>
    .listed
      { count := rows.length, limit := limitOf params, items := rows.map (ObjectListItem.of R) }

variable (R) in
def listFiles (ctx : Tenancy.TenantContext) (params : ListParams) : RouteAction Q :=
  listed ctx params fun rows => .files (rows.map (EssenceFile.of R))

/-! ## Deletions -/

def deleteRoute (ctx : Tenancy.TenantContext) (id : String) (purge : Option Bool) :
    RouteAction Q :=
  orFail (parseObjectId id) fun hash =>
  engineStep (deleteObject (forEngine ctx) hash (purge.getD false)) fun outcome =>
  .done (.ok
    { headers := []
      body := .deleted
        { id := outcome.id, removed := outcome.blobRemoved
          remainingReferences := outcome.remainingRefs } })

/-- The older route purges always. -/
def deleteFile (ctx : Tenancy.TenantContext) (id : String) : RouteAction Q :=
  orFail (parseFileId id) fun hash =>
  engineStep (deleteObject (forEngine ctx) hash true) fun outcome =>
  .done (.ok { headers := [], body := .fileDeleted outcome.id })

/-! ## Reports -/

def reported (route : DataRoute) (ctx : Tenancy.TenantContext) : RouteAction Q :=
  .call (.report route ctx) fun result =>
    .done (result.map fun report => { headers := [], body := .report report })

/-! ## The data plane -/

variable (P R Q kind config) in
def route (route : DataRoute) (ctx : Tenancy.TenantContext) (headers : Headers) (body : Bytes) :
    RouteAction Q :=
  match route with
  | .compress params => compressRoute P R config ctx params headers body
  | .process params => process P R config ctx params headers body
  | .simProcess params => simProcess P R config ctx params headers body
  | .decompress params | .reconstruct params => decompress P R config ctx params headers body
  | .analyze params => analyze P R config ctx params headers body
  | .inspect => inspect P R body
  | .listObjects params => listObjects R ctx params
  | .getObject id => getObject P R ctx id
  | .getContent id => getContent P R config ctx id
  | .getEssence id => getEssence ctx id
  | .listFiles params => listFiles R ctx params
  | .downloadFile id => downloadFile P R config ctx id
  | .deleteObject id purge => deleteRoute ctx id purge
  | .deleteFile id => deleteFile ctx id
  | .myUsage _ | .codecs | .dictionaries | .stats | .legacyStats => reported route ctx

/-- The data plane of an engine.  A restart reads the dictionaries from their directory. -/
def enginePlane (P : Platform) (R : Rendering) (Q : Reports) (kind : DbType) (config : ApiConfig) :
    DataPlane where
  State := World
  Call := PlaneCall
  Answer := PlaneCall.Answer Q
  perform := performPlane P Q kind
  reopen world :=
    { world with engine := { world.engine with
        dictionaries := DictStore.load P world.engine.dictionaries.enabled
          world.engine.dictionaries.redis world.engine.dictionaries.disk } }
  Reply := Response Q.Report
  handle := route P R Q config

end Api

end Syntra

import Syntra.Api.Objects
import Syntra.Service.Touched

/-!
# What the routes of objects touch

Each route calls for its own tenant only: uploads grant what they were sent, deletions
release what they name, reads change nothing but the ledger; and what a read answers with
it has loaded under a grant of the tenant.
-/

set_option autoImplicit false

namespace Syntra

namespace Api

open Program Text

variable {P : Platform} {R : Rendering} {Q : Reports} {kind : DbType} {config : ApiConfig}

abbrev PlaneEntry (Q : Reports) := (asked : PlaneCall) × asked.Answer Q

def DataRoute.object : DataRoute → Option Digest
  | getObject id | getContent id | getEssence id | downloadFile id | deleteObject id _
  | deleteFile id => (parseId id).toOption
  | _ => none

/-- The calls of the engine that a route makes for a tenant. -/
def EngineTouches (P : Platform) (route : DataRoute) (tenantId : String) (body : Bytes)
    (asked : EngineCall) : Prop :=
  match route.scope with
  | .compress => ∃ req, ProperRequest req ∧ asked.storing P tenantId body req
  | .delete => ∃ hash, route.object = some hash ∧ asked.removing tenantId hash
  | .read | .admin =>
    asked.peeking tenantId ∨ ∃ event, asked = .recordUsage event ∧ event.tenantId = tenantId

def Touches (P : Platform) (route : DataRoute) (ctx : Tenancy.TenantContext) (body : Bytes) :
    PlaneCall → Prop
  | .engine asked => EngineTouches P route ctx.tenant.id body asked
  | .resolve _ => True
  | .listGrants tenantId _ _ => tenantId = ctx.tenant.id
  | .report _ own => own = ctx

/-! ## Steps -/

section Steps

variable {allows : List (PlaneEntry Q) → PlaneCall → Prop}
  {post : List (PlaneEntry Q) → Except ApiError (Response Q.Report) → Prop}

def Among (done : List EngineEntry) (seen : List (PlaneEntry Q)) : Prop :=
  ∀ entry ∈ done, (⟨.engine entry.1, entry.2⟩ : PlaneEntry Q) ∈ seen

theorem lift_safe {α : Type} {handler : Handler α} {may : EngineCall → Prop}
    {ends : List EngineEntry → α → Prop}
    (inner : handler.Safe (.seen fun _ asked => may asked) ends [])
    (permits : ∀ seen asked, may asked → allows seen (.engine asked))
    (known : List (PlaneEntry Q)) :
    (lift handler : PlaneAction Q α).Safe (.seen allows)
      (fun later value => (∀ entry ∈ known, entry ∈ later) ∧
        ∃ done, Among done later ∧ ends done value) known := by
  refine Safe.within inner
    (fun done seen => (∀ entry ∈ known, entry ∈ seen) ∧ Among done seen) ?_ ?_ ?_ ?_
  · rintro done seen asked reply ⟨before, among⟩
    refine ⟨fun entry member => List.mem_cons_of_mem _ (before entry member), ?_⟩
    intro entry member
    rcases List.mem_cons.mp member with rfl | earlier
    · exact List.mem_cons_self
    · exact List.mem_cons_of_mem _ (among entry earlier)
  · exact fun done seen asked _ may => permits seen asked may
  · exact fun done seen value linked ended => ⟨linked.1, done, linked.2, ended⟩
  · refine ⟨fun entry member => member, fun entry none => ?_⟩
    cases none

theorem engineStep_safe {α : Type} {handler : Handler (Except EngineError α)}
    {next : α → RouteAction Q} {may : EngineCall → Prop}
    {ends : List EngineEntry → Except EngineError α → Prop}
    (inner : handler.Safe (.seen fun _ asked => may asked) ends [])
    (permits : ∀ seen asked, may asked → allows seen (.engine asked))
    (fails : ∀ seen e, post seen (.error e)) (known : List (PlaneEntry Q))
    (rest : ∀ seen done value, Among done seen → ends done (.ok value) →
      (next value).Safe (.seen allows) post seen) :
    (engineStep handler next).Safe (.seen allows) post known := by
  unfold engineStep
  rw [safe_attempt]
  refine (lift_safe inner permits known).imp fun seen result linked => ?_
  obtain ⟨-, done, among, ended⟩ := linked
  cases result with
  | error e => exact fails seen _
  | ok value => exact rest seen done value among ended

theorem uses_seen {α : Type} {program : PlaneAction Q α} {may : PlaneCall → Prop}
    (uses : program.Uses may) (permits : ∀ seen asked, may asked → allows seen asked)
    (known : List (PlaneEntry Q)) :
    program.Safe (.seen allows) (fun later _ => ∀ entry ∈ known, entry ∈ later) known := by
  have safe : program.Safe (.seen allows) (fun _ _ => True) known := Safe.under uses permits
  exact safe.grows.imp fun later value grown => grown.1

theorem recordRead_uses (ctx : TenantContext) (hashHex : String) (measure : OpMeasure)
    (operation : Operation) (requestId : Option String) :
    (lift (recordRead ctx hashHex measure operation requestId) : PlaneAction Q Unit).Uses
      fun asked => asked = .engine .nowMillis ∨
        ∃ event, asked = .engine (.recordUsage event) ∧ event.tenantId = ctx.tenantId :=
  ⟨Or.inl rfl, fun _ => ⟨Or.inr ⟨_, rfl, rfl⟩, fun _ => trivial⟩⟩

theorem reconstruct_safe (envelope : ProcessedFile)
    (resolves : ∀ seen id, allows seen (.resolve id))
    (elapses : ∀ seen, allows seen (.engine .elapsedMs)) (known : List (PlaneEntry Q)) :
    (reconstruct P config envelope : PlaneAction Q _).Safe (.seen allows)
      (fun _ result => ∀ restored ms, result = .ok (restored, ms) →
        ∃ found, restoreWithLimit P envelope (fun _ => found) config.maxDecompressedBytes =
          .ok restored) known := by
  have looks : (lookUp envelope : PlaneAction Q _).Safe (.seen allows) (fun _ _ => True) known := by
    unfold lookUp
    split
    · trivial
    · exact ⟨resolves known _, fun _ => trivial⟩
  unfold reconstruct
  rw [safe_bind]
  refine looks.imp fun later found _ => ?_
  split
  · intro restored ms failed
    cases failed
  · rename_i own restored
    refine ⟨elapses later, fun ms other took same => ?_⟩
    cases same
    exact ⟨found, restored⟩

end Steps

/-! ## What reads answer -/

/-- The tenant was found to hold the object, and its blob was read. -/
def PlaneLoaded (tenantId : String) (hash : Digest) (seen : List (PlaneEntry Q)) (bytes : Bytes) :
    Prop :=
  ∃ done, Among done seen ∧ Loaded tenantId hash done bytes

theorem PlaneLoaded.mono {tenantId : String} {hash : Digest} {seen later : List (PlaneEntry Q)}
    {bytes : Bytes} (loaded : PlaneLoaded tenantId hash seen bytes)
    (more : ∀ entry ∈ seen, entry ∈ later) : PlaneLoaded tenantId hash later bytes := by
  obtain ⟨done, among, held⟩ := loaded
  exact ⟨done, fun entry member => more _ (among entry member), held⟩

structure RestoredFrom (P : Platform) (config : ApiConfig) (bytes : Bytes) (data : Bytes) :
    Prop where
  restores : ∃ envelope found restored, parse P bytes = .ok envelope ∧
    restoreWithLimit P envelope (fun _ => found) config.maxDecompressedBytes = .ok restored ∧
    restored.data = data

/-- What a read of an object answers with, by what it has seen. -/
def Delivers (P : Platform) (config : ApiConfig) (route : DataRoute) (tenantId : String)
    (seen : List (PlaneEntry Q)) (body : Body Q.Report) : Prop :=
  match route with
  | .getContent id | .downloadFile id =>
    ∃ hash bytes data, parseId id = .ok hash ∧ PlaneLoaded tenantId hash seen bytes ∧
      RestoredFrom P config bytes data ∧ body = .bytes data
  | .getEssence id =>
    ∃ hash bytes, parseId id = .ok hash ∧ PlaneLoaded tenantId hash seen bytes ∧
      body = .bytes bytes
  | .getObject id =>
    ∃ hash bytes, parseId id = .ok hash ∧ PlaneLoaded tenantId hash seen bytes
  | _ => True

def Answers (P : Platform) (config : ApiConfig) (route : DataRoute) (tenantId : String)
    (seen : List (PlaneEntry Q)) (value : Except ApiError (Response Q.Report)) : Prop :=
  ∀ response, value = .ok response → Delivers P config route tenantId seen response.body

theorem answers_error {route : DataRoute} {tenantId : String} (seen : List (PlaneEntry Q))
    (e : ApiError) : Answers P config route tenantId seen (.error e) := by
  intro response failed
  cases failed

/-- The routes that load no object by its id.  Uploads are among them, although a replay and
a blob that is there already are answered with stored bytes. -/
def DataRoute.isQuiet : DataRoute → Bool
  | getObject _ | getContent _ | getEssence _ | downloadFile _ => false
  | _ => true

theorem answers_quiet {route : DataRoute} (quiet : route.isQuiet = true) {tenantId : String}
    (seen : List (PlaneEntry Q)) (value : Except ApiError (Response Q.Report)) :
    Answers P config route tenantId seen value := by
  intro response _
  cases route with
  | getObject => cases quiet
  | getContent => cases quiet
  | getEssence => cases quiet
  | downloadFile => cases quiet
  | _ => trivial

section Routes

variable {ctx : Tenancy.TenantContext} {headers : Headers} {body : Bytes}

/-- The program keeps to the footprint of the route, and answers by what it has seen. -/
abbrev KeepsTo (P : Platform) (config : ApiConfig) (route : DataRoute)
    (ctx : Tenancy.TenantContext) (body : Bytes) (program : RouteAction Q)
    (known : List (PlaneEntry Q)) : Prop :=
  program.Safe (.seen fun _ => Touches P route ctx body) (Answers P config route ctx.tenant.id)
    known

theorem KeepsTo.error (route : DataRoute) (e : ApiError) (known : List (PlaneEntry Q)) :
    KeepsTo P config route ctx body (.done (.error e)) known :=
  answers_error known e

theorem KeepsTo.quiet {route : DataRoute} (quiet : route.isQuiet = true)
    (value : Except ApiError (Response Q.Report)) (known : List (PlaneEntry Q)) :
    KeepsTo P config route ctx body (.done value) known :=
  answers_quiet quiet known value

theorem KeepsTo.orFail {α : Type} {route : DataRoute} (value : Except ApiError α)
    {next : α → RouteAction Q} {known : List (PlaneEntry Q)}
    (rest : ∀ own, value = .ok own → KeepsTo P config route ctx body (next own) known) :
    KeepsTo P config route ctx body (orFail value next) known := by
  cases value with
  | error e => exact KeepsTo.error route e known
  | ok own => exact rest own rfl

theorem KeepsTo.upload {route : DataRoute} (scope : route.scope = .compress)
    {req : CompressRequest} (proper : ProperRequest req) {next : CompressResult → RouteAction Q}
    {known : List (PlaneEntry Q)}
    (rest : ∀ result seen, KeepsTo P config route ctx body (next result) seen) :
    KeepsTo P config route ctx body
      (engineStep (compress P config.toConfig (forEngine ctx) body req) next) known := by
  have inner : (compress P config.toConfig (forEngine ctx) body req).Safe
      (.seen fun _ => EngineCall.storing P ctx.tenant.id body req) (fun _ _ => True) [] :=
    Safe.under compress_stores fun _ _ storing => storing
  refine engineStep_safe inner ?_ ?_ known fun seen done result _ _ => rest result seen
  · intro seen asked storing
    show EngineTouches P route ctx.tenant.id body asked
    rw [EngineTouches, scope]
    exact ⟨req, proper, storing⟩
  · exact answers_error

theorem uploadOf_proper {params : CompressParams} {req : CompressRequest}
    (resolved : uploadOf config params headers = .ok req) : ProperRequest req := by
  unfold uploadOf at resolved
  cases made : params.resolve headers config with
  | error e =>
      rw [made] at resolved
      cases resolved
  | ok own =>
      rw [made] at resolved
      rw [← Except.ok.inj resolved]
      exact ⟨(resolve_proper made).name, (resolve_proper made).level⟩

theorem compressRoute_keeps (params : CompressParams) (known : List (PlaneEntry Q)) :
    KeepsTo P config (.compress params) ctx body
      (compressRoute P R config ctx params headers body) known := by
  refine KeepsTo.orFail _ fun req resolved => ?_
  have proper := uploadOf_proper resolved
  refine KeepsTo.upload rfl proper fun result seen => ?_
  refine ⟨⟨req, proper, Or.inl trivial⟩, fun totalMs => ?_⟩
  dsimp only
  split <;> exact KeepsTo.quiet rfl _ _

theorem process_keeps (params : CompressParams) (known : List (PlaneEntry Q)) :
    KeepsTo P config (.process params) ctx body (process P R config ctx params headers body)
      known := by
  refine KeepsTo.orFail _ fun req resolved => ?_
  exact KeepsTo.upload (by rfl) (uploadOf_proper resolved) fun result seen => KeepsTo.quiet rfl _ _

theorem simProcess_keeps (params : CompressParams) (known : List (PlaneEntry Q)) :
    KeepsTo P config (.simProcess params) ctx body
      (simProcess P R config ctx params headers body) known := by
  refine KeepsTo.orFail _ fun req resolved => ?_
  have proper : ProperRequest { req with idempotencyKey := idempotencyKey headers } :=
    ⟨(resolve_proper resolved).name, (resolve_proper resolved).level⟩
  exact KeepsTo.upload (by rfl) proper fun result seen => KeepsTo.quiet rfl _ _

theorem KeepsTo.recorded {route : DataRoute} (scope : route.scope = .read) {hashHex : String}
    {measure : OpMeasure} {operation : Operation} {requestId : Option String}
    {next : RouteAction Q} {known : List (PlaneEntry Q)}
    (rest : ∀ later, (∀ entry ∈ known, entry ∈ later) →
      KeepsTo P config route ctx body next later) :
    KeepsTo P config route ctx body
      ((lift (recordRead (forEngine ctx) hashHex measure operation requestId)).bind fun _ => next)
      known := by
  rw [KeepsTo, safe_bind]
  refine (uses_seen (recordRead_uses (forEngine ctx) hashHex measure operation requestId) ?_
    known).imp fun later _ more => rest later more
  rintro seen asked (rfl | ⟨event, rfl, own⟩)
  · show EngineTouches P route ctx.tenant.id body _
    rw [EngineTouches, scope]
    exact Or.inl trivial
  · show EngineTouches P route ctx.tenant.id body _
    rw [EngineTouches, scope]
    exact Or.inr ⟨event, rfl, own⟩

theorem touches_peeking {route : DataRoute} (scope : route.scope = .read) {asked : EngineCall}
    (peeks : asked.peeking ctx.tenant.id) : Touches P route ctx body (.engine asked) := by
  show EngineTouches P route ctx.tenant.id body _
  rw [EngineTouches, scope]
  exact Or.inl peeks

theorem KeepsTo.reconstructed {route : DataRoute} (scope : route.scope = .read)
    {envelope : ProcessedFile} {next : Restored × F64 → RouteAction Q}
    {known : List (PlaneEntry Q)}
    (rest : ∀ found restored ms later, (∀ entry ∈ known, entry ∈ later) →
      restoreWithLimit P envelope (fun _ => found) config.maxDecompressedBytes = .ok restored →
      KeepsTo P config route ctx body (next (restored, ms)) later) :
    KeepsTo P config route ctx body
      (attempt (reconstruct P config envelope) ApiError.ofEngine next) known := by
  rw [KeepsTo, safe_attempt]
  refine (reconstruct_safe envelope (fun _ _ => trivial)
    (fun _ => touches_peeking scope trivial) known).grows.imp fun later result grown => ?_
  cases result with
  | error e => exact answers_error later _
  | ok pair =>
      obtain ⟨found, restored⟩ := grown.2 pair.1 pair.2 rfl
      exact rest found pair.1 pair.2 later grown.1 restored

theorem decompress_keeps {route : DataRoute} (scope : route.scope = .read)
    (quiet : route.isQuiet = true)
    (params : CompressParams) (known : List (PlaneEntry Q)) :
    KeepsTo P config route ctx body (decompress P R config ctx params headers body) known := by
  unfold decompress
  split
  · exact KeepsTo.error route _ known
  · refine KeepsTo.orFail _ fun envelope _ => ?_
    refine KeepsTo.reconstructed scope fun found restored ms later _ _ => ?_
    refine KeepsTo.recorded scope fun last _ => ?_
    split <;> exact KeepsTo.quiet quiet _ last

theorem analyze_keeps (params : CompressParams) (known : List (PlaneEntry Q)) :
    KeepsTo P config (.analyze params) ctx body (analyze P R config ctx params headers body)
      known := by
  unfold analyze
  split
  · exact KeepsTo.error _ _ known
  · refine KeepsTo.orFail _ fun req _ => ?_
    refine ⟨Or.inl trivial, fun dict => ⟨Or.inl trivial, fun elapsedMs => ?_⟩⟩
    exact KeepsTo.recorded rfl fun later _ => KeepsTo.quiet rfl _ later

theorem inspect_keeps (known : List (PlaneEntry Q)) :
    KeepsTo P config .inspect ctx body (inspect P R body) known := by
  unfold inspect
  split
  · exact KeepsTo.error _ _ known
  · exact KeepsTo.orFail _ fun envelope _ => KeepsTo.quiet rfl _ known

theorem listed_keeps {route : DataRoute}
    (quiet : route.isQuiet = true)
    (params : ListParams) (view : List GrantRow → Body Q.Report) (known : List (PlaneEntry Q)) :
    KeepsTo P config route ctx body (listed ctx params view) known := by
  refine ⟨rfl, fun answer => ?_⟩
  cases answer <;> exact answers_quiet quiet _ _

theorem reported_keeps {route : DataRoute}
    (quiet : route.isQuiet = true)
    (known : List (PlaneEntry Q)) :
    KeepsTo P config route ctx body (reported route ctx) known :=
  ⟨rfl, fun _ => answers_quiet quiet _ _⟩

/-! ### Objects -/

theorem parseObjectId_eq_ok {id : String} {hash : Digest} :
    parseObjectId id = .ok hash ↔ parseId id = .ok hash :=
  Fallible.mapError_eq_ok

theorem parseFileId_eq_ok {id : String} {hash : Digest} :
    parseFileId id = .ok hash ↔ parseId id = .ok hash :=
  Fallible.mapError_eq_ok

theorem getObject_keeps (id : String) (known : List (PlaneEntry Q)) :
    KeepsTo P config (.getObject id) ctx body (getObject P R ctx id) known := by
  refine KeepsTo.orFail _ fun hash parsed => ?_
  refine engineStep_safe (loadObject_loads ctx.tenant.id hash [])
    (fun _ _ => touches_peeking rfl) answers_error known ?_
  intro seen done envelope among loaded
  refine ⟨Or.inl rfl, fun found response _ => ?_⟩
  obtain ⟨bytes, held, -⟩ := loaded envelope rfl
  exact ⟨hash, bytes, parseObjectId_eq_ok.mp parsed,
    done, fun entry member => List.mem_cons_of_mem _ (among entry member), held⟩

theorem fetch_keeps {route : DataRoute} (scope : route.scope = .read) (hash : Digest)
    {next : ProcessedFile → Restored → F64 → RouteAction Q} (known : List (PlaneEntry Q))
    (rest : ∀ envelope restored ms later bytes, PlaneLoaded ctx.tenant.id hash later bytes →
      RestoredFrom P config bytes restored.data →
      KeepsTo P config route ctx body (next envelope restored ms) later) :
    KeepsTo P config route ctx body (fetch P config ctx hash next) known := by
  refine engineStep_safe (loadObject_loads ctx.tenant.id hash [])
    (fun _ _ => touches_peeking scope) answers_error known ?_
  intro seen done envelope among loaded
  obtain ⟨bytes, held, parsed⟩ := loaded envelope rfl
  refine KeepsTo.reconstructed scope fun found restored ms later more run => ?_
  refine KeepsTo.recorded scope fun last still => ?_
  refine rest envelope restored ms last bytes ?_ ⟨envelope, found, restored, parsed, run, rfl⟩
  exact ⟨done, fun entry member => still _ (more _ (among entry member)), held⟩

theorem getContent_keeps (id : String) (known : List (PlaneEntry Q)) :
    KeepsTo P config (.getContent id) ctx body (getContent P R config ctx id) known := by
  refine KeepsTo.orFail _ fun hash parsed => ?_
  refine fetch_keeps rfl hash known fun envelope restored ms later bytes loaded run => ?_
  intro response made
  rw [← Except.ok.inj made]
  exact ⟨hash, bytes, restored.data, parseObjectId_eq_ok.mp parsed, loaded, run, rfl⟩

theorem downloadFile_keeps (id : String) (known : List (PlaneEntry Q)) :
    KeepsTo P config (.downloadFile id) ctx body (downloadFile P R config ctx id) known := by
  refine KeepsTo.orFail _ fun hash parsed => ?_
  refine fetch_keeps rfl hash known fun envelope restored ms later bytes loaded run => ?_
  intro response made
  rw [← Except.ok.inj made]
  exact ⟨hash, bytes, restored.data, parseFileId_eq_ok.mp parsed, loaded, run, rfl⟩

theorem getEssence_keeps (id : String) (known : List (PlaneEntry Q)) :
    KeepsTo P config (.getEssence id) ctx body (getEssence ctx id) known := by
  refine KeepsTo.orFail _ fun hash parsed => ?_
  refine engineStep_safe (loadContainer_loads ctx.tenant.id hash [])
    (fun _ _ => touches_peeking rfl) answers_error known ?_
  intro seen done bytes among loaded
  refine ⟨Or.inl trivial, fun ms => ?_⟩
  refine KeepsTo.recorded rfl fun later more response made => ?_
  rw [← Except.ok.inj made]
  refine ⟨hash, bytes, parseObjectId_eq_ok.mp parsed, ⟨done, fun entry member => ?_,
    loaded bytes rfl⟩, rfl⟩
  exact more _ (List.mem_cons_of_mem _ (among entry member))

theorem KeepsTo.deletion {route : DataRoute} (scope : route.scope = .delete) {hash : Digest}
    (named : route.object = some hash) (purge : Bool) {next : DeleteOutcome → RouteAction Q}
    (silent : ∀ outcome seen, KeepsTo P config route ctx body (next outcome) seen)
    (known : List (PlaneEntry Q)) :
    KeepsTo P config route ctx body
      (engineStep (deleteObject (forEngine ctx) hash purge) next) known := by
  have inner : (deleteObject (forEngine ctx) hash purge).Safe
      (.seen fun _ => EngineCall.removing ctx.tenant.id hash) (fun _ _ => True) [] :=
    Safe.under (deleteObject_removes _ hash purge) fun _ _ removing => removing
  refine engineStep_safe inner ?_ answers_error known
    fun seen done outcome _ _ => silent outcome seen
  intro seen asked removing
  show EngineTouches P route ctx.tenant.id body asked
  rw [EngineTouches, scope]
  exact ⟨hash, named, removing⟩

theorem deleteRoute_keeps (id : String) (purge : Option Bool) (known : List (PlaneEntry Q)) :
    KeepsTo P config (.deleteObject id purge) ctx body (deleteRoute ctx id purge) known := by
  refine KeepsTo.orFail _ fun hash parsed => ?_
  refine KeepsTo.deletion (by rfl) ?_ _ (fun outcome seen => KeepsTo.quiet rfl _ seen) known
  rw [DataRoute.object, parseObjectId_eq_ok.mp parsed]
  rfl

theorem deleteFile_keeps (id : String) (known : List (PlaneEntry Q)) :
    KeepsTo P config (.deleteFile id) ctx body (deleteFile ctx id) known := by
  refine KeepsTo.orFail _ fun hash parsed => ?_
  refine KeepsTo.deletion (by rfl) ?_ _ (fun outcome seen => KeepsTo.quiet rfl _ seen) known
  rw [DataRoute.object, parseFileId_eq_ok.mp parsed]
  rfl

/-- Every route keeps to its footprint. -/
theorem route_keeps (own : DataRoute) (known : List (PlaneEntry Q)) :
    KeepsTo P config own ctx body (route P R Q config own ctx headers body) known := by
  cases own with
  | compress params => exact compressRoute_keeps params known
  | process params => exact process_keeps params known
  | simProcess params => exact simProcess_keeps params known
  | decompress params => exact decompress_keeps rfl rfl params known
  | reconstruct params => exact decompress_keeps rfl rfl params known
  | analyze params => exact analyze_keeps params known
  | inspect => exact inspect_keeps known
  | listObjects params => exact listed_keeps rfl params _ known
  | listFiles params => exact listed_keeps rfl params _ known
  | getObject id => exact getObject_keeps id known
  | getContent id => exact getContent_keeps id known
  | getEssence id => exact getEssence_keeps id known
  | downloadFile id => exact downloadFile_keeps id known
  | deleteObject id purge => exact deleteRoute_keeps id purge known
  | deleteFile id => exact deleteFile_keeps id known
  | myUsage query => exact reported_keeps rfl known
  | codecs => exact reported_keeps rfl known
  | dictionaries => exact reported_keeps rfl known
  | stats => exact reported_keeps rfl known
  | legacyStats => exact reported_keeps rfl known

end Routes

end Api

end Syntra

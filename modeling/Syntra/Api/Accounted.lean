import Syntra.Api.Confined
import Syntra.Api.Footprint
import Syntra.Service.Dangling

/-!
# Who changes what is stored

What an engine stores changes only by the calls of requests, and each such call was made for
a tenant that was held to the route: a grant comes by an upload of that tenant and goes by a
deletion of it, and the ledger of a tenant grows by its own requests.
-/

set_option autoImplicit false

namespace Syntra

namespace Api

open Program Text

variable {P : Platform} {R : Rendering} {Q : Reports} {kind : DbType} {config : ApiConfig}

/-! ## Requests of a tenant -/

/-- The request acts for the tenant, by a context that covers its route. -/
def ActsFor {D : DataPlane} (gate : Gate) (accounts : Tenancy.Accounts) (job : ApiJob D)
    (tenantId : String) : Prop :=
  ∃ ctx, Held gate job.ticket.origin.headers job.seen accounts ctx ∧ ctx.tenant.id = tenantId ∧
    has ctx job.ticket.origin.route.scope = true

def HttpRequest.uploads (P : Platform) (request : HttpRequest) (hash : Digest) : Prop :=
  request.route.scope = .compress ∧ P.blake3 request.body = hash

def HttpRequest.deletes (request : HttpRequest) (hash : Digest) : Prop :=
  ∃ own, request.route = .data own ∧ own.scope = .delete ∧ own.object = some hash

namespace EngineTouches

variable {own : DataRoute} {tenantId other : String} {body : Bytes} {hash : Digest}
  {asked : EngineCall}

/-- A call that the engine does not make for reads. -/
theorem writing (touches : EngineTouches P own tenantId body asked)
    (unread : ¬ (asked.peeking tenantId ∨
      ∃ event, asked = .recordUsage event ∧ event.tenantId = tenantId)) :
    (own.scope = .compress ∧ ∃ req, asked.storing P tenantId body req) ∨
      (own.scope = .delete ∧ ∃ object, own.object = some object ∧ asked.removing tenantId object) := by
  unfold EngineTouches at touches
  cases scope : own.scope with
  | compress =>
      rw [scope] at touches
      obtain ⟨req, -, storing⟩ := touches
      exact Or.inl ⟨rfl, req, storing⟩
  | delete =>
      rw [scope] at touches
      exact Or.inr ⟨rfl, touches⟩
  | read =>
      rw [scope] at touches
      exact absurd touches unread
  | admin =>
      rw [scope] at touches
      exact absurd touches unread

theorem added (touches : EngineTouches P own tenantId body asked)
    (adds : asked.addsGrant other (hexEncode hash.val)) :
    other = tenantId ∧ own.scope = .compress ∧ P.blake3 body = hash := by
  cases asked with
  | addGrant tenant object name originalSize essenceSize nowMs =>
      rcases writing touches (by simp [EngineCall.peeking]) with
        ⟨scope, req, peeks | ⟨rfl, rfl, -⟩⟩ | ⟨-, object, -, removes⟩
      · exact peeks.elim
      · obtain ⟨rfl, same⟩ := Prod.mk.inj adds
        exact ⟨rfl, scope, (hexEncode_digest_inj same).symm⟩
      · exact removes.elim
  | _ => exact adds.elim

theorem released (touches : EngineTouches P own tenantId body asked)
    (releases : asked.releases other (hexEncode hash.val)) :
    other = tenantId ∧ own.scope = .delete ∧ own.object = some hash := by
  cases asked with
  | releaseGrant tenant object purge nowMs =>
      rcases writing touches (by simp [EngineCall.peeking]) with
        ⟨-, req, peeks | stores⟩ | ⟨scope, named, isNamed, rfl, rfl⟩
      · exact peeks.elim
      · exact stores.elim
      · obtain ⟨rfl, same⟩ := Prod.mk.inj releases
        exact ⟨rfl, scope, by rw [isNamed, hexEncode_digest_inj same]⟩
  | _ => exact releases.elim

theorem wrote {bytes : Bytes} (touches : EngineTouches P own tenantId body (.writeBlob hash bytes)) :
    own.scope = .compress ∧ P.blake3 body = hash ∧ SealedFor P hash bytes := by
  rcases writing touches (by simp [EngineCall.peeking]) with
    ⟨scope, req, peeks | ⟨rfl, isSealed⟩⟩ | ⟨-, object, -, removes⟩
  · exact peeks.elim
  · exact ⟨scope, rfl, isSealed⟩
  · exact removes.elim

theorem purged (touches : EngineTouches P own tenantId body (.purge hash)) :
    own.scope = .delete ∧ own.object = some hash := by
  rcases writing touches (by simp [EngineCall.peeking]) with
    ⟨-, req, peeks | stores⟩ | ⟨scope, named, isNamed, rfl⟩
  · exact peeks.elim
  · exact stores.elim
  · exact ⟨scope, isNamed⟩

theorem recorded {event : UsageEvent}
    (touches : EngineTouches P own tenantId body (.recordUsage event)) :
    event.tenantId = tenantId := by
  unfold EngineTouches at touches
  split at touches
  · obtain ⟨req, -, peeks | same⟩ := touches
    · exact peeks.elim
    · exact same
  · obtain ⟨object, -, same⟩ := touches
    exact same
  all_goals
    rcases touches with peeks | ⟨own, same, ownTenant⟩
    · exact peeks.elim
    · cases same
      exact ownTenant

theorem looked {object : String}
    (touches : EngineTouches P own tenantId body (.findGrant other object)) :
    other = tenantId := by
  unfold EngineTouches at touches
  split at touches
  · obtain ⟨req, -, peeks | stores⟩ := touches
    · exact peeks
    · exact stores.elim
  · obtain ⟨hash, -, removes⟩ := touches
    exact removes.elim
  all_goals
    rcases touches with peeks | ⟨event, same, -⟩
    · exact peeks
    · cases same

end EngineTouches

/-! ## Handlers of tenants and keys -/

def OfTenant (id : String) : Tenancy.Statement → Prop
  | .findTenant other | .updateTenant _ _ _ _ other => other = id
  | .insertTenant row => row.id = id
  | _ => False

section Admin

variable {D : DataPlane} {may : ApiCall D → Prop}

/-- The calls of a route of tenants and keys: statements about the tenant or the key that it
names, and for a report those of the report. -/
def AdminTouches (request : HttpRequest) : AdminRoute → ApiCall D → Prop
  | .listTenants, .allTenants => True
  | .createTenant body, .accounts asked =>
    ∃ id, (∀ raw ∈ body.id, id = raw) ∧ OfTenant id asked
  | .createTenant _, .nowMillis | .createTenant _, .newUuid => True
  | .getTenant id, .accounts asked => asked = .findTenant id
  | .listKeys id, .keysOf own => own = id
  | .createKey id _, .accounts asked =>
    asked = .findTenant id ∨ ∃ row, asked = .insertKey row ∧ row.tenantId = id
  | .createKey _ _, .nowMillis | .createKey _ _, .newUuid
  | .createKey _ _, .markAuthRequired => True
  | .revokeKey keyId, .accounts asked => ∃ nowMs, asked = .revokeKey nowMs keyId
  | .revokeKey _, .nowMillis => True
  | .tenantUsage query, .accounts asked =>
    ∃ id, query.tenantId = some id ∧ asked = .findTenant id
  | .tenantUsage query, .data asked =>
    ∃ ctx, (D.handle (.myUsage query) ctx request.headers request.body).Makes asked
  | _, _ => False

theorem attemptQuery_uses {α β : Type} {query : Tenancy.Query α} {asks : Tenancy.Statement → Prop}
    {next : α → Action D β} (uses : query.Uses asks)
    (permits : ∀ statement, asks statement → may (.accounts statement))
    (rest : ∀ value, (next value).Uses may) :
    (attemptQuery query next).Uses may := by
  apply Uses.attempt
  · unfold ofQuery
    exact uses.within permits
  · exact rest

theorem proceed_uses {α β : Type} (value : Except ApiError α) {next : α → Action D β}
    (rest : ∀ own, value = .ok own → (next own).Uses may) : (proceed value next).Uses may := by
  cases value with
  | ok own => exact rest own rfl
  | error e => trivial

theorem parsePlainId_eq_ok {raw id : String} (parsed : parsePlainId raw = .ok id) : id = raw := by
  unfold parsePlainId at parsed
  dsimp only at parsed
  split at parsed
  · cases parsed
  · rename_i clean
    rw [← Except.ok.inj parsed]
    exact not_not.mp fun other => clean (Or.inr other)

theorem findTenant_uses (gate : Gate) (id : String) :
    (Tenancy.findTenant gate.libraries id).Uses (· = .findTenant id) := by
  refine ⟨rfl, fun answer => ?_⟩
  cases answer <;> trivial

theorem upsertTenant_uses (gate : Gate) (tenant : Tenancy.Tenant) :
    (Tenancy.upsertTenant gate.libraries tenant).Uses (OfTenant tenant.id) := by
  unfold Tenancy.upsertTenant
  split
  · trivial
  · refine ⟨rfl, fun answer => ?_⟩
    cases answer with
    | error e => trivial
    | ok existing =>
        change Uses _ (if _ then _ else _)
        split <;> exact ⟨rfl, fun _ => trivial⟩

theorem createTenantAs_touches (gate : Gate) (body : CreateTenantBody) {id : String}
    (named : ∀ raw ∈ body.id, id = raw) (request : HttpRequest) :
    (createTenantAs gate body id : Action D (Reply D)).Uses
      (AdminTouches request (.createTenant body)) := by
  unfold createTenantAs
  split
  · trivial
  · apply proceed_uses
    intro plan _
    refine ⟨trivial, fun now => ?_⟩
    exact attemptQuery_uses (upsertTenant_uses gate _) (fun _ own => ⟨id, named, own⟩)
      fun _ => trivial

theorem storeIssued_touches (gate : Gate) {issued : Tenancy.IssuedKey} {id : String}
    (own : issued.record.tenantId = id) (body : CreateKeyBody) (request : HttpRequest) :
    (storeIssued gate issued : Action D (Reply D)).Uses
      (AdminTouches request (.createKey id body)) := by
  have stores : (Tenancy.storeKey gate.libraries issued).Uses fun asked =>
      ∃ row, asked = .insertKey row ∧ row.tenantId = id := by
    unfold Tenancy.storeKey
    split
    · trivial
    · exact ⟨⟨_, rfl, own⟩, fun _ => trivial⟩
  exact attemptQuery_uses stores (fun _ own => Or.inr own) fun _ => ⟨trivial, fun _ => trivial⟩

theorem createKey_touches (gate : Gate) (raw : String) (body : CreateKeyBody)
    (request : HttpRequest) :
    (createKey gate raw body : Action D (Reply D)).Uses
      (AdminTouches request (.createKey raw body)) := by
  unfold createKey
  apply proceed_uses
  intro id parsed
  obtain rfl := parsePlainId_eq_ok parsed
  refine attemptQuery_uses (findTenant_uses gate id) (fun _ own => Or.inl own) fun found => ?_
  cases found with
  | none => trivial
  | some tenant =>
      apply proceed_uses
      intro scopes _
      refine ⟨trivial, fun now => ⟨trivial, fun first => ⟨trivial, fun second =>
        ⟨trivial, fun third => ?_⟩⟩⟩⟩
      apply proceed_uses
      intro expiresAtMs _
      refine storeIssued_touches gate ?_ body request
      rfl

theorem tenantUsage_touches (gate : Gate) (query : UsageQuery) (request : HttpRequest) :
    (tenantUsage gate query request : Action D (Reply D)).Uses
      (AdminTouches request (.tenantUsage query)) := by
  unfold tenantUsage
  cases named : query.tenantId with
  | none => trivial
  | some raw =>
      apply proceed_uses
      intro id parsed
      obtain rfl := parsePlainId_eq_ok parsed
      refine attemptQuery_uses (findTenant_uses gate id) (fun _ own => ⟨id, named, own⟩)
        fun found => ?_
      cases found with
      | none => trivial
      | some tenant =>
          refine Uses.bind ((Uses.makes _).within fun asked makes => ?_) fun result => trivial
          exact ⟨_, makes⟩

theorem adminHandler_touches (gate : Gate) (route : AdminRoute) (request : HttpRequest) :
    (adminHandler gate route request : Action D (Reply D)).Uses (AdminTouches request route) := by
  cases route with
  | listTenants =>
      refine ⟨trivial, fun answer => ?_⟩
      cases answer <;> trivial
  | createTenant body =>
      show (createTenant gate body).Uses _
      unfold createTenant
      cases given : body.id with
      | some raw =>
          apply proceed_uses
          intro id parsed
          refine createTenantAs_touches gate body (fun own same => ?_) request
          rw [given, Option.mem_some_iff] at same
          exact (parsePlainId_eq_ok parsed).trans same
      | none =>
          exact ⟨trivial, fun id => createTenantAs_touches gate body (by simp [given]) request⟩
  | getTenant raw =>
      apply proceed_uses
      intro id parsed
      obtain rfl := parsePlainId_eq_ok parsed
      refine attemptQuery_uses (findTenant_uses gate id) (fun _ own => own) fun found => ?_
      cases found <;> trivial
  | listKeys raw =>
      apply proceed_uses
      intro id parsed
      refine ⟨parsePlainId_eq_ok parsed, fun answer => ?_⟩
      cases answer <;> trivial
  | createKey id body => exact createKey_touches gate id body request
  | revokeKey raw =>
      apply proceed_uses
      intro keyId parsed
      obtain rfl := parsePlainId_eq_ok parsed
      refine ⟨trivial, fun now => ?_⟩
      have revokes : (Tenancy.revokeKey keyId now).Uses (· = .revokeKey now keyId) := by
        refine ⟨rfl, fun answer => ?_⟩
        cases answer <;> trivial
      refine attemptQuery_uses revokes (fun _ own => ⟨now, own⟩) fun revoked => ?_
      cases revoked <;> trivial
  | tenantUsage query => exact tenantUsage_touches gate query request

end Admin

/-! ## Starts -/

section Starts

variable {D : DataPlane}

theorem perform_data (state : ApiState D) {asked : ApiCall D} (other : ∀ inner, asked ≠ .data inner) :
    (state.perform asked).2.data = state.data := by
  cases asked with
  | data inner => exact absurd rfl (other inner)
  | accounts statement =>
      simp only [ApiState.perform]
      split <;> rfl
  | _ => rfl

theorem boot_data (gate : Gate) (outside : Nat → ApiOutside) (state : ApiState D) :
    (boot gate outside state).2.data = D.reopen state.data := by
  have uses : (startUp gate : Program (ApiCall D) _ _).Uses fun asked =>
      ∀ inner, asked ≠ .data inner := by
    refine ⟨fun inner => by simp, fun now => ?_⟩
    apply Uses.attempt
    · apply (ofQuery_uses _).mono
      intro asked isQuery inner
      obtain ⟨statement, rfl⟩ := isQuery
      simp
    · exact fun tenant => ⟨fun inner => by simp, fun counted => trivial⟩
  have kept := uses.run_keeps ApiState.perform (fun later => later.data = D.reopen state.data)
    (fun later asked same other => (perform_data later other).trans same)
    (begun outside state) rfl
  unfold boot
  dsimp only
  split <;> exact kept

end Starts

/-! ## Calls of the engine -/

section Engine

variable {gate : Gate} {start : ApiState (enginePlane P R Q kind config)} {moves : List ApiMove}
  {final : ApiServer (enginePlane P R Q kind config)}

def engineOf (state : ApiState (enginePlane P R Q kind config)) : Engine := World.engine state.data

def outsideOf (state : ApiState (enginePlane P R Q kind config)) : Outside :=
  World.outside state.data 0

def Saw (kinds : EngineEntry → Prop) (entry : Entry (enginePlane P R Q kind config)) : Prop :=
  ∃ made : EngineEntry, kinds made ∧ entry = ⟨.data (PlaneCall.engine made.1), made.2⟩

theorem perform_engine (state : ApiState (enginePlane P R Q kind config))
    (asked : ApiCall (enginePlane P R Q kind config)) :
    (∃ inner, asked = .data (PlaneCall.engine inner) ∧ engineOf (state.perform asked).2 =
      ((engineOf state).perform P (outsideOf state) inner).2) ∨
      ∃ dictionaries, engineOf (state.perform asked).2 = { engineOf state with dictionaries } := by
  by_cases data : ∃ inner, asked = .data inner
  · obtain ⟨inner, rfl⟩ := data
    cases inner using PlaneCall.casesOn with
    | engine inner => exact Or.inl ⟨inner, rfl, rfl⟩
    | resolve id => exact Or.inr ⟨_, rfl⟩
    | listGrants tenantId limit search => exact Or.inr ⟨(engineOf state).dictionaries, rfl⟩
    | report own ctx => exact Or.inr ⟨(engineOf state).dictionaries, rfl⟩
  · push Not at data
    refine Or.inr ⟨(engineOf state).dictionaries, ?_⟩
    exact congrArg World.engine (perform_data state data)

theorem boot_engine (gate : Gate) (outside : Nat → ApiOutside)
    (state : ApiState (enginePlane P R Q kind config)) :
    ∃ dictionaries, engineOf (boot gate outside state).2 =
      { engineOf state with dictionaries } := by
  refine ⟨(World.engine ((enginePlane P R Q kind config).reopen state.data)).dictionaries, ?_⟩
  unfold engineOf
  rw [boot_data]
  rfl

theorem handle_touches (own : DataRoute) (ctx : Tenancy.TenantContext) (headers : Headers)
    (body : Bytes) : (route P R Q config own ctx headers body).Uses (Touches P own ctx body) :=
  Safe.uses (route_keeps own []) fun _ _ => id

theorem report_uses (query : UsageQuery) (ctx : Tenancy.TenantContext) (headers : Headers)
    (body : Bytes) :
    ((enginePlane P R Q kind config).handle (.myUsage query) ctx headers body).Uses fun asked =>
      asked = PlaneCall.report (.myUsage query) ctx :=
  ⟨rfl, fun _ => trivial⟩

/-- What a request reaches past the gate for whom it acts: on a route of objects what the
route touches of the tenant, on one of administration what the route names. -/
def Reaches (P : Platform) (request : HttpRequest) (ctx : Tenancy.TenantContext)
    (asked : ApiCall (enginePlane P R Q kind config)) : Prop :=
  match request.route with
  | .data own => ∃ inner, asked = .data inner ∧ Touches P own ctx request.body inner
  | .admin own => AdminTouches request own asked

theorem reaches_of_within {request : HttpRequest} {ctx : Tenancy.TenantContext}
    {asked : ApiCall (enginePlane P R Q kind config)} (within : Within gate request ctx asked) :
    Reaches P request ctx asked := by
  unfold Reaches
  cases shape : request.route with
  | data own =>
      obtain ⟨inner, rfl, makes⟩ := within_data within shape
      exact ⟨inner, rfl, (handle_touches own ctx _ _).of_makes makes⟩
  | admin own =>
      rw [Within, handler, shape] at within
      exact (adminHandler_touches gate own _).of_makes within

theorem Reaches.engine {request : HttpRequest} {ctx : Tenancy.TenantContext}
    {reached : ApiCall (enginePlane P R Q kind config)} (reaches : Reaches P request ctx reached)
    {asked : EngineCall} (same : reached = .data (PlaneCall.engine asked)) :
    ∃ own, request.route = .data own ∧
      EngineTouches P own ctx.tenant.id request.body asked := by
  subst same
  unfold Reaches at reaches
  split at reaches
  · rename_i own shape
    obtain ⟨inner, same, touches⟩ := reaches
    obtain rfl := ApiCall.data.inj same
    exact ⟨own, shape, touches⟩
  · rename_i own _
    cases own with
    | tenantUsage query =>
        obtain ⟨other, makes⟩ := reaches
        cases (report_uses query other _ _).of_makes makes
    | _ => exact reaches.elim

/-- A call is one of the gate's, or was made for somebody who is held to the route. -/
theorem reached_of_run (ran : execOf gate (Server.idle start) moves = some final)
    {job : ApiJob (enginePlane P R Q kind config)} (member : job ∈ final.jobs)
    {entry : Entry (enginePlane P R Q kind config)} (seen : entry ∈ job.seen) :
    Looks entry.1 ∨
      ∃ ctx, Held gate job.ticket.origin.headers job.seen final.state.accounts ctx ∧
        has ctx job.ticket.origin.route.scope = true ∧
        Reaches P job.ticket.origin ctx entry.1 := by
  obtain ⟨told, acts, -⟩ := acts_of_run ran member
  rcases acts entry seen with looks | ⟨ctx, credential, inScope, within⟩
  · exact Or.inl looks
  · exact Or.inr ⟨ctx, credential.held told, inScope, reaches_of_within within⟩

theorem touched_of_run (ran : execOf gate (Server.idle start) moves = some final)
    {job : ApiJob (enginePlane P R Q kind config)} (member : job ∈ final.jobs)
    {entry : Entry (enginePlane P R Q kind config)} (seen : entry ∈ job.seen) {asked : EngineCall}
    (engine : entry.1 = .data (PlaneCall.engine asked)) :
    ∃ tenantId own, ActsFor gate final.state.accounts job tenantId ∧
      job.ticket.origin.route = .data own ∧
      EngineTouches P own tenantId job.ticket.origin.body asked := by
  rcases reached_of_run ran member seen with looks | ⟨ctx, held, inScope, reaches⟩
  · rw [engine] at looks
    cases looks
  · obtain ⟨own, shape, touches⟩ := reaches.engine engine
    exact ⟨ctx.tenant.id, own, ⟨ctx, held, rfl, inScope⟩, shape, touches⟩

/-- Some request has made the call for a tenant that is held to its route. -/
def CausedBy (P : Platform) (gate : Gate) (final : ApiServer (enginePlane P R Q kind config))
    (kinds : EngineCall → Prop) : Prop :=
  ∃ job ∈ final.jobs, ∃ tenantId own asked, kinds asked ∧
    ActsFor gate final.state.accounts job tenantId ∧ job.ticket.origin.route = .data own ∧
    EngineTouches P own tenantId job.ticket.origin.body asked

/-- What comes to be so of the tables or the blobs, or is told to a request to be so, is so by
the calls of requests. -/
theorem caused_of_run (fact : Engine → Prop) (tells : EngineEntry → Prop)
    {kinds : EngineCall → Prop}
    (calls : ∀ engine outside asked, ¬ fact engine →
      fact (Engine.perform P engine outside asked).2 → kinds asked)
    (loads : ∀ (engine : Engine) dictionaries, fact { engine with dictionaries } → fact engine)
    (told : ∀ engine outside asked, tells ⟨asked, (Engine.perform P engine outside asked).1⟩ →
      fact engine)
    (before : ¬ fact (engineOf start)) (ran : execOf gate (Server.idle start) moves = some final)
    (after : fact (engineOf final.state) ∨ final.Made (Saw tells)) :
    CausedBy P gate final kinds := by
  have made : final.Made (Saw fun made => kinds made.1) := by
    refine Server.caused_exec (fun state => fact (engineOf state)) ?_ ?_ ?_ before ?_ ran after
    · intro state asked now
      by_cases already : fact (engineOf state)
      · exact Or.inl already
      · rcases perform_engine state asked with ⟨inner, rfl, same⟩ | ⟨dictionaries, same⟩
        · rw [same] at now
          exact Or.inr ⟨⟨inner, _⟩, calls _ _ inner already now, rfl⟩
        · rw [same] at now
          exact absurd (loads _ _ now) already
    · intro state how now
      obtain ⟨dictionaries, same⟩ := boot_engine gate how state
      rw [same] at now
      exact loads _ _ now
    · intro state asked saw
      obtain ⟨⟨inner, answer⟩, tells, same⟩ := saw
      obtain ⟨rfl, answered⟩ := Sigma.mk.inj same
      have own : (Engine.perform P (engineOf state) (outsideOf state) inner).1 = answer :=
        eq_of_heq answered
      rw [← own] at tells
      exact told _ _ inner tells
    · intro early
      obtain ⟨job, none, -⟩ := early
      simp [Server.idle] at none
  obtain ⟨job, member, entry, seen, ⟨asked, answer⟩, isKind, same⟩ := made
  obtain ⟨tenantId, own, acts, shape, touches⟩ := touched_of_run ran member seen
    (congrArg Sigma.fst same)
  exact ⟨job, member, tenantId, own, asked, isKind, acts, shape, touches⟩

end Engine

end Api

end Syntra

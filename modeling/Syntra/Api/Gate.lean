import Syntra.Api

/-!
# The gate

`authenticate` and `require_scope`, the handlers of tenants and keys behind them, and
the start of the engine.
-/

set_option autoImplicit false

namespace Syntra

namespace Api

open Program Tenancy

/-- What the gate is configured with. -/
structure Gate where
  libraries : Libraries
  apiKeys : List String

variable {D : DataPlane}

/-! ## Credentials -/

def bearer (value : String) : Option String :=
  if Text.startsWith value "Bearer " then some (String.ofList (value.toList.drop 7)) else none

def presentedKey (headers : Headers) : Option String :=
  headers.filled "x-api-key" <|>
    (((headers.text "authorization").bind bearer).map Text.trim).filter (· ≠ "")

/-- The differences of all bytes are gathered before they are looked at. -/
def constantTimeEq (a b : Bytes) : Bool :=
  if a.length ≠ b.length then false
  else ((a.zip b).foldl (fun diff pair => diff ||| (pair.1 ^^^ pair.2)) 0) == 0

theorem constantTimeEq_iff {a b : Bytes} : constantTimeEq a b = true ↔ a = b := by
  unfold constantTimeEq
  split
  · rename_i uneven
    simp only [Bool.false_eq_true, false_iff]
    intro same
    exact uneven (congrArg List.length same)
  · rename_i even
    rw [beq_iff_eq, gathered_eq_zero (Decidable.not_not.mp even)]
    simp

def has (ctx : Tenancy.TenantContext) (scope : Scope) : Bool :=
  decide (scope ∈ ctx.scopes) || decide (Scope.admin ∈ ctx.scopes)

def allScopes : Scopes := Scope.all.toFinset

def defaultContext (tenant : Tenant) : Tenancy.TenantContext :=
  { tenant, keyId := none, scopes := allScopes }

def attemptQuery {α β : Type} (query : Query α) (next : α → Action D β) : Action D β :=
  attempt (ofQuery query) ApiError.internal next

def authenticateQuery (gate : Gate) (presented : String) (now : Int) :
    Action D Tenancy.TenantContext :=
  attemptQuery (authenticate gate.libraries presented now) fun
    | some ctx => .done (.ok ctx)
    | none => .done (.error (.unauthorized "credencial inválida"))

/-- `authenticate`, before the request goes on. -/
def admitted (gate : Gate) (headers : Headers) : Action D Tenancy.TenantContext :=
  .call .nowMillis fun now =>
    match presentedKey headers with
    | some presented =>
      if gate.apiKeys.any fun k => constantTimeEq (Text.utf8 k) (Text.utf8 presented) then
        .call .defaultTenant fun tenant => .done (.ok (defaultContext tenant))
      else authenticateQuery gate presented now
    | none =>
      .call .authRequired fun required =>
        if required then
          .done (.error ((ApiError.unauthorized "credencial ausente").withHint
            "Envie a chave em 'x-api-key: <chave>' ou 'Authorization: Bearer <chave>'."))
        else .call .defaultTenant fun tenant => .done (.ok (defaultContext tenant))

def requireScope {α : Type} (scope : Scope) (ctx : Tenancy.TenantContext) (next : Action D α) :
    Action D α :=
  if has ctx scope then next
  else .done (.error (.forbidden s!"esta rota exige o escopo '{scope.asStr}'"))

/-! ## Tenants and keys -/

structure TenantView where
  id : String
  name : String
  plan : String
  price : PriceConfig
  active : Bool
  createdAtMs : Int
  deriving Repr, DecidableEq

def TenantView.of (t : Tenant) : TenantView :=
  { id := t.id, name := t.name, plan := t.plan.asStr, price := t.price, active := t.active
    createdAtMs := t.createdAtMs }

structure KeyView where
  keyId : String
  tenantId : String
  name : String
  scopes : List String
  expiresAtMs : Option Int
  revokedAtMs : Option Int
  lastUsedAtMs : Option Int
  createdAtMs : Int
  deriving Repr, DecidableEq

def KeyView.of (r : ApiKeyRecord) : KeyView :=
  { keyId := r.keyId, tenantId := r.tenantId, name := r.name
    scopes := (Scope.all.filter (· ∈ r.scopes)).map Scope.asStr
    expiresAtMs := r.expiresAtMs, revokedAtMs := r.revokedAtMs, lastUsedAtMs := r.lastUsedAtMs
    createdAtMs := r.createdAtMs }

structure IssuedKeyView where
  key : String
  warning : String
  record : KeyView
  deriving Repr, DecidableEq

inductive Reply (D : DataPlane) where
  | tenants (tenants : List TenantView)
  | tenant (tenant : TenantView)
  | keys (keys : List KeyView)
  | issued (key : IssuedKeyView)
  | revoked (keyId : String)
  | data (reply : D.Reply)

def dayMs : Int := 24 * 60 * 60 * 1000

def plainIdChar (c : Char) : Bool :=
  ('a' ≤ c && c ≤ 'z') || ('A' ≤ c && c ≤ 'Z') || ('0' ≤ c && c ≤ '9') || c == '-' || c == '_' ||
    c == '.'

/-- The identifier of a tenant or a key, which must be as it is after cleaning. -/
def parsePlainId (raw : String) : Except ApiError String :=
  let cleaned := String.ofList ((raw.toList.filter plainIdChar).take 64)
  if cleaned = "" ∨ cleaned ≠ raw then
    .error (.badRequest "invalid_tenant_id"
      "o identificador aceita apenas letras, dígitos, '-', '_' e '.'")
  else .ok cleaned

def parseScopeList : List String → Except ApiError Scopes
  | [] => .ok ∅
  | item :: items =>
    match Scope.parse item with
    | none =>
      .error (.badRequest "invalid_scope"
        s!"escopo '{item}' inválido; use compress, read, delete ou admin")
    | some scope => (parseScopeList items).map (insert scope ·)

def parseScopes (raw : Option (List String)) : Except ApiError Scopes :=
  match raw with
  | none => .ok {.compress, .read}
  | some list =>
    match parseScopeList list with
    | .error e => .error e
    | .ok scopes =>
      if scopes = ∅ then .error (.badRequest "invalid_scope" "informe ao menos um escopo")
      else .ok scopes

/-- `Uuid::to_string`. -/
def uuidText (id : Uuid) : String :=
  let h := Text.hexDigits id.val
  Text.join '-' [String.ofList (h.take 8), String.ofList ((h.drop 8).take 4),
    String.ofList ((h.drop 12).take 4), String.ofList ((h.drop 16).take 4),
    String.ofList (h.drop 20)]

def proceed {α β : Type} (value : Except ApiError α) (next : α → Action D β) : Action D β :=
  match value with
  | .ok value => next value
  | .error e => .done (.error e)

def listTenants (gate : Gate) : Action D (Reply D) :=
  .call .allTenants fun
    | .error e => .done (.error (.internal e))
    | .ok rows =>
      .done (.ok (.tenants (rows.map fun row => TenantView.of (row.intoTenant gate.libraries))))

def createTenantAs (gate : Gate) (body : CreateTenantBody) (id : String) : Action D (Reply D) :=
  if Text.trim body.name = "" then .done (.error (.badRequest "invalid_name" "informe o nome"))
  else
    let plan := match body.plan with
      | none => .ok PlanKind.savingsShare
      | some p =>
        match PlanKind.parse p with
        | some plan => .ok plan
        | none =>
          .error (ApiError.badRequest "invalid_plan"
            s!"plano '{p}' inválido; use savings_share ou ingested_gb")
    proceed plan fun plan =>
    .call .nowMillis fun now =>
      let tenant : Tenant :=
        { id, name := Text.trim body.name, plan
          price := body.price.getD PriceConfig.default
          active := body.active.getD true
          createdAtMs := now }
      attemptQuery (upsertTenant gate.libraries tenant) fun _ =>
        .done (.ok (.tenant (TenantView.of tenant)))

def createTenant (gate : Gate) (body : CreateTenantBody) : Action D (Reply D) :=
  match body.id with
  | some raw => proceed (parsePlainId raw) (createTenantAs gate body)
  | none => .call .newUuid fun id => createTenantAs gate body (uuidText id)

def tenantNotFound (id : String) : ApiError := .notFound s!"tenant {id} não encontrado"

def getTenant (gate : Gate) (raw : String) : Action D (Reply D) :=
  proceed (parsePlainId raw) fun id =>
  attemptQuery (findTenant gate.libraries id) fun
    | none => .done (.error (tenantNotFound id))
    | some tenant => .done (.ok (.tenant (TenantView.of tenant)))

def listKeys (raw : String) : Action D (Reply D) :=
  proceed (parsePlainId raw) fun id =>
  .call (.keysOf id) fun
    | .error e => .done (.error (.internal e))
    | .ok rows => .done (.ok (.keys (rows.map fun row => KeyView.of row.intoRecord)))

def issuedWarning : String :=
  "A chave é exibida apenas nesta resposta. Guarde-a agora: o servidor " ++
    "armazena somente o hash e não há como recuperá-la."

def expiryOf (days : Option Int) (now : Int) : Except ApiError (Option Int) :=
  match days with
  | none => .ok none
  | some days =>
    if days ≤ 0 then
      .error (.badRequest "invalid_expiry" "expires_in_days deve ser positivo")
    else .ok (some (now + max 1 (min days 3650) * dayMs))

/-- Stores the key, and from then on nobody comes in without one. -/
def storeIssued (gate : Gate) (issued : IssuedKey) : Action D (Reply D) :=
  attemptQuery (storeKey gate.libraries issued) fun _ =>
  .call .markAuthRequired fun _ =>
  .done (.ok (.issued
    { key := issued.secret, warning := issuedWarning, record := KeyView.of issued.record }))

def createKey (gate : Gate) (raw : String) (body : CreateKeyBody) : Action D (Reply D) :=
  proceed (parsePlainId raw) fun id =>
  attemptQuery (findTenant gate.libraries id) fun
    | none => .done (.error (tenantNotFound id))
    | some _ =>
      proceed (parseScopes body.scopes) fun scopes =>
      .call .nowMillis fun now =>
      .call .newUuid fun first => .call .newUuid fun second => .call .newUuid fun third =>
      let issued := generateKey first second third id (body.name.getD "sem-nome") scopes now
      proceed (expiryOf body.expiresInDays now) fun expiresAtMs =>
      storeIssued gate { issued with record := { issued.record with expiresAtMs } }

def revokeKey (raw : String) : Action D (Reply D) :=
  proceed (parsePlainId raw) fun keyId =>
  .call .nowMillis fun now =>
  attemptQuery (Tenancy.revokeKey keyId now) fun
    | true => .done (.ok (.revoked keyId))
    | false => .done (.error (.notFound s!"chave {keyId} não encontrada ou já revogada"))

/-! ## The whole request -/

/-- What the route does for whoever was admitted. -/
def dataHandler (route : DataRoute) (ctx : Tenancy.TenantContext) (request : HttpRequest) :
    Action D (Reply D) :=
  ((D.handle route ctx request.headers request.body).within .data fun _ answer => answer).bind
    fun result => .done (result.map .data)

/-- `tenant_usage` reports on any tenant as `my_usage` does on the caller's. -/
def tenantUsage (gate : Gate) (query : UsageQuery) (request : HttpRequest) : Action D (Reply D) :=
  match query.tenantId with
  | none => .done (.error (.badRequest "missing_tenant" "informe tenant_id"))
  | some raw =>
    proceed (parsePlainId raw) fun id =>
    attemptQuery (findTenant gate.libraries id) fun
      | none => .done (.error (tenantNotFound id))
      | some tenant =>
        dataHandler (.myUsage query) { tenant, keyId := none, scopes := allScopes } request

def adminHandler (gate : Gate) (route : AdminRoute) (request : HttpRequest) : Action D (Reply D) :=
  match route with
  | .listTenants => listTenants gate
  | .createTenant body => createTenant gate body
  | .getTenant id => getTenant gate id
  | .listKeys id => listKeys id
  | .createKey id body => createKey gate id body
  | .revokeKey keyId => revokeKey keyId
  | .tenantUsage query => tenantUsage gate query request

def handler (gate : Gate) (request : HttpRequest) (ctx : Tenancy.TenantContext) :
    Action D (Reply D) :=
  match request.route with
  | .data route => dataHandler route ctx request
  | .admin route => adminHandler gate route request

def serve (gate : Gate) (request : HttpRequest) : Action D (Reply D) :=
  attempt (admitted gate request.headers) id fun ctx =>
    requireScope request.route.scope ctx (handler gate request ctx)

/-! ## The start of the engine -/

def defaultTenantId : String := "default"

def ensureDefaultTenant (L : Libraries) (nowMs : Int) : Query Tenant :=
  (findTenant L defaultTenantId).andThen fun
    | some tenant => .done (.ok tenant)
    | none =>
      let tenant : Tenant :=
        { id := defaultTenantId, name := "Tenant padrão", plan := .savingsShare
          price := PriceConfig.default, active := true, createdAtMs := nowMs }
      (upsertTenant L tenant).andThen fun _ => .done (.ok tenant)

/-- What `EngineState::new` reads from the database: the default tenant, and whether a
credential is needed. -/
def startUp (gate : Gate) : Program (ApiCall D) (ApiCall.Answer D) (Except DbError (Tenant × Bool)) :=
  .call .nowMillis fun now =>
  attempt (ofQuery (ensureDefaultTenant gate.libraries now)) id fun tenant =>
  .call .countKeys fun counted =>
    -- An error of the count is taken for an empty table.
    let issuedKeys := counted.toOption.getD 0
    .done (.ok (tenant, !gate.apiKeys.isEmpty || decide (0 < issuedKeys)))

/-- A start of the process, which fails when the default tenant cannot be had. -/
def boot (gate : Gate) (outside : Nat → ApiOutside) (state : ApiState D) : Bool × ApiState D :=
  let (result, state) := (startUp gate).run ApiState.perform
    { state with outside, data := D.reopen state.data }
  match result with
  | .error _ => (false, state)
  | .ok (defaultTenant, authRequired) => (true, { state with defaultTenant, authRequired })

end Api

end Syntra

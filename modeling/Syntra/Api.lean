import Syntra.Service
import Syntra.Tenancy.Keys

/-!
# The API

What a request of the API is, who may make it, and the routes of tenants and keys.
A request is admitted by its credential, then by the scope of its route, and only
then handled.
-/

set_option autoImplicit false

namespace Syntra

namespace Api

open Program Tenancy

/-! ## Errors -/

def hintFor : String → Option String
  | "envelope_invalid" =>
    some "O corpo deve ser um container .syntra (protobuf) produzido por POST /api/v1/compress."
  | "envelope_corrupted" =>
    some "O checksum do payload não confere. Rebaixe para a última cópia boa ou recomprima o original."
  | "dictionary_unavailable" =>
    some ("Esta essência depende de um dicionário treinado. Restaure o diretório SYNTRA_DICT_PATH " ++
      "ou aponte SYNTRA_REDIS_URL para o cluster que o contém.")
  | "dictionary_mismatch" =>
    some ("O dicionário com este id tem conteúdo diferente do usado na compressão. " ++
      "Verifique se o diretório de dicionários foi sobrescrito.")
  | "decompressed_too_large" =>
    some ("A reconstrução passaria do teto: o menor entre o tamanho declarado no envelope e " ++
      "SYNTRA_MAX_DECOMPRESSED_MB. Um envelope forjado ou adulterado pode declarar menos do que " ++
      "contém. Se o envelope for legítimo e grande, aumente SYNTRA_MAX_DECOMPRESSED_MB.")
  | "payload_too_large" =>
    some ("O corpo passou do limite SYNTRA_MAX_BODY_MB. Aumente a variável no servidor ou envie " ++
      "um arquivo menor.")
  | "fidelity_mismatch" =>
    some ("A reconstrução não bate com o hash do original — indício de corrupção de dados. " ++
      "Não use este resultado.")
  | "unsupported_codec" => some "Consulte GET /api/v1/codecs para a lista de codecs e faixas de nível."
  | "forbidden" =>
    some ("A chave usada não tem o escopo necessário para esta rota. Emita outra em " ++
      "POST /api/v1/admin/tenants/{id}/keys.")
  | "overloaded" => some "Todos os permits de CPU estão em uso. Tente novamente com backoff."
  | _ => none

structure ApiError where
  status : Nat
  code : String
  message : String
  hint : Option String
  deriving Repr, DecidableEq

namespace ApiError

def new (status : Nat) (code message : String) : ApiError :=
  { status, code, message, hint := hintFor code }

def withHint (error : ApiError) (hint : String) : ApiError := { error with hint := some hint }

def badRequest (code message : String) : ApiError := new 400 code message

def notFound (message : String) : ApiError := new 404 "not_found" message

def forbidden (message : String) : ApiError := new 403 "forbidden" message

def unauthorized (message : String) : ApiError := new 401 "unauthorized" message

def internal (message : String) : ApiError := new 500 "internal_error" message

end ApiError

/-! ## Requests -/

/-- The headers by their names in lower case, the first first. -/
abbrev Headers := List (String × Bytes)

/-- `HeaderValue::to_str`: the visible ASCII characters, spaces and tabs. -/
def headerText (value : Bytes) : Option String :=
  if value.all fun b => (32 ≤ b && b < 127) || b == 9 then
    some (String.ofList (value.map fun b => Char.ofNat b.toNat))
  else none

def Headers.text (headers : Headers) (name : String) : Option String :=
  (headers.lookup name).bind headerText

/-- A header without the blanks around it, unless nothing is left. -/
def Headers.filled (headers : Headers) (name : String) : Option String :=
  ((headers.text name).map Text.trim).filter (· ≠ "")

structure CompressParams where
  filename : Option String
  mime : Option String
  codec : Option String
  level : Option Int
  effort : Option String
  verify : Option Bool
  persist : Option Bool
  dictionary : Option Bool
  dedup : Option Bool
  response : Option String

structure ListParams where
  search : Option String
  limit : Option Int

structure UsageQuery where
  fromMs : Option Int
  toMs : Option Int
  days : Option Int
  tenantId : Option String
  events : Option Int

structure CreateTenantBody where
  id : Option String
  name : String
  plan : Option String
  price : Option PriceConfig
  active : Option Bool

structure CreateKeyBody where
  name : Option String
  scopes : Option (List String)
  expiresInDays : Option Int

inductive DataRoute where
  | compress (params : CompressParams)
  | process (params : CompressParams)
  | simProcess (params : CompressParams)
  | decompress (params : CompressParams)
  | analyze (params : CompressParams)
  | inspect
  | listObjects (params : ListParams)
  | getObject (id : String)
  | getContent (id : String)
  | getEssence (id : String)
  | myUsage (query : UsageQuery)
  | codecs
  | dictionaries
  | stats
  | reconstruct (params : CompressParams)
  | legacyStats
  | listFiles (params : ListParams)
  | downloadFile (id : String)
  | deleteObject (id : String) (purge : Option Bool)
  | deleteFile (id : String)

inductive AdminRoute where
  | listTenants
  | createTenant (body : CreateTenantBody)
  | getTenant (id : String)
  | listKeys (id : String)
  | createKey (id : String) (body : CreateKeyBody)
  | revokeKey (keyId : String)
  | tenantUsage (query : UsageQuery)

inductive Route where
  | data (route : DataRoute)
  | admin (route : AdminRoute)

def DataRoute.scope : DataRoute → Scope
  | compress _ | process _ | simProcess _ => .compress
  | decompress _ | analyze _ | inspect | listObjects _ | getObject _ | getContent _
  | getEssence _ | myUsage _ | codecs | dictionaries | stats | reconstruct _ | legacyStats
  | listFiles _ | downloadFile _ => .read
  | deleteObject _ _ | deleteFile _ => .delete

def Route.scope : Route → Scope
  | data route => route.scope
  | admin _ => .admin

structure HttpRequest where
  route : Route
  headers : Headers
  body : Bytes

/-! ## What the handlers call -/

/-- What the routes of objects and usage are handled with, whatever they do. -/
structure DataPlane where
  State : Type
  Call : Type
  Answer : Call → Type
  perform : State → (asked : Call) → Answer asked × State
  /-- What a restart loads again. -/
  reopen : State → State
  Reply : Type
  handle : DataRoute → Tenancy.TenantContext → Headers → Bytes →
    Program Call Answer (Except ApiError Reply)

variable (D : DataPlane)

inductive ApiCall where
  | accounts (statement : Tenancy.Statement)
  | allTenants
  | keysOf (tenantId : String)
  | countKeys
  | authRequired
  | markAuthRequired
  | defaultTenant
  | nowMillis
  | newUuid
  | data (asked : D.Call)

abbrev ApiCall.Answer : ApiCall D → Type
  | .accounts statement => statement.Answer
  | .allTenants => Except DbError (List TenantRow)
  | .keysOf _ => Except DbError (List KeyRow)
  | .countKeys => Except DbError Int
  | .authRequired => Bool
  | .markAuthRequired => Unit
  | .defaultTenant => Tenant
  | .nowMillis => Int
  | .newUuid => Uuid
  | .data asked => D.Answer asked

abbrev Action (α : Type) := Program (ApiCall D) (ApiCall.Answer D) (Except ApiError α)

structure ApiOutside where
  fault : Option DbError
  clock : Int
  uuid : Uuid

structure ApiState where
  accounts : Tenancy.Accounts
  authRequired : Bool
  defaultTenant : Tenant
  data : D.State
  outside : Nat → ApiOutside

variable {D}

def orFault {α : Type} (fault : Option DbError) (value : α) : Except DbError α :=
  fault.elim (.ok value) .error

def ApiState.perform (state : ApiState D) (asked : ApiCall D) : asked.Answer × ApiState D :=
  let now := state.outside 0
  let later := { state with outside := fun n => state.outside (n + 1) }
  match asked with
  | .accounts statement =>
    match now.fault with
    | some e => (.error e, later)
    | none =>
      let (answer, accounts) := state.accounts.execute statement
      (answer, { later with accounts })
  | .allTenants =>
    (orFault now.fault (state.accounts.tenants.rows.mergeSort fun a b =>
      decide (a.createdAtMs ≤ b.createdAtMs)), later)
  | .keysOf tenantId =>
    (orFault now.fault ((state.accounts.keys.rows.filter fun row =>
      row.tenantId = tenantId).mergeSort fun a b => decide (b.createdAtMs ≤ a.createdAtMs)), later)
  | .countKeys => (orFault now.fault (state.accounts.keys.rows.length : Int), later)
  | .authRequired => (state.authRequired, later)
  | .markAuthRequired => ((), { later with authRequired := true })
  | .defaultTenant => (state.defaultTenant, later)
  | .nowMillis => (now.clock, later)
  | .newUuid => (now.uuid, later)
  | .data asked =>
    let (answer, data) := D.perform state.data asked
    (answer, { later with data })

@[irreducible] def ofQuery {α : Type} (query : Query α) :
    Program (ApiCall D) (ApiCall.Answer D) (Except DbError α) :=
  query.within .accounts fun _ answer => answer

section OfQuery

variable {α : Type}

@[simp] theorem ofQuery_done (result : Except DbError α) :
    (ofQuery (.done result) : Program (ApiCall D) (ApiCall.Answer D) _) = .done result := by
  simp only [ofQuery, within]

theorem ofQuery_send (statement : Tenancy.Statement) (next : statement.Rows → Query α) :
    (ofQuery ((Query.send statement).andThen next) : Program (ApiCall D) (ApiCall.Answer D) _) =
      .call (.accounts statement) fun answer =>
        match answer with
        | .ok rows => ofQuery (next rows)
        | .error e => .done (.error e) := by
  simp only [ofQuery, Query.andThen, Query.send, ask, attempt, Program.bind, within, call.injEq,
    heq_eq_eq, true_and]
  funext answer
  cases answer <;> rfl

theorem ofQuery_only (statement : Tenancy.Statement) :
    (ofQuery (Query.send statement) : Program (ApiCall D) (ApiCall.Answer D) _) =
      .call (.accounts statement) .done := by
  simp only [ofQuery, Query.send, ask, within]

theorem ofQuery_findTenant (L : Libraries) (id : String) (next : Option Tenant → Query α) :
    (ofQuery ((findTenant L id).andThen next) : Program (ApiCall D) (ApiCall.Answer D) _) =
      .call (.accounts (.findTenant id)) fun answer =>
        match answer with
        | .ok row => ofQuery (next (row.map (TenantRow.intoTenant L)))
        | .error e => .done (.error e) := by
  simp only [ofQuery, findTenant, Query.andThen, Query.send, ask, attempt, Program.bind, within,
    call.injEq, heq_eq_eq, true_and]
  funext answer
  cases answer <;> rfl

theorem ofQuery_bind (statement : Tenancy.Statement) (next : statement.Answer → Query α) :
    (ofQuery ((Query.send statement).bind next) : Program (ApiCall D) (ApiCall.Answer D) _) =
      .call (.accounts statement) fun answer => ofQuery (next answer) := by
  simp only [ofQuery, Query.send, ask, Program.bind, within]

end OfQuery

end Api

end Syntra

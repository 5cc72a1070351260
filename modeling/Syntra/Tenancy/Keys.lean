import Syntra.Database
import Syntra.Platform
import Syntra.Tenancy.Tenants

/-!
# API keys

A key is issued once, and the database keeps the hash of its secret.  Calls are
programs of statements on the tables of tenants and keys.
-/

set_option autoImplicit false

namespace Syntra

open Program

namespace Tenancy

/-- What the libraries do for tenants and keys. -/
structure Libraries where
  blake3 : Bytes → Digest
  /-- `serde_json::to_string` and `from_str` of a price. -/
  writePrice : PriceConfig → Except String String
  readPrice : String → Option PriceConfig

structure ApiKeyRecord where
  keyId : String
  tenantId : String
  name : String
  scopes : Scopes
  expiresAtMs : Option Int
  revokedAtMs : Option Int
  lastUsedAtMs : Option Int
  createdAtMs : Int

def ApiKeyRecord.usableAt (key : ApiKeyRecord) (nowMs : Int) : Bool :=
  key.revokedAtMs.isNone && (key.expiresAtMs.map fun e => decide (nowMs < e)).getD true

structure IssuedKey where
  record : ApiKeyRecord
  secret : String

structure TenantContext where
  tenant : Tenant
  keyId : Option String
  scopes : Scopes

/-! ## The text of a key -/

def keyPrefix : String := "syn"

abbrev Uuid := { bytes : Bytes // bytes.length = 16 }

/-- The three identifiers are the random ones it draws. -/
def generateKey (first second third : Uuid) (tenantId name : String) (scopes : Scopes)
    (nowMs : Int) : IssuedKey :=
  let keyId := Text.hexEncode (first.val.take 6)
  let secret := Text.hexEncode ((second.val ++ third.val).take 32)
  { record :=
      { keyId, tenantId, name, scopes, expiresAtMs := none, revokedAtMs := none,
        lastUsedAtMs := none, createdAtMs := nowMs }
    secret := keyPrefix ++ "_" ++ keyId ++ "_" ++ secret }

def hashSecret (L : Libraries) (secret : String) : String :=
  Text.hexEncode (L.blake3 (Text.utf8 secret)).val

def splitPresentedKey (presented : String) : Option (String × String) :=
  match Text.splitn '_' 3 (Text.trim presented).toList with
  | [first, keyId, secret] =>
    if first ≠ keyPrefix.toList || keyId.isEmpty || secret.isEmpty then none
    else some (String.ofList keyId, String.ofList secret)
  | _ => none

/-- The differences of all bytes are gathered before they are looked at. -/
def constantTimeEq (a b : String) : Bool :=
  let (a, b) := (Text.utf8 a, Text.utf8 b)
  if a.length ≠ b.length then false
  else ((a.zip b).foldl (fun diff pair => diff ||| (pair.1 ^^^ pair.2)) 0) == 0

theorem gathered_eq_zero {a b : List UInt8} (even : a.length = b.length) (diff : UInt8) :
    (a.zip b).foldl (fun diff pair => diff ||| (pair.1 ^^^ pair.2)) diff = 0 ↔
      diff = 0 ∧ a = b := by
  induction a generalizing b diff with
  | nil =>
      have none : b = [] := List.eq_nil_of_length_eq_zero even.symm
      simp [none]
  | cons x a ih =>
      cases b with
      | nil => simp at even
      | cons y b =>
          rw [List.zip_cons_cons, List.foldl_cons, ih (by simpa using even)]
          simp [and_assoc]

theorem constantTimeEq_iff {a b : String} : constantTimeEq a b = true ↔ a = b := by
  unfold constantTimeEq
  dsimp only
  split
  · rename_i uneven
    simp only [Bool.false_eq_true, false_iff]
    rintro rfl
    exact uneven rfl
  · rename_i even
    rw [beq_iff_eq, gathered_eq_zero (Decidable.not_not.mp even)]
    constructor
    · rintro ⟨-, same⟩
      exact Text.utf8_injective same
    · rintro rfl
      exact ⟨rfl, rfl⟩

theorem splitPresentedKey_eq_some {presented keyId secret : String} :
    splitPresentedKey presented = some (keyId, secret) ↔
      (Text.trim presented).toList =
        keyPrefix.toList ++ '_' :: (keyId.toList ++ '_' :: secret.toList) ∧
      '_' ∉ keyId.toList ∧ keyId ≠ "" ∧ secret ≠ "" := by
  constructor
  · intro parsed
    unfold splitPresentedKey at parsed
    split at parsed
    · rename_i first key rest parts
      obtain ⟨tail, whole, -, parts⟩ := Text.splitn_eq_cons parts
      obtain ⟨last, rfl, apart, parts⟩ := Text.splitn_eq_cons parts
      cases parts
      split at parsed
      · cases parsed
      · rename_i accepted
        simp only [Bool.or_eq_true, decide_eq_true_eq, not_or, Decidable.not_not,
          List.isEmpty_iff] at accepted
        obtain ⟨⟨rfl, named⟩, filled⟩ := accepted
        simp only [Option.some.injEq, Prod.mk.injEq] at parsed
        obtain ⟨rfl, rfl⟩ := parsed
        simp only [String.toList_ofList]
        refine ⟨whole, apart, ?_, ?_⟩
        · simpa using named
        · simpa using filled
    · cases parsed
  · rintro ⟨whole, apart, named, filled⟩
    have own : '_' ∉ keyPrefix.toList := by decide
    have parts : Text.splitn '_' 3 (Text.trim presented).toList =
        [keyPrefix.toList, keyId.toList, secret.toList] := by
      rw [whole, Text.splitn_join own, Text.splitn_join apart, Text.splitn]
    simp only [splitPresentedKey, parts]
    rw [if_neg (by simp [named, filled])]
    simp

/-! ## Rows -/

structure TenantRow where
  id : String
  name : String
  plan : String
  priceConfig : String
  active : Int
  createdAtMs : Int

def TenantRow.intoTenant (L : Libraries) (row : TenantRow) : Tenant where
  id := row.id
  name := row.name
  plan := (PlanKind.parse row.plan).getD .savingsShare
  price := (L.readPrice row.priceConfig).getD PriceConfig.default
  active := row.active ≠ 0
  createdAtMs := row.createdAtMs

structure KeyRow where
  keyId : String
  tenantId : String
  name : String
  keyHash : String
  scopes : String
  expiresAtMs : Option Int
  revokedAtMs : Option Int
  lastUsedAtMs : Option Int
  createdAtMs : Int

def KeyRow.intoRecord (row : KeyRow) : ApiKeyRecord where
  keyId := row.keyId
  tenantId := row.tenantId
  name := row.name
  scopes := scopesFromString row.scopes
  expiresAtMs := row.expiresAtMs
  revokedAtMs := row.revokedAtMs
  lastUsedAtMs := row.lastUsedAtMs
  createdAtMs := row.createdAtMs

/-- `SET revoked_at_ms = ?`, where it is null. -/
def KeyRow.revokedAt (nowMs : Int) (row : KeyRow) : KeyRow :=
  if row.revokedAtMs.isNone then { row with revokedAtMs := some nowMs } else row

theorem KeyRow.keyId_revokedAt (nowMs : Int) (row : KeyRow) :
    (row.revokedAt nowMs).keyId = row.keyId := by
  unfold revokedAt
  split <;> rfl

structure Accounts where
  tenants : Table fun row : TenantRow => some row.id
  keys : Table fun row : KeyRow => some row.keyId

def Accounts.empty : Accounts := { tenants := Table.empty, keys := Table.empty }

/-! ## Statements -/

inductive Statement where
  | findTenant (id : String)
  | updateTenant (name plan priceConfig : String) (active : Int) (id : String)
  | insertTenant (row : TenantRow)
  | insertKey (row : KeyRow)
  /-- `WHERE key_id = ? AND revoked_at_ms IS NULL`; the number of rows it changed. -/
  | revokeKey (nowMs : Int) (keyId : String)
  | findKey (keyId : String)
  | touchKey (nowMs : Int) (keyId : String)

namespace Statement

abbrev Rows : Statement → Type
  | .findTenant _ => Option TenantRow
  | .findKey _ => Option KeyRow
  | .revokeKey _ _ => Nat
  | .updateTenant _ _ _ _ _ | .insertTenant _ | .insertKey _ | .touchKey _ _ => Unit

abbrev Answer (statement : Statement) : Type := Except DbError statement.Rows

end Statement

namespace Accounts

def execute (accounts : Accounts) : (statement : Statement) → statement.Answer × Accounts
  | .findTenant id => (.ok (accounts.tenants.find id), accounts)
  | .updateTenant name plan priceConfig active id =>
    (.ok (), { accounts with
      tenants := accounts.tenants.modify id
        (fun row => { row with name, plan, priceConfig, active }) fun _ => rfl })
  | .insertTenant row =>
    match accounts.tenants.insert row with
    | some tenants => (.ok (), { accounts with tenants })
    | none => (.error "UNIQUE constraint failed: tenants.id", accounts)
  | .insertKey row =>
    match accounts.keys.insert row with
    | some keys => (.ok (), { accounts with keys })
    | none => (.error "UNIQUE constraint failed: api_keys.key_id", accounts)
  | .revokeKey nowMs keyId =>
    (.ok (accounts.keys.rows.countP fun row => row.keyId = keyId && row.revokedAtMs.isNone),
      { accounts with
        keys := accounts.keys.modify keyId (KeyRow.revokedAt nowMs)
          fun row => congrArg some (row.keyId_revokedAt nowMs) })
  | .findKey keyId => (.ok (accounts.keys.find keyId), accounts)
  | .touchKey nowMs keyId =>
    (.ok (), { accounts with
      keys := accounts.keys.modify keyId (fun row => { row with lastUsedAtMs := some nowMs })
        fun _ => rfl })

end Accounts

abbrev Query (α : Type) := Program Statement Statement.Answer (Except DbError α)

def Query.send (statement : Statement) : Query statement.Rows := ask statement

def Query.andThen {α β : Type} (first : Query α) (next : α → Query β) : Query β :=
  Program.attempt first id next

/-! ## Calls -/

section Calls

variable (L : Libraries)

def findTenant (id : String) : Query (Option Tenant) :=
  (Query.send (.findTenant id)).andThen fun row =>
    .done (.ok (row.map (TenantRow.intoTenant L)))

def upsertTenant (tenant : Tenant) : Query Unit :=
  match L.writePrice tenant.price with
  | .error e => .done (.error e)
  | .ok price =>
    (findTenant L tenant.id).andThen fun existing =>
      let active := if tenant.active then 1 else 0
      if existing.isSome then
        Query.send (.updateTenant tenant.name tenant.plan.asStr price active tenant.id)
      else
        Query.send (.insertTenant
          { id := tenant.id, name := tenant.name, plan := tenant.plan.asStr, priceConfig := price,
            active, createdAtMs := tenant.createdAtMs })

def storeKey (issued : IssuedKey) : Query Unit :=
  match splitPresentedKey issued.secret with
  | none => .done (.error "chave emitida em formato inválido")
  | some (_, secret) =>
    let r := issued.record
    Query.send (.insertKey
      { keyId := r.keyId, tenantId := r.tenantId, name := r.name, keyHash := hashSecret L secret,
        scopes := scopesToString r.scopes, expiresAtMs := r.expiresAtMs,
        revokedAtMs := r.revokedAtMs, lastUsedAtMs := r.lastUsedAtMs,
        createdAtMs := r.createdAtMs })

def revokeKey (keyId : String) (nowMs : Int) : Query Bool :=
  (Query.send (.revokeKey nowMs keyId)).andThen fun n => .done (.ok (decide (0 < n)))

/-- What `authenticate` does with the row of the key. -/
def authenticateRow (row : KeyRow) (secret : String) (nowMs : Int) : Query (Option TenantContext) :=
  if constantTimeEq row.keyHash (hashSecret L secret) then
    let record := row.intoRecord
    if record.usableAt nowMs then
      (findTenant L record.tenantId).andThen fun found =>
        match found with
        | none => .done (.ok none)
        | some tenant =>
          if tenant.active then
            -- An error of the last update is dropped.
            (Query.send (.touchKey nowMs record.keyId)).bind fun _ =>
              .done (.ok (some { tenant, keyId := some record.keyId, scopes := record.scopes }))
          else .done (.ok none)
    else .done (.ok none)
  else .done (.ok none)

def authenticate (presented : String) (nowMs : Int) : Query (Option TenantContext) :=
  match splitPresentedKey presented with
  | none => .done (.ok none)
  | some (keyId, secret) =>
    (Query.send (.findKey keyId)).andThen fun row =>
      match row with
      | none => .done (.ok none)
      | some row => authenticateRow L row secret nowMs

end Calls

end Tenancy

end Syntra

import Syntra.Tenancy.Keys

/-!
# Calls on tenants and keys

What an issued key looks like when it is presented, and what each call does to the
tables, as one equation a call.
-/

set_option autoImplicit false

namespace Syntra

open Program

namespace Tenancy

/-! ## Issued keys -/

/-- The arguments of `generate_key`, the identifiers it draws, and the expiry that its
caller may set. -/
structure Issue where
  first : Uuid
  second : Uuid
  third : Uuid
  tenantId : String
  name : String
  scopes : Scopes
  createdAtMs : Int
  expiresAtMs : Option Int

namespace Issue

def issued (issue : Issue) : IssuedKey :=
  let key := generateKey issue.first issue.second issue.third issue.tenantId issue.name
    issue.scopes issue.createdAtMs
  { key with record := { key.record with expiresAtMs := issue.expiresAtMs } }

def keyId (issue : Issue) : String := Text.hexEncode (issue.first.val.take 6)

def secret (issue : Issue) : String :=
  Text.hexEncode ((issue.second.val ++ issue.third.val).take 32)

theorem issued_toList (issue : Issue) :
    issue.issued.secret.toList =
      keyPrefix.toList ++ '_' :: (issue.keyId.toList ++ '_' :: issue.secret.toList) := by
  simp [issued, generateKey, keyId, secret, String.toList_append]

theorem mem_hex {c : Char} {bytes : Bytes} (member : c ∈ (Text.hexEncode bytes).toList) :
    c ≠ '_' ∧ Text.isWhitespace c = false := by
  rw [Text.hexEncode, String.toList_ofList] at member
  have digit := Text.mem_hexDigits member
  have all : ∀ c ∈ "0123456789abcdef".toList, c ≠ '_' ∧ Text.isWhitespace c = false := by
    simp [Text.isWhitespace]
  exact all c digit

theorem hexEncode_ne_empty {bytes : Bytes} (filled : bytes ≠ []) : Text.hexEncode bytes ≠ "" := by
  intro empty
  apply filled
  apply Text.hexEncode_injective
  rw [empty]
  rfl

theorem keyId_apart (issue : Issue) : '_' ∉ issue.keyId.toList :=
  fun member => (mem_hex member).1 rfl

theorem keyId_ne_empty (issue : Issue) : issue.keyId ≠ "" := by
  apply hexEncode_ne_empty
  intro none
  have length := congrArg List.length none
  simp [issue.first.property] at length

theorem secret_ne_empty (issue : Issue) : issue.secret ≠ "" := by
  apply hexEncode_ne_empty
  intro none
  have length := congrArg List.length none
  simp [issue.second.property, issue.third.property] at length

theorem trim_issued (issue : Issue) : Text.trim issue.issued.secret = issue.issued.secret := by
  apply Text.trim_of_none
  intro c member
  rw [issued_toList] at member
  simp only [List.mem_append, List.mem_cons] at member
  have own : ∀ c ∈ keyPrefix.toList, Text.isWhitespace c = false := by
    simp [keyPrefix, Text.isWhitespace]
  rcases member with first | rfl | key | rfl | secret
  · exact own c first
  · decide
  · exact (mem_hex key).2
  · decide
  · exact (mem_hex secret).2

theorem presented_iff (issue : Issue) (presented : String) :
    splitPresentedKey presented = some (issue.keyId, issue.secret) ↔
      Text.trim presented = issue.issued.secret := by
  rw [splitPresentedKey_eq_some, ← issued_toList, String.toList_inj]
  exact ⟨fun parsed => parsed.1, fun same =>
    ⟨same, issue.keyId_apart, issue.keyId_ne_empty, issue.secret_ne_empty⟩⟩

theorem splitPresentedKey_issued (issue : Issue) :
    splitPresentedKey issue.issued.secret = some (issue.keyId, issue.secret) :=
  (issue.presented_iff _).mpr issue.trim_issued

def row (L : Libraries) (issue : Issue) : KeyRow where
  keyId := issue.keyId
  tenantId := issue.tenantId
  name := issue.name
  keyHash := hashSecret L issue.secret
  scopes := scopesToString issue.scopes
  expiresAtMs := issue.expiresAtMs
  revokedAtMs := none
  lastUsedAtMs := none
  createdAtMs := issue.createdAtMs

end Issue

/-! ## What the calls do -/

section Runs

variable (L : Libraries) (accounts : Accounts)

theorem Query.run_andThen {α β : Type} {first : Query α} {next : α → Query β} {value : α}
    {accounts later : Accounts} (done : first.run Accounts.execute accounts = (.ok value, later)) :
    (first.andThen next).run Accounts.execute accounts =
      (next value).run Accounts.execute later := by
  rw [Query.andThen, run_attempt, done]

theorem findTenant_run (id : String) :
    (findTenant L id).run Accounts.execute accounts =
      (.ok ((accounts.tenants.find id).map (TenantRow.intoTenant L)), accounts) := rfl

theorem storeKey_run (issue : Issue) :
    (storeKey L issue.issued).run Accounts.execute accounts =
      accounts.execute (.insertKey (issue.row L)) := by
  simp only [storeKey, issue.splitPresentedKey_issued]
  rfl

theorem revokeKey_run (keyId : String) (nowMs : Int) :
    (revokeKey keyId nowMs).run Accounts.execute accounts =
      (.ok (decide (0 < accounts.keys.rows.countP fun row =>
          row.keyId = keyId && row.revokedAtMs.isNone)),
        (accounts.execute (.revokeKey nowMs keyId)).2) := rfl

def admits (row : KeyRow) (secret : String) (nowMs : Int) : Option TenantContext := do
  guard (row.keyHash = hashSecret L secret)
  guard (row.intoRecord.usableAt nowMs)
  let tenant ← (accounts.tenants.find row.tenantId).map (TenantRow.intoTenant L)
  guard tenant.active
  some { tenant, keyId := some row.keyId, scopes := scopesFromString row.scopes }

/-- Nothing but the last use of a key may differ. -/
def Touched (accounts after : Accounts) : Prop :=
  after = accounts ∨ ∃ nowMs keyId, after = (accounts.execute (.touchKey nowMs keyId)).2

theorem authenticateRow_run (row : KeyRow) (secret : String) (nowMs : Int) :
    ∃ after, (authenticateRow L row secret nowMs).run Accounts.execute accounts =
      (.ok (admits L accounts row secret nowMs), after) ∧ Touched accounts after := by
  by_cases same : row.keyHash = hashSecret L secret
  · by_cases usable : row.intoRecord.usableAt nowMs = true
    · have compared := constantTimeEq_iff.mpr same
      have looked := findTenant_run L accounts row.tenantId
      have tenantId : row.intoRecord.tenantId = row.tenantId := rfl
      simp only [authenticateRow, admits, guard, if_pos compared, if_pos same, if_pos usable, tenantId]
      rw [Query.run_andThen looked]
      cases (accounts.tenants.find row.tenantId).map (TenantRow.intoTenant L) with
      | none => exact ⟨accounts, rfl, Or.inl rfl⟩
      | some tenant =>
          cases active : tenant.active with
          | true =>
              refine ⟨_, ?_, Or.inr ⟨nowMs, row.keyId, rfl⟩⟩
              simp only [Option.bind_eq_bind, Option.bind_some, Option.pure_def, if_pos active]
              rfl
          | false =>
              refine ⟨accounts, ?_, Or.inl rfl⟩
              simp only [Option.bind_eq_bind, Option.bind_some, Option.pure_def, active,
                Bool.false_eq_true, if_false]
              rfl
    · refine ⟨accounts, ?_, Or.inl rfl⟩
      simp [authenticateRow, admits, constantTimeEq_iff, same, usable, guard]
  · refine ⟨accounts, ?_, Or.inl rfl⟩
    simp [authenticateRow, admits, constantTimeEq_iff, same, guard]

def opens (presented : String) (nowMs : Int) : Option TenantContext := do
  let (keyId, secret) ← splitPresentedKey presented
  let row ← accounts.keys.find keyId
  admits L accounts row secret nowMs

theorem authenticate_run (presented : String) (nowMs : Int) :
    ∃ after, (authenticate L presented nowMs).run Accounts.execute accounts =
      (.ok (opens L accounts presented nowMs), after) ∧ Touched accounts after := by
  unfold authenticate opens
  cases splitPresentedKey presented with
  | none => exact ⟨accounts, rfl, Or.inl rfl⟩
  | some parts =>
      obtain ⟨keyId, secret⟩ := parts
      have looked : (Query.send (.findKey keyId)).run Accounts.execute accounts =
          (.ok (accounts.keys.find keyId), accounts) := rfl
      simp only [Option.bind_eq_bind, Option.bind_some]
      rw [Query.run_andThen looked]
      cases accounts.keys.find keyId with
      | none => exact ⟨accounts, rfl, Or.inl rfl⟩
      | some row => exact authenticateRow_run L accounts row secret nowMs

theorem upsertTenant_run (tenant : Tenant) :
    (∃ e, L.writePrice tenant.price = .error e ∧
      (upsertTenant L tenant).run Accounts.execute accounts = (.error e, accounts)) ∨
    ∃ price after, L.writePrice tenant.price = .ok price ∧
      (upsertTenant L tenant).run Accounts.execute accounts = (.ok (), after) ∧
      after.keys = accounts.keys ∧ ∀ id, after.tenants.find id =
        if id = tenant.id then
          some { id := tenant.id, name := tenant.name, plan := tenant.plan.asStr,
                 priceConfig := price, active := if tenant.active then 1 else 0,
                 createdAtMs :=
                  ((accounts.tenants.find id).map (·.createdAtMs)).getD tenant.createdAtMs }
        else accounts.tenants.find id := by
  cases written : L.writePrice tenant.price with
  | error e => exact Or.inl ⟨e, rfl, by rw [upsertTenant, written]; rfl⟩
  | ok price =>
      right
      have looked := findTenant_run L accounts tenant.id
      rw [upsertTenant, written]
      simp only
      rw [Query.run_andThen looked]
      cases found : accounts.tenants.find tenant.id with
      | none =>
          obtain ⟨tenants, inserted⟩ : ∃ tenants, accounts.tenants.insert
              { id := tenant.id, name := tenant.name, plan := tenant.plan.asStr,
                priceConfig := price, active := if tenant.active then 1 else 0,
                createdAtMs := tenant.createdAtMs } = some tenants := by
            apply Table.exists_insert
            intro k keyed
            cases keyed
            exact found
          refine ⟨price, { accounts with tenants }, rfl, ?_, rfl, ?_⟩
          · simp [Query.send, Accounts.execute, inserted]
          · intro id
            rw [Table.find_insert inserted]
            by_cases own : id = tenant.id
            · simp [own, found]
            · simp [own, Ne.symm own]
      | some row =>
          refine ⟨price, _, rfl, rfl, rfl, ?_⟩
          intro id
          dsimp only
          rw [Table.find_modify]
          by_cases own : id = tenant.id
          · have keyed := (Table.find_eq_some.mp found).2
            simp only [Option.some.injEq] at keyed
            simp [own, found, keyed]
          · simp [own]

end Runs

end Tenancy

end Syntra

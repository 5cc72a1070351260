import Syntra.Tenancy.Calls

/-!
# Authentication

Over every history of calls a key opens its tenant exactly while it is stored, not
revoked and not expired, and its tenant exists and is active.
-/

set_option autoImplicit false

namespace Syntra

open Program

namespace Tenancy

/-! ## Histories -/

inductive Op where
  | upsertTenant (tenant : Tenant)
  | storeKey (issue : Issue)
  | revokeKey (keyId : String) (nowMs : Int)
  | authenticate (presented : String) (nowMs : Int)

inductive Reply where
  | upserted (result : Except DbError Unit)
  | stored (result : Except DbError Unit)
  | revoked (result : Except DbError Bool)
  | authenticated (result : Except DbError (Option TenantContext))

def perform (L : Libraries) (accounts : Accounts) : Op → Reply × Accounts
  | .upsertTenant tenant => ((upsertTenant L tenant).run Accounts.execute accounts).map .upserted id
  | .storeKey issue => ((storeKey L issue.issued).run Accounts.execute accounts).map .stored id
  | .revokeKey keyId nowMs =>
    ((revokeKey keyId nowMs).run Accounts.execute accounts).map .revoked id
  | .authenticate presented nowMs =>
    ((authenticate L presented nowMs).run Accounts.execute accounts).map .authenticated id

abbrev Log := List (Op × Reply)

def advance (L : Libraries) (state : Accounts × Log) (op : Op) : Accounts × Log :=
  let (reply, accounts) := perform L state.1 op
  (accounts, state.2 ++ [(op, reply)])

/-- The database and the log after a sequential history. -/
def history (L : Libraries) (ops : List Op) : Accounts × Log :=
  ops.foldl (advance L) (Accounts.empty, [])

def Stored (log : Log) (issue : Issue) : Prop := (Op.storeKey issue, Reply.stored (.ok ())) ∈ log

def Revoked (log : Log) (keyId : String) : Prop :=
  ∃ nowMs, (Op.revokeKey keyId nowMs, Reply.revoked (.ok true)) ∈ log

/-- A price as it is read back. -/
def keptPrice (L : Libraries) (price : PriceConfig) : PriceConfig :=
  ((L.writePrice price).toOption.bind L.readPrice).getD PriceConfig.default

/-- The tenant of an id after one more call: as it was put last, created when it was put
first. -/
def tenantAfter (L : Libraries) (id : String) (known : Option Tenant) :
    Op × Reply → Option Tenant
  | (.upsertTenant tenant, .upserted (.ok ())) =>
    if tenant.id = id then
      some { tenant with
        price := keptPrice L tenant.price
        createdAtMs := (known.map (·.createdAtMs)).getD tenant.createdAtMs }
    else known
  | _ => known

def tenantOf (L : Libraries) (log : Log) (id : String) : Option Tenant :=
  log.foldl (tenantAfter L id) none

/-- A row that keeps an issued key. -/
structure Keeps (L : Libraries) (log : Log) (issue : Issue) (row : KeyRow) : Prop where
  keyId : row.keyId = issue.keyId
  tenantId : row.tenantId = issue.tenantId
  keyHash : row.keyHash = hashSecret L issue.secret
  scopes : row.scopes = scopesToString issue.scopes
  expiresAtMs : row.expiresAtMs = issue.expiresAtMs
  revoked : row.revokedAtMs.isSome = true ↔ Revoked log issue.keyId

structure KeysLogged (L : Libraries) (keys : Table fun row : KeyRow => some row.keyId)
    (log : Log) : Prop where
  rows : ∀ {keyId row}, keys.find keyId = some row →
    ∃ issue, Stored log issue ∧ issue.keyId = keyId ∧ Keeps L log issue row
  stored : ∀ {issue}, Stored log issue →
    ∃ row, keys.find issue.keyId = some row ∧ Keeps L log issue row
  revoked : ∀ {keyId}, Revoked log keyId → (keys.find keyId).isSome = true

structure Invariant (L : Libraries) (accounts : Accounts) (log : Log) : Prop where
  keys : KeysLogged L accounts.keys log
  tenants : ∀ id, (accounts.tenants.find id).map (TenantRow.intoTenant L) = tenantOf L log id

/-! ## One call more -/

section Steps

variable {L : Libraries} {accounts after : Accounts} {log : Log} {entry : Op × Reply}
variable {keys keys' : Table fun row : KeyRow => some row.keyId}

theorem stored_append {issue : Issue} :
    Stored (log ++ [entry]) issue ↔
      Stored log issue ∨ entry = (.storeKey issue, .stored (.ok ())) := by
  simp [Stored, eq_comm]

theorem revoked_append {keyId : String} :
    Revoked (log ++ [entry]) keyId ↔
      Revoked log keyId ∨ ∃ nowMs, entry = (.revokeKey keyId nowMs, .revoked (.ok true)) := by
  simp [Revoked, exists_or, eq_comm]

theorem tenantOf_append (id : String) :
    tenantOf L (log ++ [entry]) id = tenantAfter L id (tenantOf L log id) entry := by
  simp [tenantOf]

def Quiet (entry : Op × Reply) : Prop :=
  (∀ issue, entry ≠ (.storeKey issue, .stored (.ok ()))) ∧
    ∀ keyId nowMs, entry ≠ (.revokeKey keyId nowMs, .revoked (.ok true))

theorem Quiet.stored (quiet : Quiet entry) {issue : Issue} :
    Stored (log ++ [entry]) issue ↔ Stored log issue := by
  simp [stored_append, quiet.1]

theorem Quiet.revoked (quiet : Quiet entry) {keyId : String} :
    Revoked (log ++ [entry]) keyId ↔ Revoked log keyId := by
  simp [revoked_append, quiet.2]

theorem Keeps.touched {issue : Issue} {row : KeyRow} (keeps : Keeps L log issue row)
    (lastUsedAtMs : Option Int) : Keeps L log issue { row with lastUsedAtMs } :=
  ⟨keeps.keyId, keeps.tenantId, keeps.keyHash, keeps.scopes, keeps.expiresAtMs, keeps.revoked⟩

theorem Keeps.quiet {issue : Issue} {row : KeyRow} (keeps : Keeps L log issue row)
    (quiet : Quiet entry) : Keeps L (log ++ [entry]) issue row :=
  ⟨keeps.keyId, keeps.tenantId, keeps.keyHash, keeps.scopes, keeps.expiresAtMs,
    keeps.revoked.trans quiet.revoked.symm⟩

theorem KeysLogged.quiet (logged : KeysLogged L keys log) (quiet : Quiet entry)
    (touch : String → Option Int → Option Int)
    (touched : ∀ keyId, keys'.find keyId = (keys.find keyId).map fun row =>
      { row with lastUsedAtMs := touch keyId row.lastUsedAtMs }) :
    KeysLogged L keys' (log ++ [entry]) := by
  constructor
  · intro keyId row found
    rw [touched keyId, Option.map_eq_some_iff] at found
    obtain ⟨old, found, rfl⟩ := found
    obtain ⟨issue, stored, own, keeps⟩ := logged.rows found
    exact ⟨issue, quiet.stored.mpr stored, own, (keeps.touched _).quiet quiet⟩
  · intro issue stored
    obtain ⟨row, found, keeps⟩ := logged.stored (quiet.stored.mp stored)
    exact ⟨_, by rw [touched issue.keyId, found]; rfl, (keeps.touched _).quiet quiet⟩
  · intro keyId revoked
    rw [touched keyId, Option.isSome_map]
    exact logged.revoked (quiet.revoked.mp revoked)

theorem KeysLogged.store (logged : KeysLogged L keys log) (issue : Issue)
    (inserted : keys.insert (issue.row L) = some keys') :
    KeysLogged L keys' (log ++ [(.storeKey issue, .stored (.ok ()))]) := by
  have free : keys.find issue.keyId = none :=
    Table.accepts_iff.mp (Table.insert_eq_some inserted).1 issue.keyId rfl
  have found : ∀ keyId, keys'.find keyId =
      if issue.keyId = keyId then some (issue.row L) else keys.find keyId := by
    intro keyId
    rw [Table.find_insert inserted]
    exact if_congr Option.some_inj rfl rfl
  have same : ∀ keyId, Revoked (log ++ [(.storeKey issue, .stored (.ok ()))]) keyId ↔
      Revoked log keyId := by
    intro keyId
    simp [revoked_append]
  have carry : ∀ {other row}, Keeps L log other row →
      Keeps L (log ++ [(.storeKey issue, .stored (.ok ()))]) other row := by
    intro other row keeps
    exact ⟨keeps.keyId, keeps.tenantId, keeps.keyHash, keeps.scopes, keeps.expiresAtMs,
      keeps.revoked.trans (same _).symm⟩
  have fresh : Keeps L (log ++ [(.storeKey issue, .stored (.ok ()))]) issue (issue.row L) := by
    refine ⟨rfl, rfl, rfl, rfl, rfl, ?_⟩
    rw [same]
    constructor
    · intro some
      cases some
    · intro revoked
      have present := logged.revoked revoked
      rw [free] at present
      cases present
  constructor
  · intro keyId row there
    rw [found] at there
    split at there
    · rename_i own
      cases there
      exact ⟨issue, stored_append.mpr (Or.inr rfl), own, fresh⟩
    · obtain ⟨other, stored, own, keeps⟩ := logged.rows there
      exact ⟨other, stored_append.mpr (Or.inl stored), own, carry keeps⟩
  · intro other stored
    rcases stored_append.mp stored with before | new
    · obtain ⟨row, there, keeps⟩ := logged.stored before
      have apart : issue.keyId ≠ other.keyId := by
        intro own
        rw [← own, free] at there
        cases there
      exact ⟨row, by rw [found, if_neg apart, there], carry keeps⟩
    · cases new
      exact ⟨issue.row L, by rw [found, if_pos rfl], fresh⟩
  · intro keyId revoked
    rw [found]
    split
    · rfl
    · exact logged.revoked ((same _).mp revoked)

theorem Keeps.revokedAt {log' : Log} {issue : Issue} {row : KeyRow} (keeps : Keeps L log issue row)
    (nowMs : Int) (revoked : Revoked log' issue.keyId) :
    Keeps L log' issue (row.revokedAt nowMs) := by
  unfold KeyRow.revokedAt
  split
  · exact ⟨keeps.keyId, keeps.tenantId, keeps.keyHash, keeps.scopes, keeps.expiresAtMs,
      iff_of_true rfl revoked⟩
  · rename_i already
    refine ⟨keeps.keyId, keeps.tenantId, keeps.keyHash, keeps.scopes, keeps.expiresAtMs, ?_⟩
    exact iff_of_true (by simpa [Option.isSome_iff_ne_none] using already) revoked

theorem KeysLogged.revoke (logged : KeysLogged L accounts.keys log) (keyId : String) (nowMs : Int) :
    KeysLogged L (accounts.execute (.revokeKey nowMs keyId)).2.keys
      (log ++ [(.revokeKey keyId nowMs, .revoked (.ok (decide (0 <
        accounts.keys.rows.countP fun row => row.keyId = keyId && row.revokedAtMs.isNone))))]) := by
  generalize answer : decide (0 < accounts.keys.rows.countP fun row =>
    row.keyId = keyId && row.revokedAtMs.isNone) = changed
  have usable : changed = true ↔
      ∃ row, accounts.keys.find keyId = some row ∧ row.revokedAtMs.isNone = true := by
    rw [← answer, decide_eq_true_eq, List.countP_pos_iff]
    simp [Table.find_eq_some, and_assoc]
  have found : ∀ other, (accounts.execute (.revokeKey nowMs keyId)).2.keys.find other =
      if other = keyId then (accounts.keys.find other).map (KeyRow.revokedAt nowMs)
      else accounts.keys.find other := by
    intro other
    exact Table.find_modify accounts.keys keyId (KeyRow.revokedAt nowMs)
      (fun row => congrArg some (row.keyId_revokedAt nowMs)) other
  have same : ∀ {issue}, Stored (log ++ [(.revokeKey keyId nowMs, .revoked (.ok changed))]) issue ↔
      Stored log issue := by
    intro issue
    simp [stored_append]
  have revoked : ∀ other,
      Revoked (log ++ [(.revokeKey keyId nowMs, .revoked (.ok changed))]) other ↔
        Revoked log other ∨ other = keyId ∧ changed = true := by
    intro other
    simp [revoked_append, eq_comm]
  have carry : ∀ {issue row}, Keeps L log issue row → accounts.keys.find issue.keyId = some row →
      Keeps L (log ++ [(.revokeKey keyId nowMs, .revoked (.ok changed))]) issue
        (if issue.keyId = keyId then row.revokedAt nowMs else row) := by
    intro issue row keeps there
    split
    · rename_i own
      apply keeps.revokedAt
      rw [revoked]
      cases already : row.revokedAtMs.isNone with
      | true => exact Or.inr ⟨own, usable.mpr ⟨row, own ▸ there, already⟩⟩
      | false => exact Or.inl (keeps.revoked.mp (by simpa using already))
    · rename_i apart
      refine ⟨keeps.keyId, keeps.tenantId, keeps.keyHash, keeps.scopes, keeps.expiresAtMs, ?_⟩
      rw [keeps.revoked, revoked]
      simp [apart]
  constructor
  · intro other row there
    rw [found] at there
    have before : ∃ old, accounts.keys.find other = some old ∧
        row = if other = keyId then old.revokedAt nowMs else old := by
      split at there
      · rename_i own
        obtain ⟨old, old_there, rfl⟩ := Option.map_eq_some_iff.mp there
        exact ⟨old, old_there, (if_pos own).symm⟩
      · rename_i apart
        exact ⟨row, there, (if_neg apart).symm⟩
    obtain ⟨old, old_there, rfl⟩ := before
    obtain ⟨issue, stored, rfl, keeps⟩ := logged.rows old_there
    exact ⟨issue, same.mpr stored, rfl, carry keeps old_there⟩
  · intro issue stored
    obtain ⟨row, there, keeps⟩ := logged.stored (same.mp stored)
    refine ⟨_, ?_, carry keeps there⟩
    rw [found, there]
    split <;> rfl
  · intro other gone
    have present : (accounts.keys.find other).isSome = true := by
      rcases (revoked other).mp gone with before | now
      · exact logged.revoked before
      · obtain ⟨row, there, -⟩ := usable.mp now.2
        rw [now.1, there]
        rfl
    rw [found]
    split
    · rwa [Option.isSome_map]
    · exact present

theorem tenants_put {tenant : Tenant} {price : String}
    (written : L.writePrice tenant.price = .ok price)
    (known : ∀ id, (accounts.tenants.find id).map (TenantRow.intoTenant L) = tenantOf L log id)
    (put : ∀ id, after.tenants.find id =
      if id = tenant.id then
        some { id := tenant.id, name := tenant.name, plan := tenant.plan.asStr,
               priceConfig := price, active := if tenant.active then 1 else 0,
               createdAtMs :=
                ((accounts.tenants.find id).map (·.createdAtMs)).getD tenant.createdAtMs }
      else accounts.tenants.find id) (id : String) :
    (after.tenants.find id).map (TenantRow.intoTenant L) =
      tenantOf L (log ++ [(.upsertTenant tenant, .upserted (.ok ()))]) id := by
  rw [tenantOf_append, ← known id, put id]
  by_cases own : id = tenant.id
  · subst own
    have kept : keptPrice L tenant.price = (L.readPrice price).getD PriceConfig.default := by
      simp [keptPrice, written, Except.toOption]
    simp only [if_true, Option.map_some, tenantAfter, TenantRow.intoTenant, PlanKind.parse_asStr,
      kept, Option.getD_some, Option.map_map]
    congr 2
    cases tenant.active <;> rfl
  · simp [tenantAfter, own, Ne.symm own]

theorem Touched.find (touched : Touched accounts after) :
    after.tenants = accounts.tenants ∧ ∃ touch : String → Option Int → Option Int,
      ∀ keyId, after.keys.find keyId = (accounts.keys.find keyId).map fun row =>
        { row with lastUsedAtMs := touch keyId row.lastUsedAtMs } := by
  rcases touched with rfl | ⟨nowMs, used, rfl⟩
  · exact ⟨rfl, fun _ at_ => at_, fun keyId => by simp⟩
  · refine ⟨rfl, fun keyId old => if keyId = used then some nowMs else old, ?_⟩
    intro keyId
    refine (Table.find_modify accounts.keys used
      (fun row => { row with lastUsedAtMs := some nowMs }) (fun _ => rfl) keyId).trans ?_
    by_cases own : keyId = used <;> simp [own]

theorem tenants_kept (known : ∀ id,
      (accounts.tenants.find id).map (TenantRow.intoTenant L) = tenantOf L log id)
    (same : after.tenants = accounts.tenants)
    (puts : ∀ id before, tenantAfter L id before entry = before) (id : String) :
    (after.tenants.find id).map (TenantRow.intoTenant L) = tenantOf L (log ++ [entry]) id := by
  rw [same, known, tenantOf_append, puts]

theorem Invariant.quiet (inv : Invariant L accounts log) (quiet : Quiet entry)
    (puts : ∀ id before, tenantAfter L id before entry = before)
    (touched : Touched accounts after) : Invariant L after (log ++ [entry]) := by
  obtain ⟨sameTenants, touch, found⟩ := touched.find
  exact ⟨inv.keys.quiet quiet touch found, tenants_kept inv.tenants sameTenants puts⟩

/-- The step: what the log says holds after one call more. -/
theorem Invariant.advance (inv : Invariant L accounts log) (op : Op) :
    Invariant L (Tenancy.advance L (accounts, log) op).1
      (Tenancy.advance L (accounts, log) op).2 := by
  cases op with
  | upsertTenant tenant =>
      rcases upsertTenant_run L accounts tenant with
        ⟨e, -, ran⟩ | ⟨price, after, written, ran, keys, put⟩
      · simp only [Tenancy.advance, perform, ran, Prod.map]
        exact inv.quiet (by simp [Quiet]) (by simp [tenantAfter]) (Or.inl rfl)
      · simp only [Tenancy.advance, perform, ran, Prod.map]
        refine ⟨?_, tenants_put written inv.tenants put⟩
        exact inv.keys.quiet (by simp [Quiet]) (fun _ old => old) (by simp [keys])
  | storeKey issue =>
      simp only [Tenancy.advance, perform, storeKey_run, Prod.map, Accounts.execute]
      cases inserted : accounts.keys.insert (issue.row L) with
      | none => exact inv.quiet (by simp [Quiet]) (by simp [tenantAfter]) (Or.inl rfl)
      | some keys =>
          exact ⟨inv.keys.store issue inserted,
            tenants_kept inv.tenants rfl (by simp [tenantAfter])⟩
  | revokeKey keyId nowMs =>
      simp only [Tenancy.advance, perform, revokeKey_run, Prod.map]
      exact ⟨inv.keys.revoke keyId nowMs, tenants_kept inv.tenants rfl (by simp [tenantAfter])⟩
  | authenticate presented nowMs =>
      obtain ⟨after, ran, touched⟩ := authenticate_run L accounts presented nowMs
      simp only [Tenancy.advance, perform, ran, Prod.map]
      exact inv.quiet (by simp [Quiet]) (by simp [tenantAfter]) touched

/-- The run: it holds after every history. -/
theorem history_invariant (L : Libraries) (ops : List Op) :
    Invariant L (history L ops).1 (history L ops).2 := by
  have runs : ∀ (ops : List Op) (accounts : Accounts) (log : Log), Invariant L accounts log →
      Invariant L (ops.foldl (Tenancy.advance L) (accounts, log)).1
        (ops.foldl (Tenancy.advance L) (accounts, log)).2 := by
    intro ops
    induction ops with
    | nil => exact fun _ _ inv => inv
    | cons op ops ih => exact fun accounts log inv => ih _ _ (inv.advance op)
  apply runs
  refine ⟨⟨?_, ?_, ?_⟩, fun _ => rfl⟩
  · intro keyId row found
    cases found
  · intro issue stored
    cases stored
  · rintro keyId ⟨nowMs, member⟩
    cases member

end Steps

/-! ## Every history -/

section Histories

variable {L : Libraries}

/-- Nothing that was answered is forgotten. -/
theorem log_grows (ops : List Op) (state : Accounts × Log) :
    ∃ more, (ops.foldl (advance L) state).2 = state.2 ++ more := by
  induction ops generalizing state with
  | nil => exact ⟨[], (List.append_nil _).symm⟩
  | cons op ops ih =>
      obtain ⟨more, grown⟩ := ih (advance L state op)
      exact ⟨_, by rw [List.foldl_cons, grown, advance, List.append_assoc]⟩

theorem revoked_after_call {before after : List Op} {issue : Issue} {atMs : Int}
    (stored : Stored (history L before).2 issue) :
    Revoked (history L (before ++ .revokeKey issue.keyId atMs :: after)).2 issue.keyId := by
  obtain ⟨row, there, -⟩ := (history_invariant L before).keys.stored stored
  have later := (history_invariant L before).advance (.revokeKey issue.keyId atMs)
  have still : Stored (advance L (history L before) (.revokeKey issue.keyId atMs)).2 issue :=
    List.mem_append_left _ stored
  obtain ⟨row', there', keeps⟩ := later.keys.stored still
  have marked : row' = row.revokedAt atMs := by
    have found := Table.find_modify (history L before).1.keys issue.keyId (KeyRow.revokedAt atMs)
      (fun row => congrArg some (row.keyId_revokedAt atMs)) issue.keyId
    rw [if_pos rfl, there] at found
    exact Option.some.inj (there'.symm.trans found)
  have gone :
      Revoked (advance L (history L before) (.revokeKey issue.keyId atMs)).2 issue.keyId := by
    rw [← keeps.revoked, marked, KeyRow.revokedAt]
    split
    · rfl
    · rename_i already
      simpa [Option.isSome_iff_ne_none] using already
  obtain ⟨more, grown⟩ := log_grows (L := L) after
    (advance L (history L before) (.revokeKey issue.keyId atMs))
  obtain ⟨nowMs, answered⟩ := gone
  refine ⟨nowMs, ?_⟩
  rw [history, List.foldl_append, List.foldl_cons]
  exact grown ▸ List.mem_append_left _ answered

theorem admits_eq_some {accounts : Accounts} {row : KeyRow} {secret : String} {nowMs : Int}
    {ctx : TenantContext} :
    admits L accounts row secret nowMs = some ctx ↔
      row.keyHash = hashSecret L secret ∧ row.intoRecord.usableAt nowMs = true ∧
      ∃ tenant, (accounts.tenants.find row.tenantId).map (TenantRow.intoTenant L) = some tenant ∧
        tenant.active = true ∧
        ctx = { tenant, keyId := some row.keyId, scopes := scopesFromString row.scopes } := by
  simp only [admits, Option.bind_eq_bind, Option.bind_eq_some_iff, Option.guard_eq_some',
    exists_const, Option.some.injEq, eq_comm (a := ctx)]

theorem Keeps.usableAt {log : Log} {issue : Issue} {row : KeyRow} (keeps : Keeps L log issue row)
    (nowMs : Int) :
    row.intoRecord.usableAt nowMs = true ↔
      ¬ Revoked log issue.keyId ∧ ∀ e, issue.expiresAtMs = some e → nowMs < e := by
  have revoked : row.revokedAtMs.isNone = true ↔ ¬ Revoked log issue.keyId := by
    rw [← keeps.revoked]
    cases row.revokedAtMs <;> simp
  simp only [ApiKeyRecord.usableAt, KeyRow.intoRecord, Bool.and_eq_true, revoked, keeps.expiresAtMs]
  cases issue.expiresAtMs <;> simp

/-- What a presented key opens, in the words of the log. -/
theorem opens_iff {accounts : Accounts} {log : Log} (inv : Invariant L accounts log)
    {presented : String}
    (collisionFree : ∀ issue secret, Stored log issue →
      splitPresentedKey presented = some (issue.keyId, secret) →
      hashSecret L secret = hashSecret L issue.secret → secret = issue.secret)
    (nowMs : Int) (ctx : TenantContext) :
    opens L accounts presented nowMs = some ctx ↔
      ∃ issue tenant, Stored log issue ∧ Text.trim presented = issue.issued.secret ∧
        ¬ Revoked log issue.keyId ∧ (∀ e, issue.expiresAtMs = some e → nowMs < e) ∧
        tenantOf L log issue.tenantId = some tenant ∧ tenant.active = true ∧
        ctx = { tenant, keyId := some issue.keyId, scopes := issue.scopes } := by
  constructor
  · intro opened
    obtain ⟨⟨keyId, secret⟩, parsed, opened⟩ := Option.bind_eq_some_iff.mp opened
    obtain ⟨row, there, opened⟩ := Option.bind_eq_some_iff.mp opened
    obtain ⟨hash, usable, tenant, known, active, rfl⟩ := admits_eq_some.mp opened
    obtain ⟨issue, stored, rfl, keeps⟩ := inv.keys.rows there
    obtain ⟨live, fresh⟩ := (keeps.usableAt nowMs).mp usable
    have same : secret = issue.secret :=
      collisionFree issue secret stored parsed (hash.symm.trans keeps.keyHash)
    subst same
    refine ⟨issue, tenant, stored, (issue.presented_iff presented).mp parsed, live, fresh, ?_,
      active, ?_⟩
    · rw [← inv.tenants, ← keeps.tenantId, known]
    · rw [keeps.keyId, keeps.scopes, scopesFromString_toString]
  · rintro ⟨issue, tenant, stored, presentedIt, live, fresh, known, active, rfl⟩
    obtain ⟨row, there, keeps⟩ := inv.keys.stored stored
    refine Option.bind_eq_some_iff.mpr ⟨_, (issue.presented_iff presented).mpr presentedIt, ?_⟩
    refine Option.bind_eq_some_iff.mpr ⟨row, there, admits_eq_some.mpr ?_⟩
    refine ⟨keeps.keyHash, (keeps.usableAt nowMs).mpr ⟨live, fresh⟩, tenant, ?_, active, ?_⟩
    · rw [keeps.tenantId, inv.tenants, known]
    · rw [keeps.keyId, keeps.scopes, scopesFromString_toString]

/-- After every history a presented key opens exactly the tenant and the scopes of a key
that was stored, is not revoked and not expired, while the tenant is active; and a key
that was told to be revoked opens nothing, whatever happened since. -/
theorem authenticate_history (L : Libraries) (ops : List Op) (presented : String)
    (collisionFree : ∀ issue secret, Stored (history L ops).2 issue →
      splitPresentedKey presented = some (issue.keyId, secret) →
      hashSecret L secret = hashSecret L issue.secret → secret = issue.secret) :
    (∀ (nowMs : Int) (ctx : TenantContext),
      ((authenticate L presented nowMs).run Accounts.execute (history L ops).1).1 =
        .ok (some ctx) ↔
      ∃ issue tenant, Stored (history L ops).2 issue ∧
        Text.trim presented = issue.issued.secret ∧ ¬ Revoked (history L ops).2 issue.keyId ∧
        (∀ e, issue.expiresAtMs = some e → nowMs < e) ∧
        tenantOf L (history L ops).2 issue.tenantId = some tenant ∧ tenant.active = true ∧
        ctx = { tenant, keyId := some issue.keyId, scopes := issue.scopes }) ∧
    ∀ (before after : List Op) (issue : Issue) (atMs nowMs : Int),
      ops = before ++ .revokeKey issue.keyId atMs :: after → Stored (history L before).2 issue →
      Text.trim presented = issue.issued.secret →
      ((authenticate L presented nowMs).run Accounts.execute (history L ops).1).1 = .ok none := by
  have reads := opens_iff (history_invariant L ops) collisionFree
  refine ⟨?_, ?_⟩
  · intro nowMs ctx
    obtain ⟨later, ran, -⟩ := authenticate_run L (history L ops).1 presented nowMs
    rw [ran, ← reads nowMs ctx, Except.ok.injEq]
  · intro before after issue atMs nowMs whole stored presentedIt
    obtain ⟨later, ran, -⟩ := authenticate_run L (history L ops).1 presented nowMs
    rw [ran]
    cases opened : opens L (history L ops).1 presented nowMs with
    | none => rfl
    | some ctx =>
        obtain ⟨other, tenant, -, same, live, -⟩ := (reads nowMs ctx).mp opened
        have parsed := (other.presented_iff presented).mpr same
        rw [(issue.presented_iff presented).mpr presentedIt] at parsed
        simp only [Option.some.injEq, Prod.mk.injEq] at parsed
        rw [← parsed.1, whole] at live
        exact absurd (revoked_after_call stored) live

end Histories

/-! ## One key -/

def someUuid : Uuid := ⟨[0, 0, 0, 0, 0, 0, 0x40, 0, 0x80, 0, 0, 0, 0, 0, 0, 0], rfl⟩

def priceText : String :=
  "\x7b\"share_pct\":30.0,\"reference_gb_month_cents\":12.0,\"per_gb_cents\":" ++
    "\x7b\"fast\":150.0,\"balanced\":400.0,\"max\":1600.0\x7d,\"currency\":\"BRL\"\x7d"

/-- BLAKE3 is tabulated for the one secret that occurs, and prices have one text. -/
def tabulated : Libraries where
  blake3 _ :=
    ⟨[0x67, 0x8b, 0xa9, 0x79, 0x06, 0x61, 0x9d, 0x80, 0x18, 0x5c, 0xcc, 0x4f, 0x48,
      0x4d, 0x86, 0x25, 0x5d, 0x7c, 0xd0, 0x69, 0xbd, 0x6c, 0x00, 0x75, 0xba, 0x7e,
      0xbf, 0xcf, 0xa4, 0x15, 0x1a, 0xfd], rfl⟩
  writePrice _ := .ok priceText
  readPrice text := if text = priceText then some PriceConfig.default else none

def someIssue : Issue where
  first := someUuid
  second := someUuid
  third := someUuid
  tenantId := "t"
  name := "ci"
  scopes := {.compress, .read}
  createdAtMs := 1
  expiresAtMs := some 100

def someTenant : Tenant where
  id := "t"
  name := "empresa"
  plan := .savingsShare
  price := PriceConfig.default
  active := true
  createdAtMs := 1

def oneKey : List Op := [.upsertTenant someTenant, .storeKey someIssue]

theorem log_oneKey : (history tabulated oneKey).2 =
    [(.upsertTenant someTenant, .upserted (.ok ())), (.storeKey someIssue, .stored (.ok ()))] := by
  rfl

theorem stored_oneKey {issue : Issue} (stored : Stored (history tabulated oneKey).2 issue) :
    issue = someIssue := by
  simpa [Stored, log_oneKey] using stored

theorem oneKey_stored : Stored (history tabulated oneKey).2 someIssue :=
  List.mem_cons_of_mem _ List.mem_cons_self

theorem parsed_oneKey {presented secret : String}
    (trimmed : Text.trim presented = someIssue.issued.secret)
    (parsed : splitPresentedKey presented = some (someIssue.keyId, secret)) :
    secret = someIssue.secret := by
  rw [(someIssue.presented_iff presented).mpr trimmed] at parsed
  simpa [eq_comm] using parsed

/-- The key opens its tenant before it expires, and nothing once it is revoked. -/
theorem authenticate_history_one :
    ((authenticate tabulated (" " ++ someIssue.issued.secret) 50).run Accounts.execute
      (history tabulated oneKey).1).1 =
        .ok (some
          { tenant := someTenant, keyId := some someIssue.keyId, scopes := {.compress, .read} }) ∧
    ((authenticate tabulated someIssue.issued.secret 50).run Accounts.execute
      (history tabulated (oneKey ++ [.revokeKey someIssue.keyId 40])).1).1 = .ok none := by
  have spaced : Text.trim (" " ++ someIssue.issued.secret) = someIssue.issued.secret := by
    decide +kernel
  have later : ∀ issue,
      Stored (history tabulated (oneKey ++ [.revokeKey someIssue.keyId 40])).2 issue →
      issue = someIssue := by
    intro issue stored
    have before : Stored (history tabulated oneKey).2 issue := by
      rw [history, List.foldl_append] at stored
      simpa [history] using stored_append.mp stored
    exact stored_oneKey before
  refine ⟨?_, ?_⟩
  · refine ((authenticate_history tabulated oneKey (" " ++ someIssue.issued.secret) ?_).1 50 _).mpr
      ⟨someIssue, someTenant, oneKey_stored, spaced, ?_, ?_, rfl, rfl, rfl⟩
    · intro issue secret stored parsed _
      cases stored_oneKey stored
      exact parsed_oneKey spaced parsed
    · rintro ⟨nowMs, answered⟩
      simp [log_oneKey] at answered
    · intro e expires
      cases expires
      decide
  · refine (authenticate_history tabulated _ someIssue.issued.secret ?_).2 oneKey [] someIssue
      40 50 rfl oneKey_stored someIssue.trim_issued
    intro issue secret stored parsed _
    cases later issue stored
    exact parsed_oneKey someIssue.trim_issued parsed

end Tenancy

end Syntra

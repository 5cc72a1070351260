import Syntra.Api.Admission

/-!
# What calls and starts leave of the tables

A key that was stored stays stored, and stays revoked once it is; only a start may
drop the demand for a credential, and not while its count of the keys answers and
there is one.
-/

set_option autoImplicit false

namespace Syntra

namespace Api

open Program Tenancy

/-! ## Keys -/

/-- What never changes of a stored key, but for its revocation. -/
structure Carries (row later : KeyRow) : Prop where
  tenantId : later.tenantId = row.tenantId
  keyHash : later.keyHash = row.keyHash
  scopes : later.scopes = row.scopes
  expiresAtMs : later.expiresAtMs = row.expiresAtMs
  revoked : row.revokedAtMs.isSome = true → later.revokedAtMs = row.revokedAtMs

theorem Carries.refl (row : KeyRow) : Carries row row := ⟨rfl, rfl, rfl, rfl, fun _ => rfl⟩

theorem Carries.trans {row middle later : KeyRow} (first : Carries row middle)
    (second : Carries middle later) : Carries row later where
  tenantId := second.tenantId.trans first.tenantId
  keyHash := second.keyHash.trans first.keyHash
  scopes := second.scopes.trans first.scopes
  expiresAtMs := second.expiresAtMs.trans first.expiresAtMs
  revoked := by
    intro revoked
    have still := first.revoked revoked
    rw [second.revoked (still ▸ revoked), still]

theorem carries_revokedAt (nowMs : Int) (row : KeyRow) : Carries row (row.revokedAt nowMs) := by
  unfold KeyRow.revokedAt
  split
  · rename_i unrevoked
    refine ⟨rfl, rfl, rfl, rfl, fun revoked => ?_⟩
    rw [Option.isNone_iff_eq_none] at unrevoked
    rw [unrevoked] at revoked
    cases revoked
  · exact Carries.refl row

def Carried (before after : Tenancy.Accounts) : Prop :=
  ∀ keyId row, before.keys.find keyId = some row →
    ∃ later, after.keys.find keyId = some later ∧ Carries row later

theorem Carried.refl (accounts : Tenancy.Accounts) : Carried accounts accounts :=
  fun _ row found => ⟨row, found, Carries.refl row⟩

theorem Carried.trans {before middle after : Tenancy.Accounts} (first : Carried before middle)
    (second : Carried middle after) : Carried before after := by
  intro keyId row found
  obtain ⟨between, there, carries⟩ := first keyId row found
  obtain ⟨later, still, carriesOn⟩ := second keyId between there
  exact ⟨later, still, carries.trans carriesOn⟩

theorem Carried.filled {before after : Tenancy.Accounts} (carried : Carried before after)
    (filled : before.keys.rows ≠ []) : after.keys.rows ≠ [] := by
  obtain ⟨row, member⟩ := List.exists_mem_of_ne_nil _ filled
  obtain ⟨later, found, -⟩ := carried row.keyId row (Table.find_eq_some.mpr ⟨member, rfl⟩)
  exact List.ne_nil_of_mem (Table.find_eq_some.mp found).1

theorem carried_modify {accounts : Tenancy.Accounts} (keyId : String) (change : KeyRow → KeyRow)
    (kept : ∀ row, some (change row).keyId = some row.keyId)
    (carries : ∀ row, Carries row (change row)) :
    Carried accounts { accounts with keys := accounts.keys.modify keyId change kept } := by
  intro other row found
  dsimp only
  rw [Table.find_modify accounts.keys keyId change kept other, found]
  split
  · exact ⟨change row, rfl, carries row⟩
  · exact ⟨row, rfl, Carries.refl row⟩

theorem execute_carried (accounts : Tenancy.Accounts) (statement : Tenancy.Statement) :
    Carried accounts (accounts.execute statement).2 := by
  cases statement with
  | findTenant id => exact Carried.refl accounts
  | updateTenant name plan priceConfig active id => exact Carried.refl accounts
  | insertTenant row =>
      simp only [Tenancy.Accounts.execute]
      split <;> exact Carried.refl accounts
  | insertKey row =>
      simp only [Tenancy.Accounts.execute]
      split
      · rename_i keys inserted
        intro keyId old found
        refine ⟨old, ?_, Carries.refl old⟩
        have free := Table.accepts_iff.mp (Table.insert_eq_some inserted).1 row.keyId rfl
        have apart : some row.keyId ≠ some keyId := by
          intro same
          rw [Option.some.inj same, found] at free
          cases free
        exact (Table.find_insert inserted keyId).trans ((if_neg apart).trans found)
      · exact Carried.refl accounts
  | revokeKey nowMs keyId =>
      exact carried_modify keyId _ (fun row => congrArg some (row.keyId_revokedAt nowMs))
        (carries_revokedAt nowMs)
  | findKey keyId => exact Carried.refl accounts
  | touchKey nowMs keyId =>
      exact carried_modify keyId (fun row => { row with lastUsedAtMs := some nowMs })
        (fun _ => rfl) fun row => ⟨rfl, rfl, rfl, rfl, fun _ => rfl⟩

variable {D : DataPlane}

/-! ## Calls -/

theorem perform_accounts (state : ApiState D) (asked : ApiCall D) :
    (state.perform asked).2.accounts = state.accounts ∨
      ∃ statement, asked = .accounts statement ∧
        (state.perform asked).2.accounts = (state.accounts.execute statement).2 := by
  cases asked with
  | accounts statement =>
      simp only [ApiState.perform]
      split
      · exact Or.inl rfl
      · exact Or.inr ⟨statement, rfl, rfl⟩
  | allTenants | keysOf tenantId | countKeys | authRequired | markAuthRequired | defaultTenant
  | nowMillis | newUuid | data asked => exact Or.inl rfl

theorem perform_answer {state : ApiState D} {statement : Tenancy.Statement}
    {rows : statement.Rows} (answered : (state.perform (.accounts statement)).1 = .ok rows) :
    (state.accounts.execute statement).1 = .ok rows ∧
      (state.perform (.accounts statement)).2.accounts =
        (state.accounts.execute statement).2 := by
  simp only [ApiState.perform] at answered ⊢
  split at answered
  · cases answered
  · exact ⟨answered, rfl⟩

theorem perform_carried (state : ApiState D) (asked : ApiCall D) :
    Carried state.accounts (state.perform asked).2.accounts := by
  rcases perform_accounts state asked with same | ⟨statement, -, executed⟩
  · rw [same]
    exact Carried.refl _
  · rw [executed]
    exact execute_carried _ _

theorem perform_required {state : ApiState D} (required : state.authRequired = true)
    (asked : ApiCall D) : (state.perform asked).2.authRequired = true := by
  cases asked with
  | accounts statement =>
      simp only [ApiState.perform]
      split <;> exact required
  | markAuthRequired => rfl
  | allTenants | keysOf tenantId | countKeys | authRequired | defaultTenant | nowMillis | newUuid
  | data asked => exact required

theorem perform_mark (state : ApiState D) :
    (state.perform .markAuthRequired).2.authRequired = true := rfl

theorem perform_insertKey {state : ApiState D} {row : KeyRow}
    (stored : (state.perform (.accounts (.insertKey row))).1 = .ok ()) :
    (state.perform (.accounts (.insertKey row))).2.accounts.keys.rows ≠ [] := by
  obtain ⟨answered, executed⟩ := perform_answer stored
  rw [executed]
  simp only [Tenancy.Accounts.execute] at answered ⊢
  split
  · rename_i keys inserted
    simp [(Table.insert_eq_some inserted).2]
  · rename_i taken
    rw [taken] at answered
    cases answered

theorem perform_counts {state : ApiState D} (filled : state.accounts.keys.rows ≠ [])
    {asked : ApiCall D} {n : Int}
    (counted : (⟨asked, (state.perform asked).1⟩ : Entry D) = ⟨.countKeys, .ok n⟩) : 0 < n := by
  cases asked with
  | countKeys =>
      have answered : orFault (state.outside 0).fault (state.accounts.keys.rows.length : Int) =
          .ok n := eq_of_heq (Sigma.mk.inj counted).2
      have some_key := List.length_pos_iff.mpr filled
      unfold orFault at answered
      cases fault : (state.outside 0).fault with
      | some e =>
          rw [fault] at answered
          cases answered
      | none =>
          rw [fault] at answered
          cases answered
          omega
  | _ => simp at counted

/-! ## Starts -/

def begun (outside : Nat → ApiOutside) (state : ApiState D) : ApiState D :=
  { state with outside, data := D.reopen state.data }

def countAnswers : Entry D → Bool
  | ⟨.countKeys, .error _⟩ => false
  | _ => true

def Counts (gate : Gate) (outside : Nat → ApiOutside) (state : ApiState D) : Prop :=
  ∀ entry ∈ (startUp gate).trace ApiState.perform (begun outside state), countAnswers entry = true

instance (gate : Gate) (outside : Nat → ApiOutside) (state : ApiState D) :
    Decidable (Counts gate outside state) :=
  inferInstanceAs (Decidable (∀ entry ∈ _, countAnswers entry = true))

theorem boot_carried (gate : Gate) (outside : Nat → ApiOutside) (state : ApiState D) :
    Carried state.accounts (boot gate outside state).2.accounts := by
  have kept := (Uses.any (startUp gate)).run_keeps ApiState.perform
    (fun later => Carried state.accounts later.accounts)
    (fun later asked carried _ => carried.trans (perform_carried later asked))
    (begun outside state) (Carried.refl _)
  unfold boot
  dsimp only
  split
  · exact kept
  · exact kept

theorem startUp_safe (gate : Gate) :
    (startUp gate : Program (ApiCall D) _ _).Safe (.seen fun _ _ => True)
      (fun seen result => ∀ tenant required, result = .ok (tenant, required) →
        (∃ e, (⟨.countKeys, .error e⟩ : Entry D) ∈ seen) ∨
        ∃ n, (⟨.countKeys, .ok n⟩ : Entry D) ∈ seen ∧
          required = (!gate.apiKeys.isEmpty || decide (0 < n))) [] := by
  refine ⟨trivial, fun now => ?_⟩
  rw [safe_attempt]
  have asks : (ofQuery (ensureDefaultTenant gate.libraries now)).Safe (.seen fun _ _ => True)
      (fun _ _ => True) [(⟨.nowMillis, now⟩ : Entry D)] := safe_any _ fun _ _ => trivial
  refine asks.imp fun seen result _ => ?_
  cases result with
  | error e =>
      intro tenant required failed
      cases failed
  | ok tenant =>
      refine ⟨trivial, fun counted => ?_⟩
      intro other required started
      cases started
      cases counted with
      | error e => exact Or.inl ⟨e, List.mem_cons_self⟩
      | ok n => exact Or.inr ⟨n, List.mem_cons_self, rfl⟩

/-- A start while there is a key keeps the demand, if the count of the keys answers. -/
theorem boot_required {gate : Gate} {outside : Nat → ApiOutside} {state : ApiState D}
    (counts : Counts gate outside state) (filled : state.accounts.keys.rows ≠ [])
    (required : state.authRequired = true) :
    (boot gate outside state).2.authRequired = true := by
  obtain ⟨concluded, truths, -, still⟩ := Safe.run_seen ApiState.perform (startUp_safe gate)
    (fun later => Carried state.accounts later.accounts ∧ later.authRequired = true)
    (fun entry => ∀ n, entry = ⟨.countKeys, .ok n⟩ → 0 < n)
    (fun later asked held => ⟨⟨held.1.trans (perform_carried later asked),
      perform_required held.2 asked⟩, fun n counted =>
      perform_counts (held.1.filled filled) counted⟩)
    (begun outside state) ⟨Carried.refl _, required⟩
  unfold boot
  dsimp only
  split
  · exact still
  · rename_i tenant demanded started
    rw [List.append_nil] at concluded
    rcases concluded tenant demanded started with ⟨e, failed⟩ | ⟨n, counted, same⟩
    · cases counts _ (List.mem_reverse.mp failed)
    · have filledCount := truths _ (List.mem_reverse.mp counted) n rfl
      show demanded = true
      simp [same, filledCount]

end Api

end Syntra

import Mathlib.Data.List.Basic
import Syntra.Api.Gate
import Syntra.Lib.Server
import Syntra.Tenancy.Calls

/-!
# Admission

What a request must have seen before it is handled: a configured key, an open engine, or
the row of a key that was usable and whose tenant was active.
-/

set_option autoImplicit false

namespace Syntra

namespace Api

open Program Tenancy

variable {D : DataPlane}

abbrev Entry (D : DataPlane) := (asked : ApiCall D) × ApiCall.Answer D asked

abbrev Seen (D : DataPlane) := List (Entry D)

/-- What the gate itself calls. -/
inductive Looks : ApiCall D → Prop
  | authRequired : Looks .authRequired
  | defaultTenant : Looks .defaultTenant
  | nowMillis : Looks .nowMillis
  | findTenant (id : String) : Looks (.accounts (.findTenant id))
  | findKey (keyId : String) : Looks (.accounts (.findKey keyId))
  | touchKey (nowMs : Int) (keyId : String) : Looks (.accounts (.touchKey nowMs keyId))

inductive Credential (gate : Gate) (headers : Headers) (seen : Seen D) :
    Tenancy.TenantContext → Prop
  | configured {presented : String} {tenant : Tenant}
      (shown : presentedKey headers = some presented) (known : presented ∈ gate.apiKeys)
      (own : ⟨.defaultTenant, tenant⟩ ∈ seen) :
      Credential gate headers seen (defaultContext tenant)
  | anonymous {tenant : Tenant} (unshown : presentedKey headers = none)
      (unlocked : ⟨.authRequired, false⟩ ∈ seen) (own : ⟨.defaultTenant, tenant⟩ ∈ seen) :
      Credential gate headers seen (defaultContext tenant)
  | key {presented keyId secret : String} {now : Int} {row : KeyRow} {tenant : TenantRow}
      (shown : presentedKey headers = some presented) (strange : presented ∉ gate.apiKeys)
      (parts : splitPresentedKey presented = some (keyId, secret))
      (clock : ⟨.nowMillis, now⟩ ∈ seen)
      (found : ⟨.accounts (.findKey keyId), .ok (some row)⟩ ∈ seen)
      (same : row.keyHash = hashSecret gate.libraries secret)
      (usable : row.intoRecord.usableAt now = true)
      (owner : ⟨.accounts (.findTenant row.tenantId), .ok (some tenant)⟩ ∈ seen)
      (active : tenant.active ≠ 0) :
      Credential gate headers seen
        { tenant := tenant.intoTenant gate.libraries, keyId := some row.keyId
          scopes := scopesFromString row.scopes }

theorem Credential.mono {gate : Gate} {headers : Headers} {seen later : Seen D}
    {ctx : Tenancy.TenantContext} (credential : Credential gate headers seen ctx)
    (more : ∀ entry ∈ seen, entry ∈ later) : Credential gate headers later ctx := by
  cases credential with
  | configured shown known own => exact .configured shown known (more _ own)
  | anonymous unshown unlocked own =>
      exact .anonymous unshown (more _ unlocked) (more _ own)
  | key shown strange parts clock found same usable owner active =>
      exact .key shown strange parts (more _ clock) (more _ found) same usable (more _ owner) active

def missingCredential : ApiError :=
  (ApiError.unauthorized "credencial ausente").withHint
    "Envie a chave em 'x-api-key: <chave>' ou 'Authorization: Bearer <chave>'."

def invalidCredential : ApiError := .unauthorized "credencial inválida"

inductive Refusal (headers : Headers) : ApiError → Prop
  | missing (unshown : presentedKey headers = none) : Refusal headers missingCredential
  | invalid {presented : String} (shown : presentedKey headers = some presented) :
      Refusal headers invalidCredential
  | failed {presented : String} (shown : presentedKey headers = some presented) (message : String) :
      Refusal headers (.internal message)

theorem Credential.unlocked {gate : Gate} {headers : Headers} {seen : Seen D}
    {ctx : Tenancy.TenantContext} (credential : Credential gate headers seen ctx)
    (keyless : presentedKey headers = none) : (⟨.authRequired, false⟩ : Entry D) ∈ seen := by
  cases credential with
  | configured shown => simp [keyless] at shown
  | anonymous unshown unlocked => exact unlocked
  | key shown => simp [keyless] at shown

theorem Refusal.keyless {headers : Headers} {e : ApiError} (refusal : Refusal headers e)
    (keyless : presentedKey headers = none) : e = missingCredential := by
  cases refusal with
  | missing unshown => rfl
  | invalid shown => simp [keyless] at shown
  | failed shown message => simp [keyless] at shown

def Decided (gate : Gate) (headers : Headers) (seen : Seen D) :
    Except ApiError Tenancy.TenantContext → Prop
  | .ok ctx => Credential gate headers seen ctx
  | .error e => Refusal headers e

theorem configured_iff {gate : Gate} {presented : String} :
    (gate.apiKeys.any fun k => constantTimeEq (Text.utf8 k) (Text.utf8 presented)) = true ↔
      presented ∈ gate.apiKeys := by
  rw [List.any_eq_true]
  constructor
  · rintro ⟨k, member, same⟩
    rwa [← Text.utf8_injective (constantTimeEq_iff.mp same)]
  · intro member
    exact ⟨presented, member, constantTimeEq_iff.mpr rfl⟩

section Gate

variable {gate : Gate} {headers : Headers} {presented : String} {now : Int}

/-- What `authenticate` has found out when it names a context. -/
def Identified (gate : Gate) (headers : Headers) (seen : Seen D) :
    Except DbError (Option Tenancy.TenantContext) → Prop
  | .ok (some ctx) => Credential gate headers seen ctx
  | _ => True

/-- By the calls of `authenticate` in their order: the row of the key, its tenant, and the
time of its last use. -/
theorem authenticate_safe (shown : presentedKey headers = some presented)
    (strange : presented ∉ gate.apiKeys) {seen : Seen D} (clock : ⟨.nowMillis, now⟩ ∈ seen) :
    Safe (.seen fun _ asked => Looks asked) (Identified gate headers)
      (ofQuery (D := D) (authenticate gate.libraries presented now)) seen := by
  unfold authenticate
  cases parts : splitPresentedKey presented with
  | none =>
      simp only [ofQuery_done]
      trivial
  | some pair =>
      obtain ⟨keyId, secret⟩ := pair
      dsimp only
      rw [ofQuery_send]
      refine ⟨.findKey keyId, fun answer => ?_⟩
      rcases answer with e | _ | row
      · trivial
      · simp only [ofQuery_done]
        trivial
      · dsimp only [authenticateRow]
        by_cases same : row.keyHash = hashSecret gate.libraries secret
        · by_cases usable : row.intoRecord.usableAt now = true
          · rw [if_pos (Tenancy.constantTimeEq_iff.mpr same), if_pos usable, ofQuery_findTenant]
            refine ⟨.findTenant row.tenantId, fun answer => ?_⟩
            rcases answer with e | _ | tenant
            · trivial
            · simp only [Option.map_none, ofQuery_done]
              trivial
            · by_cases active : tenant.active = 0
              · have inactive : (tenant.intoTenant gate.libraries).active = false := by
                  simp [TenantRow.intoTenant, active]
                simp only [Option.map_some, inactive, Bool.false_eq_true, if_false, ofQuery_done]
                trivial
              · have working : (tenant.intoTenant gate.libraries).active = true := by
                  simp [TenantRow.intoTenant, active]
                simp only [Option.map_some, working, if_true]
                rw [ofQuery_bind]
                refine ⟨.touchKey now row.keyId, fun answer => ?_⟩
                rw [ofQuery_done]
                refine Credential.key shown strange parts ?_ ?_ same usable ?_ active
                · exact List.mem_cons_of_mem _ (List.mem_cons_of_mem _
                    (List.mem_cons_of_mem _ clock))
                · exact List.mem_cons_of_mem _ (List.mem_cons_of_mem _ List.mem_cons_self)
                · exact List.mem_cons_of_mem _ List.mem_cons_self
          · rw [if_pos (Tenancy.constantTimeEq_iff.mpr same), if_neg usable, ofQuery_done]
            trivial
        · rw [if_neg (mt Tenancy.constantTimeEq_iff.mp same), ofQuery_done]
          trivial

theorem authenticateQuery_safe (shown : presentedKey headers = some presented)
    (strange : presented ∉ gate.apiKeys) {seen : Seen D} (clock : ⟨.nowMillis, now⟩ ∈ seen) :
    (authenticateQuery gate presented now : Action D Tenancy.TenantContext).Safe
      (.seen fun _ asked => Looks asked) (Decided gate headers) seen := by
  unfold authenticateQuery attemptQuery
  rw [safe_attempt]
  refine (authenticate_safe shown strange clock).imp fun later result identified => ?_
  rcases result with e | _ | ctx
  · exact Refusal.failed shown e
  · exact Refusal.invalid shown
  · exact identified

/-- The gate only looks, and lets in by a credential. -/
theorem admitted_safe :
    (admitted gate headers : Action D Tenancy.TenantContext).Safe
      (.seen fun _ asked => Looks asked) (Decided gate headers) [] := by
  refine ⟨.nowMillis, fun now => ?_⟩
  cases shown : presentedKey headers with
  | none =>
      refine ⟨.authRequired, fun required => ?_⟩
      cases required with
      | true => exact Refusal.missing shown
      | false =>
          exact ⟨.defaultTenant, fun tenant =>
            Credential.anonymous shown (List.mem_cons_of_mem _ List.mem_cons_self)
              List.mem_cons_self⟩
  | some presented =>
      dsimp only
      split
      · rename_i known
        exact ⟨.defaultTenant, fun tenant =>
          Credential.configured shown (configured_iff.mp known) List.mem_cons_self⟩
      · rename_i unknown
        rw [configured_iff] at unknown
        exact authenticateQuery_safe shown unknown List.mem_cons_self

end Gate

/-! ## The whole request -/

section Request

variable {gate : Gate} {request : HttpRequest}
  {allows : Seen D → ApiCall D → Prop} {post : Seen D → Except ApiError (Reply D) → Prop}

theorem Safe.allow {α : Type} {program : Action D α} {narrow : Seen D → ApiCall D → Prop}
    {ends : Seen D → Except ApiError α → Prop} {seen : Seen D}
    (safe : program.Safe (.seen narrow) ends seen)
    (wider : ∀ seen asked, narrow seen asked → allows seen asked) :
    program.Safe (.seen allows) ends seen := by
  induction program generalizing seen with
  | done value => exact safe
  | call asked next ih => exact ⟨wider seen asked safe.1, fun reply => ih reply (safe.2 reply)⟩

theorem serve_safe (looks : ∀ seen asked, Looks asked → allows seen asked)
    (refused : ∀ seen e, Refusal request.headers e → post seen (.error e))
    (forbidden : ∀ seen ctx e, Credential gate request.headers seen ctx →
      has ctx request.route.scope = false → e.status = 403 → post seen (.error e))
    (handles : ∀ seen ctx, Credential gate request.headers seen ctx →
      has ctx request.route.scope = true →
      (handler gate request ctx).Safe (.seen allows) post seen) :
    (serve gate request).Safe (.seen allows) post [] := by
  unfold serve
  rw [safe_attempt]
  refine (Safe.allow admitted_safe looks).imp fun seen decision decided => ?_
  cases decision with
  | error e => exact refused seen e decided
  | ok ctx =>
      show (requireScope request.route.scope ctx (handler gate request ctx)).Safe _ _ _
      unfold requireScope
      split
      · rename_i inScope
        exact handles seen ctx decided inScope
      · rename_i unscoped
        exact forbidden seen ctx _ decided (by simpa using unscoped) rfl

end Request

end Api

end Syntra

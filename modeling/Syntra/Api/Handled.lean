import Syntra.Api.Barred
import Syntra.Tenancy.Authentication

/-!
# What answers rest on

A key is answered with after its row is stored and credentials are asked for, and one is
said to be revoked after its row is; the other routes answer neither.
-/

set_option autoImplicit false

namespace Syntra

namespace Api

open Program Tenancy

variable {D : DataPlane}

def HasStored (seen : Seen D) : Prop :=
  ∃ row, (⟨.accounts (.insertKey row), .ok ()⟩ : Entry D) ∈ seen

def HasMarked (seen : Seen D) : Prop := ∃ answer, (⟨.markAuthRequired, answer⟩ : Entry D) ∈ seen

def HasRevoked (keyId : String) (seen : Seen D) : Prop :=
  ∃ nowMs n, (⟨.accounts (.revokeKey nowMs keyId), .ok n⟩ : Entry D) ∈ seen ∧ 0 < n

/-- Credentials are asked for only once a key is stored. -/
def marksStored (seen : Seen D) (asked : ApiCall D) : Prop :=
  asked = .markAuthRequired → HasStored seen

/-- What the request has done by the time of its answer. -/
def Backed (seen : Seen D) : Except ApiError (Reply D) → Prop
  | .ok (.issued _) => HasMarked seen
  | .ok (.revoked keyId) => HasRevoked keyId seen
  | _ => True

/-! ## Queries -/

section Queries

variable {allows : Seen D → ApiCall D → Prop}

theorem ofQuery_uses {α : Type} (query : Query α) :
    (ofQuery (D := D) query).Uses fun asked => ∃ statement, asked = .accounts statement := by
  unfold ofQuery
  exact (Uses.any query).within fun statement _ => ⟨statement, rfl⟩

theorem attemptQuery_safe {α β : Type} {post : Seen D → Except ApiError β → Prop}
    {seen : Seen D} (query : Query α) {next : α → Action D β}
    (permits : ∀ later statement, allows later (.accounts statement))
    (fails : ∀ later e, post later (.error (.internal e)))
    (rest : ∀ later value, (next value).Safe (.seen allows) post later) :
    (attemptQuery query next).Safe (.seen allows) post seen := by
  unfold attemptQuery
  rw [safe_attempt]
  have asks : (ofQuery query).Safe (.seen allows) (fun _ _ => True) seen := by
    apply Safe.under (ofQuery_uses query)
    rintro later asked ⟨statement, rfl⟩
    exact permits later statement
  refine asks.imp fun later result _ => ?_
  cases result with
  | ok value => exact rest later value
  | error e => exact fails later e

end Queries

/-! ## The other routes -/

/-- Neither a key nor its revocation. -/
def Ordinary : Except ApiError (Reply D) → Prop
  | .ok (.issued _) | .ok (.revoked _) => False
  | _ => True

/-- The route asks for no credentials from then on, and answers as the others do. -/
abbrev Plain (program : Action D (Reply D)) : Prop :=
  program.Safe (Monitor.only fun asked => asked ≠ .markAuthRequired) (fun _ => Ordinary) ()

theorem Plain.ask {asked : ApiCall D} {next : asked.Answer → Action D (Reply D)}
    (other : asked ≠ .markAuthRequired) (rest : ∀ answer, Plain (next answer)) :
    Plain (.call asked next) :=
  ⟨other, rest⟩

theorem Plain.attemptQuery {α : Type} (query : Query α) {next : α → Action D (Reply D)}
    (rest : ∀ value, Plain (next value)) : Plain (attemptQuery query next) := by
  unfold Plain Api.attemptQuery
  rw [safe_attempt]
  have asks : (ofQuery (D := D) query).Uses fun asked => asked ≠ .markAuthRequired := by
    apply (ofQuery_uses query).mono
    rintro asked ⟨statement, rfl⟩
    simp
  refine Safe.imp asks fun later result _ => ?_
  cases result with
  | ok value => exact rest value
  | error e => trivial

theorem Plain.proceed {α : Type} (value : Except ApiError α) {next : α → Action D (Reply D)}
    (rest : ∀ value, Plain (next value)) : Plain (proceed value next) := by
  cases value with
  | ok value => exact rest value
  | error e => trivial

theorem Plain.dataHandler (route : DataRoute) (ctx : Tenancy.TenantContext)
    (request : HttpRequest) : Plain (dataHandler (D := D) route ctx request) := by
  unfold Plain Api.dataHandler
  rw [safe_bind]
  refine Safe.imp ((Uses.any (D.handle route ctx request.headers request.body)).within
    fun asked _ => ?_) fun later result _ => ?_
  · simp
  · cases result <;> trivial

theorem Plain.createTenantAs (gate : Gate) (body : CreateTenantBody) (id : String) :
    Plain (createTenantAs (D := D) gate body id) := by
  unfold Api.createTenantAs
  split
  · trivial
  · apply Plain.proceed
    intro plan
    apply Plain.ask (by simp)
    intro now
    apply Plain.attemptQuery
    intro stored
    trivial

theorem Plain.adminHandler (gate : Gate) (route : AdminRoute) (request : HttpRequest)
    (noIssue : ∀ id body, route ≠ .createKey id body) (noRevoke : ∀ id, route ≠ .revokeKey id) :
    Plain (adminHandler (D := D) gate route request) := by
  cases route with
  | listTenants =>
      refine Plain.ask (by simp) fun answer => ?_
      cases answer <;> trivial
  | createTenant body =>
      show Plain (createTenant gate body)
      unfold createTenant
      cases body.id with
      | some raw => exact Plain.proceed _ (Plain.createTenantAs gate body)
      | none => exact Plain.ask (by simp) fun id => Plain.createTenantAs gate body _
  | getTenant id =>
      refine Plain.proceed _ fun id => Plain.attemptQuery _ fun found => ?_
      cases found <;> trivial
  | listKeys id =>
      refine Plain.proceed _ fun id => Plain.ask (by simp) fun answer => ?_
      cases answer <;> trivial
  | createKey id body => exact absurd rfl (noIssue id body)
  | revokeKey keyId => exact absurd rfl (noRevoke keyId)
  | tenantUsage query =>
      show Plain (tenantUsage gate query request)
      unfold tenantUsage
      cases query.tenantId with
      | none => trivial
      | some raw =>
          refine Plain.proceed _ fun id => Plain.attemptQuery _ fun found => ?_
          cases found with
          | none => trivial
          | some tenant => exact Plain.dataHandler _ _ _

theorem Plain.backed {program : Action D (Reply D)} (plain : Plain program) (seen : Seen D) :
    program.Safe (.seen marksStored) Backed seen := by
  refine (Safe.under plain fun later asked other marks => absurd marks other).imp ?_
  intro later value ordinary
  unfold Ordinary at ordinary
  unfold Backed
  split
  · exact absurd ordinary id
  · exact absurd ordinary id
  · trivial

/-! ## Issuing and revoking -/

theorem marksStored_of_ne {seen : Seen D} {asked : ApiCall D} (other : asked ≠ .markAuthRequired) :
    marksStored seen asked :=
  fun marks => absurd marks other

theorem storeIssued_safe (gate : Gate) (issued : IssuedKey) (seen : Seen D) :
    (storeIssued gate issued).Safe (.seen marksStored) Backed seen := by
  unfold storeIssued attemptQuery
  rw [safe_attempt]
  unfold storeKey
  split
  · rw [ofQuery_done]
    trivial
  · rw [ofQuery_only]
    refine ⟨marksStored_of_ne (by simp), fun answer => ?_⟩
    cases answer with
    | error e => trivial
    | ok stored =>
        refine ⟨fun _ => ⟨_, List.mem_cons_self⟩, fun answer => ?_⟩
        exact ⟨answer, List.mem_cons_self⟩

theorem createKey_safe (gate : Gate) (raw : String) (body : CreateKeyBody) (seen : Seen D) :
    (createKey gate raw body).Safe (.seen marksStored) Backed seen := by
  unfold createKey
  cases parsePlainId raw with
  | error e => trivial
  | ok id =>
      apply attemptQuery_safe
      · exact fun later statement => marksStored_of_ne (by simp)
      · exact fun later e => trivial
      · intro later found
        cases found with
        | none => trivial
        | some tenant =>
            dsimp only
            cases parseScopes body.scopes with
            | error e => trivial
            | ok scopes =>
                refine ⟨marksStored_of_ne (by simp), fun now => ?_⟩
                refine ⟨marksStored_of_ne (by simp), fun first => ?_⟩
                refine ⟨marksStored_of_ne (by simp), fun second => ?_⟩
                refine ⟨marksStored_of_ne (by simp), fun third => ?_⟩
                dsimp only
                cases expiryOf body.expiresInDays now with
                | error e => trivial
                | ok expiresAtMs => exact storeIssued_safe gate _ _

theorem revokeKey_safe (raw : String) (seen : Seen D) :
    (revokeKey raw : Action D (Reply D)).Safe (.seen marksStored) Backed seen := by
  unfold revokeKey
  cases parsePlainId raw with
  | error e => trivial
  | ok keyId =>
      refine ⟨marksStored_of_ne (by simp), fun now => ?_⟩
      unfold attemptQuery Tenancy.revokeKey
      rw [safe_attempt, ofQuery_send]
      refine ⟨marksStored_of_ne (by simp), fun answer => ?_⟩
      cases answer with
      | error e => trivial
      | ok n =>
          dsimp only
          rw [ofQuery_done]
          by_cases some_row : 0 < n
          · rw [decide_eq_true some_row]
            exact ⟨now, n, List.mem_cons_self, some_row⟩
          · rw [decide_eq_false some_row]
            trivial

theorem adminHandler_safe (gate : Gate) (route : AdminRoute) (request : HttpRequest)
    (seen : Seen D) :
    (adminHandler gate route request).Safe (.seen marksStored) Backed seen := by
  by_cases issues : ∃ id body, route = .createKey id body
  · obtain ⟨id, body, rfl⟩ := issues
    exact createKey_safe gate id body seen
  · by_cases revokes : ∃ keyId, route = .revokeKey keyId
    · obtain ⟨keyId, rfl⟩ := revokes
      exact revokeKey_safe keyId seen
    · push Not at issues revokes
      exact (Plain.adminHandler gate route request issues revokes).backed seen

/-- Every request answers with a key or a revocation only after it. -/
theorem serve_backed (gate : Gate) (request : HttpRequest) :
    (serve gate request : Action D (Reply D)).Safe (.seen marksStored) Backed [] := by
  apply serve_safe
  · intro seen asked looks
    cases looks <;> exact marksStored_of_ne (by simp)
  · intro seen e _
    trivial
  · intro seen ctx e _ _ _
    trivial
  · intro seen ctx _ _
    unfold handler
    cases request.route with
    | data route => exact (Plain.dataHandler route ctx request).backed seen
    | admin route => exact adminHandler_safe gate route request seen

end Api

end Syntra

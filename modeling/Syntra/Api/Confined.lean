import Syntra.Api.Revoked

/-!
# Whom a request acts for

Whatever else is running, a request reaches past the gate only for a context that is
configured, for everybody, or stored with its key, and only where the scope of that
context covers the route.  A route of objects makes no call but those of its handler for
that context.
-/

set_option autoImplicit false

namespace Syntra

namespace Api

open Program Tenancy

variable {D : DataPlane}

inductive Held (gate : Gate) (headers : Headers) (seen : Seen D) (accounts : Tenancy.Accounts) :
    Tenancy.TenantContext → Prop
  | configured {presented : String} {tenant : Tenant}
      (shown : presentedKey headers = some presented) (known : presented ∈ gate.apiKeys)
      (own : ⟨.defaultTenant, tenant⟩ ∈ seen) :
      Held gate headers seen accounts (defaultContext tenant)
  | anonymous {tenant : Tenant} (unshown : presentedKey headers = none)
      (unlocked : ⟨.authRequired, false⟩ ∈ seen) (own : ⟨.defaultTenant, tenant⟩ ∈ seen) :
      Held gate headers seen accounts (defaultContext tenant)
  | key {presented keyId secret : String} {row : KeyRow} {ctx : Tenancy.TenantContext}
      (shown : presentedKey headers = some presented) (strange : presented ∉ gate.apiKeys)
      (parts : splitPresentedKey presented = some (keyId, secret))
      (stored : accounts.keys.find keyId = some row)
      (same : row.keyHash = hashSecret gate.libraries secret)
      (named : ctx.keyId = some keyId) (owner : ctx.tenant.id = row.tenantId)
      (scopes : ctx.scopes = scopesFromString row.scopes) :
      Held gate headers seen accounts ctx

/-- The rows that were found are the rows asked for, and are stored. -/
structure Told (accounts : Tenancy.Accounts) (seen : Seen D) : Prop where
  key : ∀ keyId row, (⟨.accounts (.findKey keyId), .ok (some row)⟩ : Entry D) ∈ seen →
    ∃ later, accounts.keys.find keyId = some later ∧ row.keyId = keyId ∧ Carries row later
  tenant : ∀ id row, (⟨.accounts (.findTenant id), .ok (some row)⟩ : Entry D) ∈ seen → row.id = id

theorem Told.carried {before after : Tenancy.Accounts} {seen : Seen D} (told : Told before seen)
    (carried : Carried before after) : Told after seen where
  key keyId row found := by
    obtain ⟨later, stored, named, carries⟩ := told.key keyId row found
    obtain ⟨still, there, carriesOn⟩ := carried keyId later stored
    exact ⟨still, there, named, carries.trans carriesOn⟩
  tenant := told.tenant

theorem Told.advance {state : ApiState D} {seen : Seen D} (told : Told state.accounts seen)
    (asked : ApiCall D) :
    Told (state.perform asked).2.accounts (⟨asked, (state.perform asked).1⟩ :: seen) := by
  have kept := told.carried (perform_carried state asked)
  constructor
  · intro keyId row member
    rcases List.mem_cons.mp member with new | before
    · obtain ⟨rfl, answered⟩ := Sigma.mk.inj new
      obtain ⟨read, executed⟩ := perform_answer (eq_of_heq answered).symm
      have found : state.accounts.keys.find keyId = some row := Except.ok.inj read
      rw [executed]
      exact ⟨row, found, Option.some.inj (Table.find_eq_some.mp found).2, Carries.refl row⟩
    · exact kept.key keyId row before
  · intro id row member
    rcases List.mem_cons.mp member with new | before
    · obtain ⟨rfl, answered⟩ := Sigma.mk.inj new
      have found : state.accounts.tenants.find id = some row :=
        Except.ok.inj (perform_answer (eq_of_heq answered).symm).1
      exact Option.some.inj (Table.find_eq_some.mp found).2
    · exact kept.tenant id row before

theorem Credential.held {gate : Gate} {headers : Headers} {seen : Seen D} {accounts : Tenancy.Accounts}
    {ctx : Tenancy.TenantContext} (credential : Credential gate headers seen ctx)
    (told : Told accounts seen) : Held gate headers seen accounts ctx := by
  cases credential with
  | configured shown known own => exact .configured shown known own
  | anonymous unshown unlocked own => exact .anonymous unshown unlocked own
  | @key presented keyId secret now row tenant shown strange parts _ found same _ owner _ =>
      obtain ⟨later, stored, named, carries⟩ := told.key keyId row found
      refine .key shown strange parts stored (carries.keyHash.trans same) ?_ ?_ ?_
      · exact congrArg some named
      · exact (told.tenant row.tenantId tenant owner).trans carries.tenantId.symm
      · exact congrArg scopesFromString carries.scopes.symm

/-! ## Past the gate -/

/-- What a request may do for whom it acts: the calls of the handler of its route. -/
def Within (gate : Gate) (request : HttpRequest) (ctx : Tenancy.TenantContext)
    (asked : ApiCall D) : Prop :=
  (handler gate request ctx : Action D (Reply D)).Makes asked

/-- The request only looks, or acts by a credential whose scope covers the route. -/
def Acts (gate : Gate) (request : HttpRequest) (seen : Seen D) (asked : ApiCall D) : Prop :=
  Looks asked ∨ ∃ ctx, Credential gate request.headers seen ctx ∧
    has ctx request.route.scope = true ∧ Within gate request ctx asked

theorem Acts.mono {gate : Gate} {request : HttpRequest} {seen later : Seen D} {asked : ApiCall D}
    (acts : Acts gate request seen asked) (more : ∀ entry ∈ seen, entry ∈ later) :
    Acts gate request later asked := by
  rcases acts with looks | ⟨ctx, credential, inScope, within⟩
  · exact Or.inl looks
  · exact Or.inr ⟨ctx, credential.mono more, inScope, within⟩

/-- Who is served has a credential whose scope covers the route. -/
def Served (gate : Gate) (request : HttpRequest) (seen : Seen D)
    (value : Except ApiError (Reply D)) : Prop :=
  ∀ reply, value = .ok reply →
    ∃ ctx, Credential gate request.headers seen ctx ∧ has ctx request.route.scope = true

theorem safe_credential {gate : Gate} {request : HttpRequest} {ctx : Tenancy.TenantContext}
    {program : Action D (Reply D)} (uses : program.Uses (Within gate request ctx))
    {seen : Seen D} (credential : Credential gate request.headers seen ctx)
    (inScope : has ctx request.route.scope = true) :
    program.Safe (.seen (Acts gate request)) (Served gate request) seen := by
  induction program generalizing seen with
  | done value => exact fun reply _ => ⟨ctx, credential, inScope⟩
  | call asked next ih =>
      refine ⟨Or.inr ⟨ctx, credential, inScope, uses.1⟩, fun reply => ih reply (uses.2 reply) ?_⟩
      exact credential.mono fun entry => List.mem_cons_of_mem _

theorem within_data {gate : Gate} {request : HttpRequest} {ctx : Tenancy.TenantContext}
    {asked : ApiCall D} (within : Within gate request ctx asked) {route : DataRoute}
    (data : request.route = .data route) :
    ∃ inner, asked = .data inner ∧
      (D.handle route ctx request.headers request.body).Makes inner := by
  have uses : (dataHandler (D := D) route ctx request).Uses fun asked =>
      ∃ inner, asked = .data inner ∧
        (D.handle route ctx request.headers request.body).Makes inner :=
    ((Uses.makes (D.handle route ctx request.headers request.body)).within
      fun inner makes => ⟨inner, rfl, makes⟩).bind fun value => trivial
  rw [Within, handler, data] at within
  exact uses.of_makes within

theorem serve_acts (gate : Gate) (request : HttpRequest) :
    (serve gate request : Action D (Reply D)).Safe (.seen (Acts gate request))
      (Served gate request) [] := by
  apply serve_safe
  · exact fun seen asked looks => Or.inl looks
  · intro seen e _ reply answered
    cases answered
  · intro seen ctx e _ _ _ reply answered
    cases answered
  · intro seen ctx credential inScope
    exact safe_credential (Uses.makes _) credential inScope

def confining (gate : Gate) : ApiContract (D := D) gate fun _ _ => True where
  inv _ := True
  holds state ticket seen :=
    Told state.accounts seen ∧ ∀ entry ∈ seen, Acts gate ticket.origin seen entry.1
  allows ticket := Acts gate ticket.origin
  post ticket := Served gate ticket.origin
  arrives server origin _ _ := by
    refine ⟨⟨⟨?_, ?_⟩, ?_⟩, serve_acts gate origin⟩
    · intro keyId row none
      cases none
    · intro id row none
      cases none
    · intro entry none
      cases none
  calls state ticket seen asked _ relies allowed := by
    refine ⟨trivial, ⟨relies.1.advance asked, fun entry member => ?_⟩, fun other told others =>
      ⟨others.1.carried (perform_carried state asked), others.2⟩⟩
    rcases List.mem_cons.mp member with rfl | before
    · exact allowed.mono fun entry => List.mem_cons_of_mem _
    · exact (relies.2 entry before).mono fun entry => List.mem_cons_of_mem _
  restarts server outside _ _ :=
    ⟨trivial, fun ticket seen relies =>
      ⟨relies.1.carried (boot_carried gate outside server.state), relies.2⟩⟩

theorem acts_of_run {gate : Gate} {state : ApiState D} {moves : List ApiMove}
    {final : ApiServer D} (ran : execOf gate (Server.idle state) moves = some final)
    {job : ApiJob D} (member : job ∈ final.jobs) :
    Told final.state.accounts job.seen ∧
      (∀ entry ∈ job.seen, Acts gate job.ticket.origin job.seen entry.1) ∧
      ∀ value, job.reply = some value → Served gate job.ticket.origin job.seen value := by
  obtain ⟨-, sound⟩ := (confining gate).run (Server.idle state) final moves trivial
    (by simp [Server.idle]) (Run.meets_true _ moves) ran
  exact ⟨(sound job member).relies.1, (sound job member).relies.2,
    fun value => (sound job member).answered⟩

end Api

end Syntra

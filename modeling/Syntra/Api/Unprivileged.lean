import Syntra.Api.Confined

/-!
# No way up

Where no stored key grants the scope of tenants and keys, and nobody holds a configured
one, nobody comes to have it: no run changes a tenant or a key, but for the time a key
was last used.
-/

set_option autoImplicit false

namespace Syntra

namespace Api

open Program Tenancy

variable {D : DataPlane}

def Unfit (accounts : Tenancy.Accounts) (since : Int) (row : KeyRow) : Prop :=
  Scope.admin ∉ scopesFromString row.scopes ∨ row.revokedAtMs.isSome = true ∨
    (∃ expiry, row.expiresAtMs = some expiry ∧ expiry ≤ since) ∨
    ∀ owner, accounts.tenants.find row.tenantId = some owner → owner.active = 0

def unused (row : KeyRow) : KeyRow := { row with lastUsedAtMs := none }

/-- The tables but for the last uses of keys. -/
structure Alike (before after : Tenancy.Accounts) : Prop where
  tenants : after.tenants = before.tenants
  keys : ∀ keyId,
    (after.keys.find keyId).map unused = (before.keys.find keyId).map unused

theorem Alike.refl (accounts : Tenancy.Accounts) : Alike accounts accounts := ⟨rfl, fun _ => rfl⟩

theorem Alike.trans {before middle after : Tenancy.Accounts} (first : Alike before middle)
    (second : Alike middle after) : Alike before after :=
  ⟨second.tenants.trans first.tenants, fun keyId => (second.keys keyId).trans (first.keys keyId)⟩

theorem Alike.found {before after : Tenancy.Accounts} (alike : Alike before after) {keyId : String}
    {row : KeyRow} (found : after.keys.find keyId = some row) :
    ∃ old, before.keys.find keyId = some old ∧ unused old = unused row := by
  have same := alike.keys keyId
  rw [found, Option.map_some] at same
  exact Option.map_eq_some_iff.mp same.symm

theorem unfit_unused {accounts : Tenancy.Accounts} {since : Int} {row old : KeyRow}
    (same : unused old = unused row) : Unfit accounts since old ↔ Unfit accounts since row := by
  have tenantId := congrArg KeyRow.tenantId same
  have scopes := congrArg KeyRow.scopes same
  have expiresAtMs := congrArg KeyRow.expiresAtMs same
  have revokedAtMs := congrArg KeyRow.revokedAtMs same
  simp only [unused] at tenantId scopes expiresAtMs revokedAtMs
  simp only [Unfit, tenantId, scopes, expiresAtMs, revokedAtMs]

/-! ## What the gate and the routes of objects leave of the tables -/

/-- The calls of requests that reach no route of tenants and keys. -/
def Modest (asked : ApiCall D) : Prop := Looks asked ∨ ∃ inner, asked = .data inner

theorem looks_alike {state : ApiState D} {statement : Tenancy.Statement}
    (looks : Looks (.accounts statement : ApiCall D)) :
    Alike state.accounts (state.accounts.execute statement).2 := by
  cases looks with
  | findTenant id => exact Alike.refl _
  | findKey keyId => exact Alike.refl _
  | touchKey nowMs keyId =>
      refine ⟨rfl, fun other => ?_⟩
      refine (congrArg (Option.map unused) (Table.find_modify state.accounts.keys keyId
        (fun row => { row with lastUsedAtMs := some nowMs }) (fun _ => rfl) other)).trans ?_
      split
      · rw [Option.map_map]
        rfl
      · rfl

theorem modest_alike (state : ApiState D) {asked : ApiCall D} (modest : Modest asked) :
    Alike state.accounts (state.perform asked).2.accounts := by
  rcases perform_accounts state asked with same | ⟨statement, rfl, executed⟩
  · rw [same]
    exact Alike.refl _
  · rw [executed]
    rcases modest with looks | ⟨inner, data⟩
    · exact looks_alike looks
    · cases data

def From (since : Int) (outside : Nat → ApiOutside) : Prop := ∀ n, since ≤ (outside n).clock

theorem perform_from {since : Int} {state : ApiState D} (clocks : From since state.outside)
    (asked : ApiCall D) : From since (state.perform asked).2.outside := by
  have later : (state.perform asked).2.outside = fun n => state.outside (n + 1) := by
    cases asked with
    | accounts statement =>
        simp only [ApiState.perform]
        split <;> rfl
    | allTenants | keysOf tenantId | countKeys | authRequired | markAuthRequired | defaultTenant
    | nowMillis | newUuid | data asked => rfl
  intro n
  rw [later]
  exact clocks (n + 1)

theorem perform_clock {since : Int} {state : ApiState D} (clocks : From since state.outside)
    {asked : ApiCall D} {now : Int}
    (told : (⟨asked, (state.perform asked).1⟩ : Entry D) = ⟨.nowMillis, now⟩) : since ≤ now := by
  obtain ⟨rfl, answered⟩ := Sigma.mk.inj told
  have read : (state.outside 0).clock = now := eq_of_heq answered
  rw [← read]
  exact clocks 0

/-! ## Starts -/

theorem ensure_alike (L : Libraries) (now : Int) (state : ApiState D)
    (present : (state.accounts.tenants.find defaultTenantId).isSome = true) :
    ((ofQuery (ensureDefaultTenant L now)).run ApiState.perform state).2.accounts =
      state.accounts := by
  obtain ⟨row, found⟩ := Option.isSome_iff_exists.mp present
  rw [ensureDefaultTenant, ofQuery_findTenant, run_call]
  cases fault : (state.outside 0).fault with
  | some e => simp [ApiState.perform, fault]
  | none => simp [ApiState.perform, fault, Tenancy.Accounts.execute, found]

theorem boot_alike (gate : Gate) (outside : Nat → ApiOutside) {state : ApiState D}
    (present : (state.accounts.tenants.find defaultTenantId).isSome = true) :
    (boot gate outside state).2.accounts = state.accounts := by
  have ran : ((startUp gate).run ApiState.perform (begun outside state)).2.accounts =
      state.accounts := by
    unfold startUp
    rw [run_call, run_attempt]
    have kept := ensure_alike gate.libraries ((begun outside state).perform .nowMillis).1
      ((begun outside state).perform .nowMillis).2 present
    split
    · rename_i tenant later asked
      rw [asked] at kept
      exact kept
    · rename_i e later asked
      rw [asked] at kept
      exact kept
  unfold boot
  dsimp only
  split <;> exact ran

theorem boot_from {gate : Gate} {since : Int} {outside : Nat → ApiOutside} {state : ApiState D}
    (clocks : From since outside) : From since (boot gate outside state).2.outside := by
  have kept := (Uses.any (startUp gate)).run_keeps ApiState.perform
    (fun later => From since later.outside) (fun later asked held _ => perform_from held asked)
    (begun outside state) clocks
  unfold boot
  dsimp only
  split <;> exact kept

/-! ## Runs -/

/-- From `since` on nobody can have the scope of tenants and keys. -/
structure Sealed (since : Int) (first : Tenancy.Accounts) (state : ApiState D) : Prop where
  required : state.authRequired = true
  filled : state.accounts.keys.rows ≠ []
  present : (first.tenants.find defaultTenantId).isSome = true
  unfit : ∀ keyId row, first.keys.find keyId = some row → Unfit first since row
  alike : Alike first state.accounts
  clocks : From since state.outside

theorem Sealed.perform {since : Int} {first : Tenancy.Accounts} {state : ApiState D}
    (locked : Sealed since first state) {asked : ApiCall D} (modest : Modest asked) :
    Sealed since first (state.perform asked).2 where
  required := perform_required locked.required asked
  filled := (perform_carried state asked).filled locked.filled
  present := locked.present
  unfit := locked.unfit
  alike := locked.alike.trans (modest_alike state modest)
  clocks := perform_from locked.clocks asked

theorem Sealed.boot {gate : Gate} {since : Int} {first : Tenancy.Accounts} {state : ApiState D}
    (locked : Sealed since first state) {outside : Nat → ApiOutside}
    (counts : Counts gate outside state) (clocks : From since outside) :
    Sealed since first (boot gate outside state).2 where
  required := boot_required counts locked.filled locked.required
  filled := (boot_carried gate outside state).filled locked.filled
  present := locked.present
  unfit := locked.unfit
  alike := by
    rw [boot_alike gate outside (by rw [locked.alike.tenants]; exact locked.present)]
    exact locked.alike
  clocks := boot_from clocks

/-- The request comes with none of the configured keys. -/
def Strange (gate : Gate) (headers : Headers) : Prop :=
  ∀ presented, presentedKey headers = some presented → presented ∉ gate.apiKeys

/-- No request comes with a configured key, and each start counts the keys and is no earlier. -/
def Outsiders (gate : Gate) (since : Int) (server : ApiServer D) : ApiMove → Prop
  | .arrive origin => Strange gate origin.headers
  | .step _ => True
  | .restart outside => Counts gate outside server.state ∧ From since outside

inductive Opening (since : Int) (first : Tenancy.Accounts) : Entry D → Prop
  | unlocked : Opening since first ⟨.authRequired, false⟩
  | early {now : Int} (before : now < since) : Opening since first ⟨.nowMillis, now⟩
  | fit {keyId : String} {row : KeyRow} (fit : ¬ Unfit first since row) :
      Opening since first ⟨.accounts (.findKey keyId), .ok (some row)⟩
  | owner {id : String} {row : TenantRow} (active : row.active ≠ 0)
      (inactive : ∀ other, first.tenants.find id = some other → other.active = 0) :
      Opening since first ⟨.accounts (.findTenant id), .ok (some row)⟩

theorem Credential.opening {gate : Gate} {headers : Headers} {seen : Seen D} {since : Int}
    {first : Tenancy.Accounts} {ctx : Tenancy.TenantContext} (strange : Strange gate headers)
    (credential : Credential gate headers seen ctx) (inScope : has ctx .admin = true) :
    Found (Opening since first) seen := by
  cases credential with
  | configured shown known => exact absurd known (strange _ shown)
  | anonymous unshown unlocked => exact ⟨_, unlocked, .unlocked⟩
  | @key presented keyId secret now row tenant shown _ parts clock found same usable owner active =>
      have granted : Scope.admin ∈ scopesFromString row.scopes := by
        simpa [has] using inScope
      by_cases before : now < since
      · exact ⟨_, clock, .early before⟩
      by_cases inactive : ∀ other, first.tenants.find row.tenantId = some other → other.active = 0
      · exact ⟨_, owner, .owner active inactive⟩
      refine ⟨_, found, .fit ?_⟩
      rw [ApiKeyRecord.usableAt, Bool.and_eq_true] at usable
      rintro (ungranted | revoked | ⟨expiry, expires, past⟩ | unowned)
      · exact ungranted granted
      · have unrevoked : row.revokedAtMs.isNone = true := usable.1
        rw [Option.isNone_iff_eq_none] at unrevoked
        rw [unrevoked] at revoked
        cases revoked
      · have unexpired := usable.2
        simp only [KeyRow.intoRecord, expires, Option.map_some, Option.getD_some,
          decide_eq_true_eq] at unexpired
        omega
      · exact inactive unowned

theorem Sealed.denied {since : Int} {first : Tenancy.Accounts} {state : ApiState D}
    (locked : Sealed since first state) (asked : ApiCall D) :
    ¬ Opening since first ⟨asked, (state.perform asked).1⟩ := by
  intro opening
  generalize told : (⟨asked, (state.perform asked).1⟩ : Entry D) = entry at opening
  cases opening with
  | unlocked =>
      obtain ⟨rfl, answered⟩ := Sigma.mk.inj told
      have unlocked : state.authRequired = false := eq_of_heq answered
      rw [locked.required] at unlocked
      cases unlocked
  | early before => exact absurd (perform_clock locked.clocks told) (Int.not_le.mpr before)
  | @fit keyId row fit =>
      obtain ⟨rfl, answered⟩ := Sigma.mk.inj told
      have found : state.accounts.keys.find keyId = some row :=
        Except.ok.inj (perform_answer (eq_of_heq answered)).1
      obtain ⟨old, there, same⟩ := locked.alike.found found
      exact fit ((unfit_unused same).mp (locked.unfit keyId old there))
  | @owner id row active inactive =>
      obtain ⟨rfl, answered⟩ := Sigma.mk.inj told
      have found : state.accounts.tenants.find id = some row :=
        Except.ok.inj (perform_answer (eq_of_heq answered)).1
      rw [locked.alike.tenants] at found
      exact active (inactive row found)

theorem serve_modest (gate : Gate) {request : HttpRequest} {route : DataRoute}
    (data : request.route = .data route) :
    (serve gate request : Action D (Reply D)).Safe (.seen fun _ asked => Modest asked)
      (fun _ _ => True) [] := by
  apply serve_safe
  · exact fun seen asked looks => Or.inl looks
  · exact fun seen e _ => trivial
  · exact fun seen ctx e _ _ _ => trivial
  · intro seen ctx _ _
    refine Safe.under (Uses.makes (handler gate request ctx)) fun later asked within => ?_
    obtain ⟨inner, asks, -⟩ := within_data within data
    exact Or.inr ⟨inner, asks⟩

/-- Who would reach a route of tenants and keys. -/
def excluding (gate : Gate) (since : Int) (first : Tenancy.Accounts) :
    Bar (D := D) gate (Outsiders gate since) where
  inv := Sealed since first
  barred ticket := ticket.origin.route.scope = .admin ∧ Strange gate ticket.origin.headers
  evidence := Opening since first
  mayCall := Modest
  looks asked looks := Or.inl looks
  needed ticket seen ctx outsider credential inScope := by
    rw [outsider.1] at inScope
    exact credential.opening outsider.2 inScope
  free server origin strange other := by
    cases shape : origin.route with
    | data route => exact serve_modest gate shape
    | admin route =>
        refine absurd ⟨?_, strange⟩ other
        rw [shape]
        rfl
  denied state asked locked := locked.denied asked
  calls state asked locked modest := locked.perform modest
  restarts server outside locked allowed := locked.boot allowed.1 allowed.2

/-- While no key can have the scope `admin`, every run of requests without a configured key
leaves the tenants and keys as they were, and answers each request for them with an error. -/
theorem no_escalation (gate : Gate) (state : ApiState D) (since : Int)
    (locked : Sealed since state.accounts state) (moves : List ApiMove) (final : ApiServer D)
    (outsiders : Run.Meets (stepOf gate) (Outsiders gate since) (Server.idle state) moves)
    (ran : execOf gate (Server.idle state) moves = some final) :
    Alike state.accounts final.state.accounts ∧
      ∀ job ∈ final.jobs, job.ticket.origin.route.scope = .admin →
        (∀ entry ∈ job.seen, Looks entry.1) ∧ ∀ reply, job.reply ≠ some (.ok reply) := by
  have strangers := Server.origins_exec (fun _ _ strange => strange) (by simp [Server.idle])
    outsiders ran
  obtain ⟨still, turned⟩ := (excluding gate since state.accounts).run (Server.idle state) final
    moves locked (by simp [Server.idle]) outsiders ran
  refine ⟨still.alike, fun job member admin => ?_⟩
  obtain ⟨looked, -, refused⟩ := turned job member ⟨admin, strangers job member⟩
  refine ⟨looked, fun reply answered => ?_⟩
  obtain ⟨e, failed, -⟩ := refused _ answered
  cases failed

/-! ## A client tries -/

def grabRequest : HttpRequest :=
  { issueRequest (some ["admin"]) with headers := keyHeader "syn_k_s" }

theorem sealed_client : Sealed 7 keyedState.accounts keyedState where
  required := rfl
  filled := by decide
  present := by decide
  unfit keyId row found := by
    have stored : row = clientRow := List.mem_singleton.mp (Table.find_eq_some.mp found).1
    rw [stored]
    exact Or.inl (by decide)
  alike := Alike.refl _
  clocks _ := le_refl 7

instance (headers : Headers) : Decidable (Strange rootGate headers) :=
  decidable_of_iff (∀ presented ∈ presentedKey headers, presented ∉ rootGate.apiKeys) Iff.rfl

/-- With a key that may read, a client asks for one that may do more. -/
theorem no_escalation_client :
    ∃ final, execOf rootGate (Server.idle keyedState)
        (.arrive grabRequest :: List.replicate 4 (.step 0)) = some final ∧
      Alike keyedState.accounts final.state.accounts ∧
      ∃ job ∈ final.jobs, job.reply.isSome = true ∧ ∀ reply, job.reply ≠ some (.ok reply) := by
  have shown : (execOf rootGate (Server.idle keyedState)
      (.arrive grabRequest :: List.replicate 4 (.step 0))).map (fun final =>
        final.jobs.any fun job => job.reply.isSome &&
          decide (job.ticket.origin.route.scope = .admin)) = some true := by
    decide +kernel
  obtain ⟨final, ran, seen⟩ := Option.map_eq_some_iff.mp shown
  obtain ⟨job, member, seen⟩ := List.any_eq_true.mp seen
  rw [Bool.and_eq_true, decide_eq_true_eq] at seen
  have outsiders : Run.Meets (stepOf rootGate) (Outsiders rootGate 7) (Server.idle keyedState)
      (.arrive grabRequest :: List.replicate 4 (.step 0)) := by
    have strange : Strange rootGate grabRequest.headers := by decide +kernel
    refine ⟨strange, fun next _ => ?_⟩
    exact ⟨trivial, fun _ _ => ⟨trivial, fun _ _ => ⟨trivial, fun _ _ => ⟨trivial, fun _ _ =>
      trivial⟩⟩⟩⟩
  obtain ⟨alike, turned⟩ := no_escalation rootGate keyedState 7 sealed_client _ final outsiders ran
  exact ⟨final, ran, alike, job, member, seen.1, (turned job member seen.2).2⟩

end Api

end Syntra

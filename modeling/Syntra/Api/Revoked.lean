import Syntra.Api.Closed

/-!
# Revoked for good

Once `revoke_key` has answered that a key is revoked, no request that arrives later gets in
with it, whatever else is running and however often the engine is started again.
-/

set_option autoImplicit false

namespace Syntra

namespace Api

open Program Tenancy

variable {D : DataPlane}

def Gone (keyId : String) (state : ApiState D) : Prop :=
  ∃ row, state.accounts.keys.find keyId = some row ∧ row.revokedAtMs.isSome = true

theorem Gone.carried {keyId : String} {state later : ApiState D} (gone : Gone keyId state)
    (carried : Carried state.accounts later.accounts) : Gone keyId later := by
  obtain ⟨row, found, revoked⟩ := gone
  obtain ⟨still, there, carries⟩ := carried keyId row found
  exact ⟨still, there, by rw [carries.revoked revoked]; exact revoked⟩

theorem gone_of_revoked {state : ApiState D} {nowMs : Int} {keyId : String} {n : Nat}
    (revoked : (state.perform (.accounts (.revokeKey nowMs keyId))).1 = .ok n) (some_row : 0 < n) :
    Gone keyId (state.perform (.accounts (.revokeKey nowMs keyId))).2 := by
  obtain ⟨answered, executed⟩ := perform_answer revoked
  have counted : state.accounts.keys.rows.countP
      (fun row => row.keyId = keyId && row.revokedAtMs.isNone) = n := Except.ok.inj answered
  obtain ⟨row, member, chosen⟩ := List.countP_pos_iff.mp (counted.symm ▸ some_row)
  simp only [Bool.and_eq_true, decide_eq_true_eq] at chosen
  have found : state.accounts.keys.find keyId = some row :=
    Table.find_eq_some.mpr ⟨member, congrArg some chosen.1⟩
  unfold Gone
  rw [executed]
  refine ⟨row.revokedAt nowMs, ?_, ?_⟩
  · refine (Table.find_modify state.accounts.keys keyId (KeyRow.revokedAt nowMs)
      (fun row => congrArg some (row.keyId_revokedAt nowMs)) keyId).trans ?_
    rw [if_pos rfl, found]
    rfl
  · simp [KeyRow.revokedAt, chosen.2]

/-! ## Revoking -/

/-- A key is said to be revoked once its row is. -/
def revoking (gate : Gate) : ApiContract (D := D) gate fun _ _ => True where
  inv _ := True
  holds state _ seen := ∀ keyId, HasRevoked keyId seen → Gone keyId state
  allows _ := marksStored
  post _ := Backed
  arrives server origin _ _ := by
    refine ⟨?_, serve_backed gate origin⟩
    rintro keyId ⟨nowMs, n, none, -⟩
    cases none
  calls state ticket seen asked _ relies _ := by
    have kept : ∀ keyId, Gone keyId state → Gone keyId (state.perform asked).2 :=
      fun keyId gone => gone.carried (perform_carried state asked)
    refine ⟨trivial, ?_, fun other told others keyId revoked => kept keyId (others keyId revoked)⟩
    rintro keyId ⟨nowMs, n, member, some_row⟩
    rcases List.mem_cons.mp member with new | before
    · obtain ⟨rfl, answered⟩ := Sigma.mk.inj new
      exact gone_of_revoked (eq_of_heq answered).symm some_row
    · exact kept keyId (relies keyId ⟨nowMs, n, before, some_row⟩)
  restarts server outside _ _ := by
    refine ⟨trivial, fun ticket seen relies keyId revoked => ?_⟩
    exact (relies keyId revoked).carried (boot_carried gate outside server.state)

theorem gone_of_answered {gate : Gate} {state : ApiState D} {moves : List ApiMove}
    {final : ApiServer D} (ran : execOf gate (Server.idle state) moves = some final)
    {job : ApiJob D} (member : job ∈ final.jobs) {keyId : String}
    (revoked : job.reply = some (.ok (.revoked keyId))) : Gone keyId final.state := by
  obtain ⟨-, sound⟩ := (revoking gate).run (Server.idle state) final moves trivial
    (by simp [Server.idle]) (Run.meets_true _ moves) ran
  exact (sound job member).relies keyId ((sound job member).answered revoked)

/-! ## Who comes with the key -/

/-- The key that the request comes with, which is none of the configured ones. -/
def Presents (gate : Gate) (headers : Headers) (keyId : String) : Prop :=
  ∃ presented secret, presentedKey headers = some presented ∧ presented ∉ gate.apiKeys ∧
    splitPresentedKey presented = some (keyId, secret)

def FoundLive (keyId : String) (entry : Entry D) : Prop :=
  ∃ row, entry = ⟨.accounts (.findKey keyId), .ok (some row)⟩ ∧ row.revokedAtMs = none

theorem Credential.live {gate : Gate} {headers : Headers} {keyId : String} {seen : Seen D}
    {ctx : Tenancy.TenantContext} (presents : Presents gate headers keyId)
    (credential : Credential gate headers seen ctx) : Found (FoundLive keyId) seen := by
  obtain ⟨presented, secret, shown, strange, parts⟩ := presents
  cases credential with
  | configured shown' known =>
      rw [shown] at shown'
      cases shown'
      exact absurd known strange
  | anonymous unshown =>
      rw [shown] at unshown
      cases unshown
  | key shown' _ parts' _ found _ usable =>
      rw [shown] at shown'
      cases shown'
      rw [parts] at parts'
      cases parts'
      rw [ApiKeyRecord.usableAt, Bool.and_eq_true, Option.isNone_iff_eq_none] at usable
      exact ⟨_, found, _, rfl, usable.1⟩

/-- While the key is gone, its row is not found unrevoked. -/
def barring (gate : Gate) (keyId : String) (count : Nat) : Bar (D := D) gate fun _ _ => True where
  inv := Gone keyId
  barred ticket := count ≤ ticket.number ∧ Presents gate ticket.origin.headers keyId
  evidence := FoundLive keyId
  mayCall _ := True
  looks _ _ := trivial
  needed ticket seen ctx late credential _ := credential.live late.2
  free _ _ _ _ := safe_any _ fun _ _ => trivial
  denied state asked gone := by
    rintro ⟨row, same, live⟩
    obtain ⟨rfl, answered⟩ := Sigma.mk.inj same
    obtain ⟨old, found, revoked⟩ := gone
    have read : (state.accounts.execute (.findKey keyId)).1 = .ok (some row) :=
      (perform_answer (eq_of_heq answered)).1
    simp only [Tenancy.Accounts.execute, found, Except.ok.injEq, Option.some.injEq] at read
    rw [read, live] at revoked
    cases revoked
  calls state asked gone _ := gone.carried (perform_carried state asked)
  restarts server outside gone _ := gone.carried (boot_carried gate outside server.state)

/-- Once a request has been answered that a key is revoked, every request that arrives later
with the key makes no call but the gate's own and is answered with 401, or with 500 when the
database fails it. -/
theorem revoked_stays_out (gate : Gate) (state : ApiState D) (before after : List ApiMove)
    (middle final : ApiServer D) (ran : execOf gate (Server.idle state) before = some middle)
    (revoker : ApiJob D) (member : revoker ∈ middle.jobs) (keyId : String)
    (revoked : revoker.reply = some (.ok (.revoked keyId)))
    (went : execOf gate middle after = some final)
    (late : ApiJob D) (present : late ∈ final.jobs)
    (arrived : middle.jobs.length ≤ late.ticket.number)
    (presents : Presents gate late.ticket.origin.headers keyId) :
    (∀ entry ∈ late.seen, Looks entry.1) ∧
      ∀ value, late.reply = some value →
        value = .error invalidCredential ∨ ∃ message, value = .error (.internal message) := by
  have numbered := Server.numbered_exec (Server.numbered_idle state) ran
  have early : ∀ job ∈ middle.jobs,
      ¬ (barring (D := D) gate keyId middle.jobs.length).barred job.ticket ∧
      ∀ program, job.rest = some program →
        program.Safe (.seen fun _ _ => True) (fun _ _ => True) job.seen := by
    intro job there
    refine ⟨fun barred => ?_, fun program _ => safe_any _ fun _ _ => trivial⟩
    exact absurd (early_of_numbered numbered there) (Nat.not_lt.mpr barred.1)
  obtain ⟨-, turned⟩ := (barring gate keyId middle.jobs.length).run middle final after
    (gone_of_answered ran member revoked) early (Run.meets_true _ after) went
  obtain ⟨looked, unfound, refused⟩ := turned late present ⟨arrived, presents⟩
  refine ⟨looked, fun value answered => ?_⟩
  obtain ⟨presented, secret, shown, -, -⟩ := id presents
  obtain ⟨e, rfl, refusal | ⟨-, ctx, credential⟩⟩ := refused value answered
  · cases refusal with
    | missing unshown =>
        rw [shown] at unshown
        cases unshown
    | invalid => exact Or.inl rfl
    | failed _ message => exact Or.inr ⟨message, rfl⟩
  · exact absurd (credential.live presents) unfound

/-! ## A key is revoked -/

def rootGate : Gate := { libraries := tabulated, apiKeys := ["root"] }

def keyHeader (key : String) : Headers := [("x-api-key", Text.utf8 key)]

def clientRow : KeyRow :=
  { keyId := "k", tenantId := defaultTenantId, name := "ci", keyHash := hashSecret tabulated "s"
    scopes := "read", expiresAtMs := none, revokedAtMs := none, lastUsedAtMs := none
    createdAtMs := 1 }

def keyedState : ApiState still :=
  { openState with
    accounts :=
      { openState.accounts with keys := { rows := [clientRow], unique := by simp } }
    authRequired := true }

def revokeRequest : HttpRequest :=
  { route := .admin (.revokeKey "k"), headers := keyHeader "root", body := [] }

def clientRequest : HttpRequest :=
  { route := .data .codecs, headers := keyHeader "syn_k_s", body := [] }

def answersRevoked (keyId : String) (job : ApiJob still) : Bool :=
  match job.reply with
  | some (.ok (.revoked gone)) => gone == keyId
  | _ => false

def answersError (e : ApiError) (job : ApiJob still) : Bool :=
  match job.reply with
  | some (.error other) => other == e
  | _ => false

def answersData (job : ApiJob still) : Bool :=
  match job.reply with
  | some (.ok (.data _)) => true
  | _ => false

/-- The key gets in until it is revoked, and not after a restart either. -/
theorem revoked_stays_out_restarted :
    ∃ middle final late,
      execOf rootGate (Server.idle keyedState)
        (.arrive clientRequest :: List.replicate 4 (.step 0) ++
          .arrive revokeRequest :: List.replicate 4 (.step 1)) = some middle ∧
      middle.jobs[0]?.map answersData = some true ∧
      execOf rootGate middle [.restart fun _ => quietOutside, .arrive clientRequest, .step 2,
        .step 2] = some final ∧
      final.jobs[2]? = some late ∧ late.reply = some (.error invalidCredential) := by
  have shown : (execOf rootGate (Server.idle keyedState)
      (.arrive clientRequest :: List.replicate 4 (.step 0) ++
        .arrive revokeRequest :: List.replicate 4 (.step 1))).map (fun middle =>
        (middle.jobs[0]?.map answersData == some true && middle.jobs.any (answersRevoked "k"),
          (execOf rootGate middle [.restart fun _ => quietOutside, .arrive clientRequest, .step 2,
            .step 2]).bind fun final => final.jobs[2]?.map fun late =>
              late.ticket.number == middle.jobs.length &&
                decide (late.ticket.origin.headers = keyHeader "syn_k_s") &&
                answersError invalidCredential late)) =
      some (true, some true) := by
    decide +kernel
  obtain ⟨middle, ran, seen⟩ := Option.map_eq_some_iff.mp shown
  rw [Prod.mk.injEq, Bool.and_eq_true, beq_iff_eq] at seen
  obtain ⟨⟨admitted, revoked⟩, later⟩ := seen
  obtain ⟨final, went, later⟩ := Option.bind_eq_some_iff.mp later
  obtain ⟨late, here, later⟩ := Option.map_eq_some_iff.mp later
  simp only [Bool.and_eq_true, beq_iff_eq, decide_eq_true_eq] at later
  obtain ⟨⟨number, headers⟩, denied⟩ := later
  obtain ⟨revoker, member, isRevoked⟩ := List.any_eq_true.mp revoked
  have replied : revoker.reply = some (.ok (.revoked "k")) := by
    unfold answersRevoked at isRevoked
    split at isRevoked
    · rename_i gone replied
      rw [replied, beq_iff_eq.mp isRevoked]
    · cases isRevoked
  have answered : late.reply = some (.error invalidCredential) := by
    unfold answersError at denied
    split at denied
    · rename_i e replied
      rw [replied, beq_iff_eq.mp denied]
    · cases denied
  have presents : Presents rootGate late.ticket.origin.headers "k" := by
    rw [headers]
    exact ⟨"syn_k_s", "s", by decide +kernel, by decide, by decide +kernel⟩
  have refused := (revoked_stays_out rootGate keyedState _ _ middle final ran revoker member "k"
    replied went late (List.mem_of_getElem? here) number.ge presents).2 _ answered
  refine ⟨middle, final, late, ran, admitted, went, here, ?_⟩
  rcases refused with same | ⟨message, same⟩
  · rw [answered, same]
  · rw [Except.error.injEq] at same
    cases same

end Api

end Syntra

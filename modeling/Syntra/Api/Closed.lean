import Syntra.Api.Handled

/-!
# Open until a key is issued

An engine without configured keys serves anybody.  Once `create_key` has answered with
a key, whoever comes without a credential is turned away, whatever else is running and
however often the engine is started again, as long as each start can count the keys.
-/

set_option autoImplicit false

namespace Syntra

namespace Api

open Program Tenancy

variable {D : DataPlane}

def CountsKeys (gate : Gate) (server : ApiServer D) : ApiMove → Prop
  | .restart outside => Counts gate outside server.state
  | .arrive _ | .step _ => True

instance (gate : Gate) (server : ApiServer D) (move : ApiMove) :
    Decidable (CountsKeys gate server move) :=
  match move with
  | .restart outside => inferInstanceAs (Decidable (Counts gate outside server.state))
  | .arrive _ | .step _ => .isTrue trivial

/-! ## Closed engines -/

/-- There is a key, and a credential is asked for. -/
structure Closed (state : ApiState D) : Prop where
  filled : state.accounts.keys.rows ≠ []
  required : state.authRequired = true

theorem Closed.perform {state : ApiState D} (closed : Closed state) (asked : ApiCall D) :
    Closed (state.perform asked).2 :=
  ⟨(perform_carried state asked).filled closed.filled, perform_required closed.required asked⟩

theorem Closed.boot {gate : Gate} {outside : Nat → ApiOutside} {state : ApiState D}
    (closed : Closed state) (counts : Counts gate outside state) :
    Closed (boot gate outside state).2 :=
  ⟨(boot_carried gate outside state).filled closed.filled,
    boot_required counts closed.filled closed.required⟩

/-- What a request that stores a key may rely on. -/
structure Relies (state : ApiState D) (seen : Seen D) : Prop where
  stored : HasStored seen → state.accounts.keys.rows ≠ []
  marked : HasMarked seen → HasStored seen ∧ Closed state

theorem Relies.perform {state : ApiState D} {seen : Seen D} (relies : Relies state seen)
    (asked : ApiCall D) : Relies (state.perform asked).2 seen where
  stored stored := (perform_carried state asked).filled (relies.stored stored)
  marked marked := ⟨(relies.marked marked).1, (relies.marked marked).2.perform asked⟩

theorem Relies.advance {state : ApiState D} {seen : Seen D} (relies : Relies state seen)
    {asked : ApiCall D} (allowed : marksStored seen asked) :
    Relies (state.perform asked).2 (⟨asked, (state.perform asked).1⟩ :: seen) := by
  have kept := relies.perform asked
  constructor
  · rintro ⟨row, member⟩
    rcases List.mem_cons.mp member with new | before
    · obtain ⟨rfl, answered⟩ := Sigma.mk.inj new
      exact perform_insertKey (eq_of_heq answered).symm
    · exact kept.stored ⟨row, before⟩
  · rintro ⟨answer, member⟩
    rcases List.mem_cons.mp member with new | before
    · obtain ⟨rfl, -⟩ := Sigma.mk.inj new
      have stored := allowed rfl
      refine ⟨?_, kept.stored stored, perform_mark state⟩
      obtain ⟨row, there⟩ := stored
      exact ⟨row, List.mem_cons_of_mem _ there⟩
    · obtain ⟨⟨row, there⟩, closed⟩ := kept.marked ⟨answer, before⟩
      exact ⟨⟨row, List.mem_cons_of_mem _ there⟩, closed⟩

/-- A key is answered with after its row and the mark. -/
def issuing (gate : Gate) : ApiContract (D := D) gate (CountsKeys gate) where
  inv _ := True
  holds state _ seen := Relies state seen
  allows _ := marksStored
  post _ := Backed
  arrives server origin _ _ := by
    refine ⟨⟨?_, ?_⟩, serve_backed gate origin⟩
    · rintro ⟨row, none⟩
      cases none
    · rintro ⟨answer, none⟩
      cases none
  calls state ticket seen asked _ relies allowed :=
    ⟨trivial, relies.advance allowed, fun _ _ others => others.perform asked⟩
  restarts server outside _ counted := by
    refine ⟨trivial, fun ticket seen relies => ⟨?_, ?_⟩⟩
    · intro stored
      exact (boot_carried gate outside server.state).filled (relies.stored stored)
    · intro marked
      obtain ⟨stored, closed⟩ := relies.marked marked
      exact ⟨stored, closed.boot counted⟩

theorem closed_of_issued {gate : Gate} {state : ApiState D} {moves : List ApiMove}
    {final : ApiServer D} (ran : execOf gate (Server.idle state) moves = some final)
    (counts : Run.Meets (stepOf gate) (CountsKeys gate) (Server.idle state) moves)
    {job : ApiJob D} (member : job ∈ final.jobs) {key : IssuedKeyView}
    (issued : job.reply = some (.ok (.issued key))) : Closed final.state := by
  obtain ⟨-, sound⟩ := (issuing gate).run (Server.idle state) final moves trivial
    (by simp [Server.idle]) counts ran
  obtain ⟨answer, marked⟩ := (sound job member).answered issued
  exact ((sound job member).relies.marked ⟨answer, marked⟩).2

/-! ## Who comes without a credential -/

/-- While the engine is closed, nobody is told that no credential is needed. -/
def closing (gate : Gate) (count : Nat) : Bar (D := D) gate (CountsKeys gate) where
  inv := Closed
  barred ticket := count ≤ ticket.number ∧ presentedKey ticket.origin.headers = none
  evidence entry := entry = ⟨.authRequired, false⟩
  mayCall _ := True
  looks _ _ := trivial
  needed ticket seen ctx late credential _ := ⟨_, credential.unlocked late.2, rfl⟩
  free _ _ _ _ := safe_any _ fun _ _ => trivial
  denied state asked closed told := by
    obtain ⟨rfl, answered⟩ := Sigma.mk.inj told
    have required : state.authRequired = false := eq_of_heq answered
    rw [closed.required] at required
    cases required
  calls state asked closed _ := closed.perform asked
  restarts server outside closed counted := closed.boot counted

/-- Once a request has been answered with a new key, every request that arrives later without
a credential makes no call but the gate's own and is answered with 401. -/
theorem issued_closes (gate : Gate) (state : ApiState D) (before after : List ApiMove)
    (middle final : ApiServer D) (ran : execOf gate (Server.idle state) before = some middle)
    (counted : Run.Meets (stepOf gate) (CountsKeys gate) (Server.idle state) before)
    (issuer : ApiJob D) (member : issuer ∈ middle.jobs) (key : IssuedKeyView)
    (issued : issuer.reply = some (.ok (.issued key)))
    (went : execOf gate middle after = some final)
    (counts : Run.Meets (stepOf gate) (CountsKeys gate) middle after)
    (late : ApiJob D) (present : late ∈ final.jobs)
    (arrived : middle.jobs.length ≤ late.ticket.number)
    (keyless : presentedKey late.ticket.origin.headers = none) :
    (∀ entry ∈ late.seen, Looks entry.1) ∧
      ∀ value, late.reply = some value → value = .error missingCredential := by
  have numbered := Server.numbered_exec (Server.numbered_idle state) ran
  have early : ∀ job ∈ middle.jobs, ¬ (closing (D := D) gate middle.jobs.length).barred job.ticket ∧
      ∀ program, job.rest = some program →
        program.Safe (.seen fun _ _ => True) (fun _ _ => True) job.seen := by
    intro job there
    refine ⟨fun barred => ?_, fun program _ => safe_any _ fun _ _ => trivial⟩
    exact absurd (early_of_numbered numbered there) (Nat.not_lt.mpr barred.1)
  obtain ⟨-, turned⟩ := (closing gate middle.jobs.length).run middle final after
    (closed_of_issued ran counted member issued) early counts went
  obtain ⟨looked, untold, refused⟩ := turned late present ⟨arrived, keyless⟩
  refine ⟨looked, fun value answered => ?_⟩
  obtain ⟨e, rfl, refusal | ⟨-, ctx, credential⟩⟩ := refused value answered
  · exact congrArg Except.error (refusal.keyless keyless)
  · exact absurd ⟨_, credential.unlocked keyless, rfl⟩ untold

/-! ## A key is issued -/

def still : DataPlane where
  State := Unit
  Call := Empty
  Answer _ := Unit
  perform state _ := ((), state)
  reopen state := state
  Reply := Unit
  handle _ _ _ _ := .done (.ok ())

def openGate : Gate := { libraries := tabulated, apiKeys := [] }

def quietOutside : ApiOutside := { fault := none, clock := 7, uuid := someUuid }

def defaultRow : TenantRow :=
  { id := defaultTenantId, name := "Tenant padrão", plan := "savings_share"
    priceConfig := priceText, active := 1, createdAtMs := 1 }

def openState : ApiState still where
  accounts :=
    { tenants := { rows := [defaultRow], unique := by simp }, keys := Table.empty }
  authRequired := false
  defaultTenant := defaultRow.intoTenant tabulated
  data := ()
  outside _ := quietOutside

def issueRequest (scopes : Option (List String)) : HttpRequest :=
  { route := .admin (.createKey defaultTenantId { name := none, scopes, expiresInDays := none })
    headers := []
    body := [] }

def keylessRequest : HttpRequest :=
  { route := .admin .listTenants, headers := [], body := [] }

def answersKey (job : ApiJob still) : Bool :=
  match job.reply with
  | some (.ok (.issued _)) => true
  | _ => false

/-- Anybody may issue the first key, and after a restart nobody without one comes in. -/
theorem issued_closes_restarted :
    ∃ middle final late,
      execOf openGate (Server.idle openState)
        (.arrive (issueRequest none) :: List.replicate 10 (.step 0)) = some middle ∧
      execOf openGate middle [.restart fun _ => quietOutside, .arrive keylessRequest, .step 1,
        .step 1] = some final ∧
      final.jobs[1]? = some late ∧ late.reply = some (.error missingCredential) := by
  have shown : (execOf openGate (Server.idle openState)
      (.arrive (issueRequest none) :: List.replicate 10 (.step 0))).map (fun middle =>
        (middle.jobs.any answersKey && decide (Run.Meets (stepOf openGate) (CountsKeys openGate)
            middle [.restart fun _ => quietOutside, .arrive keylessRequest, .step 1, .step 1]),
          (execOf openGate middle [.restart fun _ => quietOutside, .arrive keylessRequest, .step 1,
            .step 1]).bind fun final => final.jobs[1]?.map fun late =>
              late.ticket.number == middle.jobs.length &&
                (presentedKey late.ticket.origin.headers).isNone && late.reply.isSome)) =
      some (true, some true) := by
    decide +kernel
  obtain ⟨middle, ran, seen⟩ := Option.map_eq_some_iff.mp shown
  rw [Prod.mk.injEq, Bool.and_eq_true, decide_eq_true_eq] at seen
  obtain ⟨⟨issued, counts⟩, later⟩ := seen
  obtain ⟨final, went, later⟩ := Option.bind_eq_some_iff.mp later
  obtain ⟨late, here, later⟩ := Option.map_eq_some_iff.mp later
  simp only [Bool.and_eq_true, beq_iff_eq, Option.isNone_iff_eq_none,
    Option.isSome_iff_exists] at later
  obtain ⟨⟨number, keyless⟩, value, answered⟩ := later
  obtain ⟨issuer, member, isKey⟩ := List.any_eq_true.mp issued
  obtain ⟨key, replied⟩ : ∃ key, issuer.reply = some (.ok (.issued key)) := by
    unfold answersKey at isKey
    split at isKey
    · rename_i key replied
      exact ⟨key, replied⟩
    · cases isKey
  have refused := (issued_closes openGate openState _ _ middle final ran (by decide +kernel) issuer
    member key replied went counts late (List.mem_of_getElem? here) number.ge keyless).2 value
    answered
  exact ⟨middle, final, late, ran, went, here, refused ▸ answered⟩

end Api

end Syntra

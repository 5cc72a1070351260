import Syntra.Api.Tables

/-!
# Requests that are turned away

When a request can only be let in on evidence that the engine no longer gives, it makes no
call but the gate's own and is answered with an error, whatever else is running.
-/

set_option autoImplicit false

namespace Syntra

namespace Api

open Program Tenancy

variable {D : DataPlane}

abbrev ApiServer (D : DataPlane) :=
  Server (ApiState D) HttpRequest (ApiCall D) (ApiCall.Answer D) (Except ApiError (Reply D))

abbrev ApiJob (D : DataPlane) :=
  Job HttpRequest (ApiCall D) (ApiCall.Answer D) (Except ApiError (Reply D))

/-- A restart comes with the outside from then on. -/
abbrev ApiMove := Server.Move HttpRequest (Nat → ApiOutside)

abbrev stepOf (gate : Gate) (server : ApiServer D) (move : ApiMove) : Option (ApiServer D) :=
  server.step ApiState.perform (serve gate) (boot gate) move

abbrev execOf (gate : Gate) (server : ApiServer D) (moves : List ApiMove) :
    Option (ApiServer D) :=
  server.exec ApiState.perform (serve gate) (boot gate) moves

abbrev ApiContract (gate : Gate) (guard : ApiServer D → ApiMove → Prop) :=
  Server.Contract (α := Except ApiError (Reply D)) ApiState.perform (serve gate) (boot gate) guard

def Found (evidence : Entry D → Prop) (seen : Seen D) : Prop := ∃ entry ∈ seen, evidence entry

/-- An error of the gate, or of the scope of the route. -/
def TurnedAway (gate : Gate) (headers : Headers) (seen : Seen D)
    (value : Except ApiError (Reply D)) : Prop :=
  ∃ e, value = .error e ∧
    (Refusal headers e ∨ e.status = 403 ∧ ∃ ctx, Credential gate headers seen ctx)

/-- Which requests are turned away, and why: their credentials would need evidence that no
call gives. -/
structure Bar (gate : Gate) (guard : ApiServer D → ApiMove → Prop) where
  inv : ApiState D → Prop
  barred : Ticket HttpRequest → Prop
  evidence : Entry D → Prop
  /-- What the other requests may call. -/
  mayCall : ApiCall D → Prop
  looks : ∀ asked, Looks asked → mayCall asked
  needed : ∀ ticket seen ctx, barred ticket → Credential gate ticket.origin.headers seen ctx →
    has ctx ticket.origin.route.scope = true → Found evidence seen
  free : ∀ (server : ApiServer D) origin, guard server (.arrive origin) →
    ¬ barred ⟨server.jobs.length, origin⟩ →
    (serve gate origin : Action D (Reply D)).Safe (.seen fun _ asked => mayCall asked)
      (fun _ _ => True) []
  denied : ∀ state asked, inv state → ¬ evidence ⟨asked, (state.perform asked).1⟩
  calls : ∀ state asked, inv state → mayCall asked → inv (state.perform asked).2
  restarts : ∀ server outside, inv server.state → guard server (.restart outside) →
    inv (boot gate outside server.state).2

namespace Bar

variable {gate : Gate} {guard : ApiServer D → ApiMove → Prop} (bar : Bar gate guard)

/-- A barred request only looks until it has the evidence. -/
def allows (ticket : Ticket HttpRequest) (seen : Seen D) (asked : ApiCall D) : Prop :=
  (bar.barred ticket → Looks asked ∨ Found bar.evidence seen) ∧
    (¬ bar.barred ticket → bar.mayCall asked)

def answers (ticket : Ticket HttpRequest) (seen : Seen D) (value : Except ApiError (Reply D)) :
    Prop :=
  bar.barred ticket → TurnedAway gate ticket.origin.headers seen value ∨ Found bar.evidence seen

theorem serve_barred {ticket : Ticket HttpRequest} (barred : bar.barred ticket) :
    (serve gate ticket.origin : Action D (Reply D)).Safe (.seen (bar.allows ticket))
      (bar.answers ticket) [] := by
  apply serve_safe
  · intro seen asked looks
    exact ⟨fun _ => Or.inl looks, fun other => absurd barred other⟩
  · intro seen e refusal _
    exact Or.inl ⟨e, rfl, Or.inl refusal⟩
  · intro seen ctx e credential _ status _
    exact Or.inl ⟨e, rfl, Or.inr ⟨status, ctx, credential⟩⟩
  · intro seen ctx credential inScope
    apply safe_seen _ _ _ (bar.needed ticket seen ctx barred credential inScope)
    · intro later asked found
      exact ⟨fun _ => Or.inr found, fun other => absurd barred other⟩
    · intro later value found _
      exact Or.inr found

theorem safe_free {ticket : Ticket HttpRequest} (other : ¬ bar.barred ticket)
    {program : Action D (Reply D)} {seen : Seen D}
    (safe : program.Safe (.seen fun _ asked => bar.mayCall asked) (fun _ _ => True) seen) :
    program.Safe (.seen (bar.allows ticket)) (bar.answers ticket) seen := by
  refine (Safe.allow safe ?_).imp fun later value _ barred => absurd barred other
  intro later asked may
  exact ⟨fun barred => absurd barred other, fun _ => may⟩

def contract : ApiContract gate guard where
  inv := bar.inv
  holds _ ticket seen := bar.barred ticket →
    ¬ Found bar.evidence seen ∧ ∀ entry ∈ seen, Looks entry.1
  allows := bar.allows
  post := bar.answers
  arrives server origin _ allowed := by
    refine ⟨fun _ => ⟨?_, ?_⟩, ?_⟩
    · rintro ⟨entry, none, -⟩
      cases none
    · intro entry none
      cases none
    · by_cases barred : bar.barred ⟨server.jobs.length, origin⟩
      · exact bar.serve_barred barred
      · exact bar.safe_free barred (bar.free server origin allowed barred)
  calls state ticket seen asked held relies allowed := by
    have may : bar.mayCall asked := by
      by_cases barred : bar.barred ticket
      · exact bar.looks asked ((allowed.1 barred).resolve_right (relies barred).1)
      · exact allowed.2 barred
    refine ⟨bar.calls state asked held may, fun barred => ⟨?_, ?_⟩, fun _ _ others => others⟩
    · rintro ⟨entry, member, evident⟩
      rcases List.mem_cons.mp member with rfl | before
      · exact bar.denied state asked held evident
      · exact (relies barred).1 ⟨entry, before, evident⟩
    · intro entry member
      rcases List.mem_cons.mp member with rfl | before
      · exact (allowed.1 barred).resolve_right (relies barred).1
      · exact (relies barred).2 entry before
  restarts server outside held allowed :=
    ⟨bar.restarts server outside held allowed, fun _ _ relies => relies⟩

/-- The barred requests of a run, when none has come before it. -/
theorem run (server final : ApiServer D) (moves : List ApiMove) (start : bar.inv server.state)
    (others : ∀ job ∈ server.jobs, ¬ bar.barred job.ticket ∧
      ∀ program, job.rest = some program →
        program.Safe (.seen fun _ asked => bar.mayCall asked) (fun _ _ => True) job.seen)
    (meets : Run.Meets (stepOf gate) guard server moves)
    (ran : execOf gate server moves = some final) :
    bar.inv final.state ∧ ∀ job ∈ final.jobs, bar.barred job.ticket →
      (∀ entry ∈ job.seen, Looks entry.1) ∧ ¬ Found bar.evidence job.seen ∧
      ∀ value, job.reply = some value →
        TurnedAway gate job.ticket.origin.headers job.seen value := by
  have all : ∀ job ∈ server.jobs, bar.contract.Sound server.state job := by
    intro job member
    obtain ⟨other, safe⟩ := others job member
    exact ⟨fun barred => absurd barred other, fun program left =>
      bar.safe_free other (safe program left)⟩
  obtain ⟨held, sound⟩ := bar.contract.run server final moves start all meets ran
  refine ⟨held, fun job member barred => ?_⟩
  obtain ⟨unfound, looked⟩ := (sound job member).relies barred
  refine ⟨looked, unfound, fun value answered => ?_⟩
  exact ((sound job member).answered answered barred).resolve_right unfound

end Bar

theorem early_of_numbered {server : ApiServer D} (numbered : server.Numbered) {job : ApiJob D}
    (member : job ∈ server.jobs) : job.ticket.number < server.jobs.length := by
  obtain ⟨index, here⟩ := List.getElem?_of_mem member
  rw [numbered index job here]
  exact (List.getElem?_eq_some_iff.mp here).1

end Api

end Syntra

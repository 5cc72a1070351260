import Syntra.Lib.Program
import Syntra.Lib.Run

/-!
# Servers

A server runs the programs of requests that arrive at any time, one call of one
of them after the other, in any order.  A restart loses the requests that are
not answered yet; one that fails leaves the server down until the next.

A `Contract` says what holds along every run: each request may rely on what it has
seen, as far as no call of another takes it away.
-/

set_option autoImplicit false

universe u v w x y

/-- A request that has arrived, by its number. -/
structure Ticket (κ : Type x) where
  number : Nat
  origin : κ

structure Job (κ : Type x) (request : Type u) (answer : request → Type v) (α : Type w) where
  ticket : Ticket κ
  /-- What is left to do, unless a restart has lost it. -/
  rest : Option (Program request answer α)
  /-- The calls made so far with their answers, the last first. -/
  seen : List ((asked : request) × answer asked)

structure Server (σ : Type y) (κ : Type x) (request : Type u) (answer : request → Type v)
    (α : Type w) where
  state : σ
  up : Bool
  jobs : List (Job κ request answer α)

namespace Job

variable {κ : Type x} {request : Type u} {answer : request → Type v} {α : Type w} {σ : Type y}

def reply (job : Job κ request answer α) : Option α :=
  match job.rest with
  | some (.done value) => some value
  | _ => none

def lose (job : Job κ request answer α) : Job κ request answer α :=
  match job.rest with
  | some (.done _) => job
  | _ => { job with rest := none }

def step (perform : σ → (asked : request) → answer asked × σ) (state : σ)
    (job : Job κ request answer α) : Option (σ × Job κ request answer α) :=
  match job.rest with
  | some (.call asked next) =>
    let (reply, state) := perform state asked
    some (state, { job with rest := some (next reply), seen := ⟨asked, reply⟩ :: job.seen })
  | _ => none

variable {perform : σ → (asked : request) → answer asked × σ}

theorem step_eq_some {state state' : σ} {job job' : Job κ request answer α}
    (taken : job.step perform state = some (state', job')) :
    ∃ asked next, job.rest = some (.call asked next) ∧ state' = (perform state asked).2 ∧
      job' = { job with
        rest := some (next (perform state asked).1)
        seen := ⟨asked, (perform state asked).1⟩ :: job.seen } := by
  unfold step at taken
  split at taken
  · rename_i asked next shape
    simp only [Option.some.injEq, Prod.mk.injEq] at taken
    exact ⟨asked, next, shape, taken.1.symm, taken.2.symm⟩
  · cases taken

theorem rest_of_reply {job : Job κ request answer α} {value : α}
    (answered : job.reply = some value) : job.rest = some (.done value) := by
  unfold reply at answered
  split at answered
  · rename_i value' shape
    rw [shape, Option.some.inj answered]
  · cases answered

@[simp] theorem ticket_lose (job : Job κ request answer α) : job.lose.ticket = job.ticket := by
  unfold lose
  split <;> rfl

@[simp] theorem seen_lose (job : Job κ request answer α) : job.lose.seen = job.seen := by
  unfold lose
  split <;> rfl

theorem rest_lose {job : Job κ request answer α} {program : Program request answer α}
    (left : job.lose.rest = some program) : job.rest = some program := by
  unfold lose at left
  split at left
  · exact left
  · cases left

end Job

namespace Server

variable {κ : Type x} {request : Type u} {answer : request → Type v} {α : Type w} {σ : Type y}
  {ρ : Type}

inductive Move (κ : Type x) (ρ : Type) where
  | arrive (origin : κ)
  | step (index : Nat)
  | restart (how : ρ)

variable (perform : σ → (asked : request) → answer asked × σ)
  (serve : κ → Program request answer α) (boot : ρ → σ → Bool × σ)

def step (server : Server σ κ request answer α) : Move κ ρ → Option (Server σ κ request answer α)
  | .arrive origin =>
    if server.up then
      some { server with
        jobs := server.jobs ++
          [{ ticket := ⟨server.jobs.length, origin⟩, rest := some (serve origin), seen := [] }] }
    else none
  | .step index =>
    if server.up then
      (server.jobs[index]?).bind fun job =>
        (job.step perform server.state).map fun moved =>
          { server with state := moved.1, jobs := server.jobs.set index moved.2 }
    else none
  | .restart how =>
    let (up, state) := boot how server.state
    some { state, up, jobs := server.jobs.map Job.lose }

abbrev exec (server : Server σ κ request answer α) (moves : List (Move κ ρ)) :
    Option (Server σ κ request answer α) :=
  Run.exec (step perform serve boot) server moves

def idle (state : σ) : Server σ κ request answer α := { state, up := true, jobs := [] }

variable {perform serve boot}

/-- What a move does: a request arrives, makes one call, or is lost in a restart. -/
theorem step_cases {server next : Server σ κ request answer α} {move : Move κ ρ}
    (taken : server.step perform serve boot move = some next) :
    (∃ origin, move = .arrive origin ∧ next = { server with
      jobs := server.jobs ++
        [{ ticket := ⟨server.jobs.length, origin⟩, rest := some (serve origin), seen := [] }] }) ∨
    (∃ index job asked rest, move = .step index ∧ server.jobs[index]? = some job ∧
      job.rest = some (.call asked rest) ∧ next = { server with
        state := (perform server.state asked).2
        jobs := server.jobs.set index { job with
          rest := some (rest (perform server.state asked).1)
          seen := ⟨asked, (perform server.state asked).1⟩ :: job.seen } }) ∨
    (∃ how, move = .restart how ∧ next =
      { state := (boot how server.state).2, up := (boot how server.state).1
        jobs := server.jobs.map Job.lose }) := by
  cases move with
  | arrive origin =>
      simp only [step, Option.ite_none_right_eq_some, Option.some.injEq] at taken
      exact Or.inl ⟨origin, rfl, taken.2.symm⟩
  | step index =>
      simp only [step, Option.ite_none_right_eq_some] at taken
      obtain ⟨job, present, taken⟩ := Option.bind_eq_some_iff.mp taken.2
      obtain ⟨⟨state, job'⟩, moved, rfl⟩ := Option.map_eq_some_iff.mp taken
      obtain ⟨asked, rest, shape, rfl, rfl⟩ := Job.step_eq_some moved
      exact Or.inr (Or.inl ⟨index, job, asked, rest, rfl, present, shape, rfl⟩)
  | restart how =>
      simp only [step, Option.some.injEq] at taken
      exact Or.inr (Or.inr ⟨how, rfl, taken.symm⟩)

/-! ## Numbers -/

def Numbered (server : Server σ κ request answer α) : Prop :=
  ∀ (index : Nat) (job : Job κ request answer α), server.jobs[index]? = some job →
    job.ticket.number = index

theorem numbered_step {server next : Server σ κ request answer α} {move : Move κ ρ}
    (numbered : server.Numbered) (taken : server.step perform serve boot move = some next) :
    next.Numbered := by
  intro place other here
  rcases step_cases taken with ⟨origin, -, rfl⟩ | ⟨index, job, asked, rest, -, present, -, rfl⟩ |
    ⟨how, -, rfl⟩
  · rw [List.getElem?_append] at here
    split at here
    · exact numbered place other here
    · rw [List.getElem?_singleton] at here
      split at here
      · cases here
        dsimp only
        omega
      · cases here
  · rw [List.getElem?_set] at here
    split at here
    · rename_i same
      split at here
      · cases here
        exact (numbered index job present).trans same
      · cases here
    · exact numbered place other here
  · rw [List.getElem?_map, Option.map_eq_some_iff] at here
    obtain ⟨before, present, rfl⟩ := here
    rw [Job.ticket_lose]
    exact numbered place before present

theorem numbered_exec {server final : Server σ κ request answer α} {moves : List (Move κ ρ)}
    (numbered : server.Numbered) (run : server.exec perform serve boot moves = some final) :
    final.Numbered :=
  Run.invariant (fun _ _ => True) Numbered (fun _ _ _ before _ => numbered_step before) server
    final moves numbered (Run.meets_true _ moves) run

theorem numbered_idle (state : σ) : (idle state : Server σ κ request answer α).Numbered := by
  intro index job here
  simp [idle] at here

/-- The requests of a run are ones that its condition lets arrive. -/
theorem origins_exec {guard : Server σ κ request answer α → Move κ ρ → Prop} {good : κ → Prop}
    (arrives : ∀ server origin, guard server (.arrive origin) → good origin)
    {server final : Server σ κ request answer α} {moves : List (Move κ ρ)}
    (before : ∀ job ∈ server.jobs, good job.ticket.origin)
    (meets : Run.Meets (step perform serve boot) guard server moves)
    (run : server.exec perform serve boot moves = some final) :
    ∀ job ∈ final.jobs, good job.ticket.origin := by
  refine Run.invariant guard (fun server => ∀ job ∈ server.jobs, good job.ticket.origin) ?_
    server final moves before meets run
  intro server move next all allowed taken job member
  rcases step_cases taken with ⟨origin, rfl, rfl⟩ | ⟨index, moved, asked, rest, -, present, -, rfl⟩ |
    ⟨how, -, rfl⟩
  · rcases List.mem_append.mp member with old | new
    · exact all job old
    · rw [List.mem_singleton.mp new]
      exact arrives server origin allowed
  · rcases List.mem_or_eq_of_mem_set member with old | rfl
    · exact all job old
    · exact all moved (List.mem_of_getElem? present)
  · obtain ⟨old, there, rfl⟩ := List.mem_map.mp member
    rw [Job.ticket_lose]
    exact all old there

/-! ## Causes -/

def Made (server : Server σ κ request answer α) (kind : (asked : request) × answer asked → Prop) :
    Prop :=
  ∃ job ∈ server.jobs, ∃ entry ∈ job.seen, kind entry

/-- What a request has seen it has seen from then on. -/
theorem made_step {server next : Server σ κ request answer α} {move : Move κ ρ}
    {kind : (asked : request) × answer asked → Prop} (made : server.Made kind)
    (taken : server.step perform serve boot move = some next) : next.Made kind := by
  obtain ⟨job, member, entry, seen, isKind⟩ := made
  rcases step_cases taken with ⟨origin, -, rfl⟩ | ⟨index, moved, asked, rest, -, present, -, rfl⟩ |
    ⟨how, -, rfl⟩
  · exact ⟨job, List.mem_append_left _ member, entry, seen, isKind⟩
  · obtain ⟨place, here⟩ := List.getElem?_of_mem member
    by_cases same : index = place
    · rw [← same, present] at here
      obtain rfl := Option.some.inj here
      have inside := (List.getElem?_eq_some_iff.mp present).1
      exact ⟨_, List.mem_set inside _, entry, List.mem_cons_of_mem _ seen, isKind⟩
    · refine ⟨job, List.mem_of_getElem? (i := place) ?_, entry, seen, isKind⟩
      rw [List.getElem?_set_ne same, here]
  · exact ⟨job.lose, List.mem_map.mpr ⟨job, member, rfl⟩, entry, by rwa [Job.seen_lose], isKind⟩

/-- What comes to be so in a run, or to be told to a request of it, was caused by a call. -/
theorem caused_exec (fact : σ → Prop) {causes tells : (asked : request) × answer asked → Prop}
    (calls : ∀ state asked, fact (perform state asked).2 →
      fact state ∨ causes ⟨asked, (perform state asked).1⟩)
    (restarts : ∀ state how, fact (boot how state).2 → fact state)
    (told : ∀ state asked, tells ⟨asked, (perform state asked).1⟩ → fact state)
    {server final : Server σ κ request answer α} {moves : List (Move κ ρ)}
    (before : ¬ fact server.state) (untold : ¬ server.Made tells)
    (run : server.exec perform serve boot moves = some final)
    (after : fact final.state ∨ final.Made tells) : final.Made causes := by
  have kept : final.Made causes ∨ ¬ fact final.state ∧ ¬ final.Made tells := by
    refine Run.invariant (fun _ _ => True)
      (fun server => server.Made causes ∨ ¬ fact server.state ∧ ¬ server.Made tells) ?_
      server final moves (Or.inr ⟨before, untold⟩) (Run.meets_true _ moves) run
    rintro server move next (made | ⟨absent, untold⟩) - taken
    · exact Or.inl (made_step made taken)
    rcases step_cases taken with ⟨origin, -, rfl⟩ |
      ⟨index, moved, asked, rest, -, present, -, rfl⟩ | ⟨how, -, rfl⟩
    · refine Or.inr ⟨absent, ?_⟩
      rintro ⟨job, member, entry, seen, isTold⟩
      rcases List.mem_append.mp member with old | new
      · exact untold ⟨job, old, entry, seen, isTold⟩
      · rw [List.mem_singleton.mp new] at seen
        cases seen
    · by_cases now : fact (perform server.state asked).2
      · have inside := (List.getElem?_eq_some_iff.mp present).1
        exact Or.inl ⟨_, List.mem_set inside _, _, List.mem_cons_self,
          (calls server.state asked now).resolve_left absent⟩
      · refine Or.inr ⟨now, ?_⟩
        rintro ⟨job, member, entry, seen, isTold⟩
        rcases List.mem_or_eq_of_mem_set member with old | rfl
        · exact untold ⟨job, old, entry, seen, isTold⟩
        · rcases List.mem_cons.mp seen with rfl | earlier
          · exact absent (told server.state asked isTold)
          · exact untold ⟨moved, List.mem_of_getElem? present, entry, earlier, isTold⟩
    · refine Or.inr ⟨fun now => absent (restarts server.state how now), ?_⟩
      rintro ⟨job, member, entry, seen, isTold⟩
      obtain ⟨old, there, rfl⟩ := List.mem_map.mp member
      rw [Job.seen_lose] at seen
      exact untold ⟨old, there, entry, seen, isTold⟩
  rcases kept with made | ⟨absent, untold⟩
  · exact made
  · exact absurd after (not_or.mpr ⟨absent, untold⟩)

/-! ## Rely and guarantee -/

/-- What the requests of a server may rely on and guarantee: an invariant of the state,
what holds of it by what a request has seen, the calls a request makes, and how it is
answered.  A call keeps all of it for every request, and so does a restart. -/
structure Contract (perform : σ → (asked : request) → answer asked × σ)
    (serve : κ → Program request answer α) (boot : ρ → σ → Bool × σ)
    (guard : Server σ κ request answer α → Move κ ρ → Prop) where
  inv : σ → Prop
  holds : σ → Ticket κ → List ((asked : request) × answer asked) → Prop
  allows : Ticket κ → List ((asked : request) × answer asked) → request → Prop
  post : Ticket κ → List ((asked : request) × answer asked) → α → Prop
  arrives : ∀ server origin, inv server.state → guard server (.arrive origin) →
    holds server.state ⟨server.jobs.length, origin⟩ [] ∧
    (serve origin).Safe (.seen (allows ⟨server.jobs.length, origin⟩))
      (post ⟨server.jobs.length, origin⟩) []
  calls : ∀ state ticket seen asked, inv state → holds state ticket seen →
    allows ticket seen asked →
    inv (perform state asked).2 ∧
    holds (perform state asked).2 ticket (⟨asked, (perform state asked).1⟩ :: seen) ∧
    ∀ other told, holds state other told → holds (perform state asked).2 other told
  restarts : ∀ server how, inv server.state → guard server (.restart how) →
    inv (boot how server.state).2 ∧
    ∀ ticket seen, holds server.state ticket seen → holds (boot how server.state).2 ticket seen

namespace Contract

variable {guard : Server σ κ request answer α → Move κ ρ → Prop}
  (contract : Contract perform serve boot guard)

/-- The job keeps to the contract. -/
structure Sound (state : σ) (job : Job κ request answer α) : Prop where
  relies : contract.holds state job.ticket job.seen
  safe : ∀ program, job.rest = some program →
    program.Safe (.seen (contract.allows job.ticket)) (contract.post job.ticket) job.seen

variable {contract} in
theorem Sound.answered {state : σ} {job : Job κ request answer α}
    (sound : contract.Sound state job) {value : α} (answered : job.reply = some value) :
    contract.post job.ticket job.seen value :=
  sound.safe _ (Job.rest_of_reply answered)

/-- By induction on the moves of the run. -/
theorem run (server final : Server σ κ request answer α) (moves : List (Move κ ρ))
    (start : contract.inv server.state)
    (all : ∀ job ∈ server.jobs, contract.Sound server.state job)
    (meets : Run.Meets (step perform serve boot) guard server moves)
    (ran : server.exec perform serve boot moves = some final) :
    contract.inv final.state ∧ ∀ job ∈ final.jobs, contract.Sound final.state job := by
  refine Run.invariant guard
    (fun server => contract.inv server.state ∧ ∀ job ∈ server.jobs, contract.Sound server.state job)
    ?_ server final moves ⟨start, all⟩ meets ran
  rintro server move next ⟨held, all⟩ allowed taken
  rcases step_cases taken with ⟨origin, rfl, rfl⟩ |
    ⟨index, job, asked, rest, rfl, present, shape, rfl⟩ | ⟨how, rfl, rfl⟩
  · refine ⟨held, fun job member => ?_⟩
    obtain ⟨relies, safe⟩ := contract.arrives server origin held allowed
    rcases List.mem_append.mp member with before | new
    · exact all job before
    · rw [List.mem_singleton.mp new]
      refine ⟨relies, fun program left => ?_⟩
      cases left
      exact safe
  · have sound := all job (List.mem_of_getElem? present)
    have safe := sound.safe _ shape
    obtain ⟨kept, own, others⟩ := contract.calls server.state job.ticket job.seen asked held
      sound.relies safe.1
    refine ⟨kept, fun other member => ?_⟩
    rcases List.mem_or_eq_of_mem_set member with before | rfl
    · have still := all other before
      exact ⟨others _ _ still.relies, still.safe⟩
    · refine ⟨own, fun program left => ?_⟩
      cases left
      exact safe.2 _
  · obtain ⟨kept, still⟩ := contract.restarts server how held allowed
    refine ⟨kept, fun other member => ?_⟩
    obtain ⟨job, before, rfl⟩ := List.mem_map.mp member
    have sound := all job before
    constructor
    · rw [Job.ticket_lose, Job.seen_lose]
      exact still _ _ sound.relies
    · intro program left
      rw [Job.ticket_lose, Job.seen_lose]
      exact sound.safe program (Job.rest_lose left)

end Contract

end Server

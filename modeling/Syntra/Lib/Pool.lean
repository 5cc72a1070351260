import Mathlib.Data.List.Basic
import Syntra.Lib.Program
import Syntra.Lib.Run

/-!
# Interleaved programs

A pool runs several programs on one state; a step performs the next request of
one of them.  When every call that counts takes effect in its last step, as if
it had run alone there, and the others have no effect, a run of the pool is a
sequential run of the calls that count.
-/

set_option autoImplicit false

universe u v w x

structure Call (request : Type u) (answer : request → Type v) (α : Type w) where
  program : Program request answer α
  rest : Program request answer α
  /-- The requests made so far with their answers, the last first. -/
  seen : List ((asked : request) × answer asked)

structure Pool (σ : Type x) (request : Type u) (answer : request → Type v) (α : Type w) where
  state : σ
  calls : List (Call request answer α)

namespace Call

variable {request : Type u} {answer : request → Type v} {α : Type w} {σ : Type x}

def fresh (program : Program request answer α) : Call request answer α :=
  { program, rest := program, seen := [] }

def returned (call : Call request answer α) : Option α :=
  match call.rest with
  | .done value => some value
  | .call _ _ => none

def next? (call : Call request answer α) : Option request :=
  match call.rest with
  | .done _ => none
  | .call asked _ => some asked

def step (perform : σ → (asked : request) → answer asked × σ) (state : σ)
    (call : Call request answer α) : Option (σ × Call request answer α) :=
  match call.rest with
  | .done _ => none
  | .call asked next =>
    let (reply, state) := perform state asked
    some (state, { call with rest := next reply, seen := ⟨asked, reply⟩ :: call.seen })

variable {perform : σ → (asked : request) → answer asked × σ}

theorem step_eq_some {state state' : σ} {call call' : Call request answer α}
    (taken : call.step perform state = some (state', call')) :
    ∃ asked next, call.rest = .call asked next ∧ state' = (perform state asked).2 ∧
      call' = { call with
        rest := next (perform state asked).1
        seen := ⟨asked, (perform state asked).1⟩ :: call.seen } := by
  cases rest : call.rest with
  | done value => simp [step, rest] at taken
  | call asked next =>
      simp only [step, rest, Option.some.injEq, Prod.mk.injEq] at taken
      exact ⟨asked, next, rfl, taken.1.symm, taken.2.symm⟩

end Call

namespace Pool

variable {request : Type u} {answer : request → Type v} {α : Type w} {σ : Type x}

def start (state : σ) (programs : List (Program request answer α)) :
    Pool σ request answer α :=
  { state, calls := programs.map Call.fresh }

def step (perform : σ → (asked : request) → answer asked × σ) (pool : Pool σ request answer α)
    (index : Nat) : Option (Pool σ request answer α) :=
  (pool.calls[index]?).bind fun call =>
    (call.step perform pool.state).map fun moved =>
      { state := moved.1, calls := pool.calls.set index moved.2 }

def returned (pool : Pool σ request answer α) (index : Nat) : Option α :=
  (pool.calls[index]?).bind Call.returned

variable {perform : σ → (asked : request) → answer asked × σ}

theorem step_eq_some {pool next : Pool σ request answer α} {index : Nat}
    (taken : pool.step perform index = some next) :
    ∃ call asked rest, pool.calls[index]? = some call ∧ call.rest = .call asked rest ∧
      next = { state := (perform pool.state asked).2
               calls := pool.calls.set index { call with
                 rest := rest (perform pool.state asked).1
                 seen := ⟨asked, (perform pool.state asked).1⟩ :: call.seen } } := by
  obtain ⟨call, present, taken⟩ := Option.bind_eq_some_iff.mp taken
  obtain ⟨⟨state, call'⟩, moved, rfl⟩ := Option.map_eq_some_iff.mp taken
  obtain ⟨asked, rest, shape, rfl, rfl⟩ := Call.step_eq_some moved
  exact ⟨call, asked, rest, present, shape, rfl⟩

theorem getElem?_start (state : σ) (programs : List (Program request answer α)) (index : Nat) :
    (start state programs).calls[index]? = programs[index]?.map Call.fresh := by
  simp [start]

/-! ## Invariants -/

/-- A property of the state and of each call, kept by every step the guard
allows, holds along the run. -/
theorem invariant (guard : Pool σ request answer α → Nat → Prop) (inv : σ → Prop)
    (each : σ → Call request answer α → Prop)
    (kept : ∀ pool index call asked rest, inv pool.state →
      pool.calls[index]? = some call → each pool.state call → call.rest = .call asked rest →
      guard pool index →
      inv (perform pool.state asked).2 ∧
      each (perform pool.state asked).2 { call with
        rest := rest (perform pool.state asked).1
        seen := ⟨asked, (perform pool.state asked).1⟩ :: call.seen } ∧
      ∀ other ∈ pool.calls, each pool.state other → each (perform pool.state asked).2 other)
    (pool final : Pool σ request answer α) (moves : List Nat) (start : inv pool.state)
    (all : ∀ call ∈ pool.calls, each pool.state call)
    (meets : Run.Meets (step perform) guard pool moves)
    (run : Run.exec (step perform) pool moves = some final) :
    inv final.state ∧ ∀ call ∈ final.calls, each final.state call := by
  refine Run.invariant guard
    (fun pool => inv pool.state ∧ ∀ call ∈ pool.calls, each pool.state call)
    ?_ pool final moves ⟨start, all⟩ meets run
  rintro pool index next ⟨held, all⟩ allowed taken
  obtain ⟨call, asked, rest, present, shape, rfl⟩ := step_eq_some taken
  obtain ⟨state, moved, others⟩ := kept pool index call asked rest held present
    (all call (List.mem_of_getElem? present)) shape allowed
  refine ⟨state, fun other member => ?_⟩
  rcases List.mem_or_eq_of_mem_set member with before | rfl
  · exact others other before (all other before)
  · exact moved

/-- Every call of a run is safe, knowing what it has seen. -/
theorem safe_calls (allows : List ((asked : request) × answer asked) → request → Prop)
    (post : Nat → List ((asked : request) × answer asked) → α → Prop) (state : σ)
    (programs : List (Program request answer α))
    (safe : ∀ index (program : Program request answer α), programs[index]? = some program →
      program.Safe (.seen allows) (post index) [])
    (final : Pool σ request answer α) (moves : List Nat)
    (run : Run.exec (step perform) (start state programs) moves = some final) (index : Nat)
    (call : Call request answer α) (present : final.calls[index]? = some call) :
    call.rest.Safe (.seen allows) (post index) call.seen := by
  refine Run.invariant (fun _ _ => True)
    (fun pool => ∀ index call, pool.calls[index]? = some call →
      call.rest.Safe (.seen allows) (post index) call.seen)
    ?_ (start state programs) final moves ?_ (Run.meets_true _ moves) run index call present
  · rintro pool moved next held - taken other found after
    obtain ⟨before, asked, rest, here, shape, rfl⟩ := step_eq_some taken
    rw [List.getElem?_set] at after
    split at after
    · rename_i same
      split at after
      · cases after
        have kept := held moved before here
        rw [shape] at kept
        exact same ▸ kept.2 _
      · cases after
    · exact held other found after
  · intro other found here
    rw [getElem?_start] at here
    obtain ⟨program, listed, rfl⟩ := Option.map_eq_some_iff.mp here
    exact safe other program listed

/-! ## What a run has asked -/

/-- The requests of a run, each with the call that made it and the answer. -/
def log (perform : σ → (asked : request) → answer asked × σ) :
    Pool σ request answer α → List Nat → List (Nat × ((asked : request) × answer asked))
  | _, [] => []
  | pool, index :: moves =>
    match (pool.calls[index]?).bind Call.next?, pool.step perform index with
    | some asked, some next => (index, ⟨asked, (perform pool.state asked).1⟩) :: next.log perform moves
    | _, _ => []

theorem log_cons {pool next : Pool σ request answer α} {index : Nat} (moves : List Nat)
    (taken : pool.step perform index = some next) :
    ∃ call asked rest, pool.calls[index]? = some call ∧ call.rest = .call asked rest ∧
      next = { state := (perform pool.state asked).2
               calls := pool.calls.set index { call with
                 rest := rest (perform pool.state asked).1
                 seen := ⟨asked, (perform pool.state asked).1⟩ :: call.seen } } ∧
      pool.log perform (index :: moves) =
        (index, ⟨asked, (perform pool.state asked).1⟩) :: next.log perform moves := by
  obtain ⟨call, asked, rest, present, shape, after⟩ := step_eq_some taken
  refine ⟨call, asked, rest, present, shape, after, ?_⟩
  have asks : (pool.calls[index]?).bind Call.next? = some asked := by
    rw [present, Option.bind_some, Call.next?, shape]
  simp only [log, asks, taken]

/-- What a call has seen is in the log of the run, or was there at its start. -/
theorem mem_log_of_seen {pool final : Pool σ request answer α} {moves : List Nat}
    (run : Run.exec (step perform) pool moves = some final) {index : Nat}
    {call : Call request answer α} (present : final.calls[index]? = some call)
    {entry : (asked : request) × answer asked} (seen : entry ∈ call.seen) :
    (index, entry) ∈ pool.log perform moves ∨
      ∃ before, pool.calls[index]? = some before ∧ entry ∈ before.seen := by
  induction moves generalizing pool with
  | nil =>
      cases run
      exact Or.inr ⟨call, present, seen⟩
  | cons move moves ih =>
      obtain ⟨next, taken, rest⟩ := Run.exec_cons_eq_some.mp run
      obtain ⟨moved, asked, further, here, -, rfl, logged⟩ := log_cons moves taken
      rw [logged]
      rcases ih rest with later | ⟨before, found, earlier⟩
      · exact Or.inl (List.mem_cons_of_mem _ later)
      · rw [List.getElem?_set] at found
        split at found
        · rename_i same
          split at found
          · cases found
            rcases List.mem_cons.mp earlier with rfl | old
            · exact Or.inl (by rw [same]; exact List.mem_cons_self)
            · exact Or.inr ⟨moved, same ▸ here, old⟩
          · cases found
        · exact Or.inr ⟨before, found, earlier⟩

/-- The run up to an entry of the log, and the run from there. -/
theorem log_split {pool final : Pool σ request answer α} {moves : List Nat}
    (run : Run.exec (step perform) pool moves = some final)
    {before after : List (Nat × ((asked : request) × answer asked))} {index : Nat}
    {entry : (asked : request) × answer asked}
    (logged : pool.log perform moves = before ++ (index, entry) :: after) :
    ∃ middle next : Pool σ request answer α, ∃ rest : List Nat,
      entry = ⟨entry.1, (perform middle.state entry.1).1⟩ ∧
      next.state = (perform middle.state entry.1).2 ∧
      Run.exec (step perform) next rest = some final ∧ next.log perform rest = after := by
  induction moves generalizing pool before with
  | nil => simp [log] at logged
  | cons move moves ih =>
      obtain ⟨next, taken, rest⟩ := Run.exec_cons_eq_some.mp run
      obtain ⟨call, asked, further, -, -, same, first⟩ := log_cons moves taken
      rw [first] at logged
      cases before with
      | nil =>
          rw [List.nil_append, List.cons.injEq, Prod.mk.injEq] at logged
          obtain ⟨⟨-, rfl⟩, rfl⟩ := logged
          exact ⟨pool, next, moves, rfl, by rw [same], rest, rfl⟩
      | cons head before =>
          rw [List.cons_append, List.cons.injEq] at logged
          exact ih rest logged.2

/-- A property that no request of the log takes away holds at the end. -/
theorem log_keeps (inv : σ → Prop) {pool final : Pool σ request answer α} {moves : List Nat}
    (run : Run.exec (step perform) pool moves = some final)
    (kept : ∀ entry ∈ pool.log perform moves, ∀ state, inv state →
      inv (perform state entry.2.1).2)
    (start : inv pool.state) : inv final.state := by
  induction moves generalizing pool with
  | nil =>
      cases run
      exact start
  | cons move moves ih =>
      obtain ⟨next, taken, rest⟩ := Run.exec_cons_eq_some.mp run
      obtain ⟨call, asked, further, -, -, rfl, first⟩ := log_cons moves taken
      rw [first] at kept
      exact ih rest (fun entry member => kept entry (List.mem_cons_of_mem _ member))
        (kept _ List.mem_cons_self _ start)

/-! ## Sequential runs -/

variable (perform)

/-- The calls of `history`, each run alone from where the one before ended, have
the values that `history` gives them. -/
def Replays (programs : List (Program request answer α)) : σ → List (Nat × α) → σ → Prop
  | state, [], final => state = final
  | state, (index, value) :: history, final =>
    ∃ program, programs[index]? = some program ∧ (program.run perform state).1 = value ∧
      Replays programs (program.run perform state).2 history final

/-- What a step does to the sequential history: nothing, or it ends its call,
which then counts and ran as if alone. -/
def Commits (counted : α → Prop) (state : σ) (call : Call request answer α) (asked : request)
    (rest : answer asked → Program request answer α) : Prop :=
  match rest (perform state asked).1 with
  | .call _ _ => (perform state asked).2 = state
  | .done value =>
    (counted value ∧ call.program.run perform state = (value, (perform state asked).2)) ∨
      (¬ counted value ∧ (perform state asked).2 = state)

variable {perform}

theorem Replays.snoc {programs : List (Program request answer α)} {state middle : σ}
    {history : List (Nat × α)} (replays : Replays perform programs state history middle)
    {index : Nat} {program : Program request answer α}
    (present : programs[index]? = some program) :
    Replays perform programs state (history ++ [(index, (program.run perform middle).1)])
      (program.run perform middle).2 := by
  induction history generalizing state with
  | nil =>
      cases replays
      exact ⟨program, present, rfl, rfl⟩
  | cons entry history ih =>
      obtain ⟨first, here, value, rest⟩ := replays
      exact ⟨first, here, value, ih rest⟩

theorem returned_set {pool : Pool σ request answer α} {index : Nat} {call : Call request answer α}
    (present : pool.calls[index]? = some call) (state : σ) (moved : Call request answer α)
    (other : Nat) :
    returned { state, calls := pool.calls.set index moved } other =
      if index = other then moved.returned else pool.returned other := by
  have inside : index < pool.calls.length := (List.getElem?_eq_some_iff.mp present).1
  by_cases same : index = other
  · subst same
    simp [returned, List.getElem?_set_self inside]
  · simp [returned, List.getElem?_set_ne same, same]

theorem programs_set {pool : Pool σ request answer α} {index : Nat} {call : Call request answer α}
    (present : pool.calls[index]? = some call) (moved : Call request answer α)
    (same : moved.program = call.program) :
    (pool.calls.set index moved).map Call.program = pool.calls.map Call.program := by
  obtain ⟨inside, rfl⟩ := List.getElem?_eq_some_iff.mp present
  rw [List.map_set, same, ← List.getElem_map Call.program (h := by simpa using inside),
    List.set_getElem_self]

variable (perform)

/-- The calls that have returned and count, in some order, account for the state. -/
def Sequential (programs : List (Program request answer α)) (counted : α → Prop) (first : σ)
    (pool : Pool σ request answer α) : Prop :=
  ∃ history : List (Nat × α), (history.map Prod.fst).Nodup ∧
    (∀ index value, (index, value) ∈ history ↔
      pool.returned index = some value ∧ counted value) ∧
    Replays perform programs first history pool.state

variable {perform}

theorem nodup_snoc {history : List (Nat × α)} (nodup : (history.map Prod.fst).Nodup)
    {index : Nat} (absent : ∀ value, (index, value) ∉ history) (value : α) :
    ((history ++ [(index, value)]).map Prod.fst).Nodup := by
  rw [List.map_append, List.nodup_append]
  refine ⟨nodup, by simp, ?_⟩
  intro first member last present equal
  obtain ⟨⟨other, found⟩, here, rfl⟩ := List.mem_map.mp member
  rw [List.map_singleton, List.mem_singleton] at present
  have same : other = index := equal.trans present
  exact absent found (same ▸ here)

theorem Sequential.step {programs : List (Program request answer α)} {counted : α → Prop}
    {first : σ} {pool : Pool σ request answer α}
    (sequential : Sequential perform programs counted first pool) {index : Nat}
    {call : Call request answer α} {asked : request}
    {rest : answer asked → Program request answer α}
    (present : pool.calls[index]? = some call) (shape : call.rest = .call asked rest)
    (program : programs[index]? = some call.program)
    (commits : Commits perform counted pool.state call asked rest) :
    Sequential perform programs counted first
      { state := (perform pool.state asked).2
        calls := pool.calls.set index { call with
          rest := rest (perform pool.state asked).1
          seen := ⟨asked, (perform pool.state asked).1⟩ :: call.seen } } := by
  obtain ⟨history, nodup, entries, replays⟩ := sequential
  have running : pool.returned index = none := by
    simp [returned, present, Call.returned, shape]
  have absent : ∀ value, (index, value) ∉ history := by
    intro value member
    rw [((entries index value).mp member).1] at running
    simp at running
  unfold Commits at commits
  simp only [Sequential, returned_set present, Call.returned]
  cases ended : rest (perform pool.state asked).1 with
  | call again further =>
      rw [ended] at commits
      refine ⟨history, nodup, fun other value => ?_, commits.symm ▸ replays⟩
      by_cases here : index = other
      · subst here
        simp [absent]
      · simp only [here, if_false, entries]
  | done value =>
      rw [ended] at commits
      rcases commits with ⟨counts, alone⟩ | ⟨ignored, unchanged⟩
      · have last := replays.snoc program
        rw [alone] at last
        refine ⟨history ++ [(index, value)], nodup_snoc nodup absent value, ?_, last⟩
        intro other found
        rw [List.mem_append, List.mem_singleton, Prod.mk.injEq]
        by_cases here : index = other
        · subst here
          simp only [absent, false_or, true_and, if_true, Option.some.injEq]
          constructor
          · intro equal
            exact ⟨equal.symm, equal ▸ counts⟩
          · intro equal
            exact equal.1.symm
        · simp only [here, if_false, entries, Ne.symm here, false_and, or_false]
      · refine ⟨history, nodup, fun other found => ?_, unchanged.symm ▸ replays⟩
        by_cases here : index = other
        · subst here
          simp only [if_true, Option.some.injEq, absent, false_iff, not_and]
          intro equal
          exact equal ▸ ignored
        · simp only [here, if_false, entries]

/-- By induction on the steps of the run: a call that counts enters the history
with its last step. -/
theorem linearizable (guard : Pool σ request answer α → Nat → Prop)
    (each : σ → Call request answer α → Prop) (counted : α → Prop)
    (commits : ∀ pool index call asked rest, pool.calls[index]? = some call →
      each pool.state call → call.rest = .call asked rest → guard pool index →
      each (perform pool.state asked).2 { call with
        rest := rest (perform pool.state asked).1
        seen := ⟨asked, (perform pool.state asked).1⟩ :: call.seen } ∧
      Commits perform counted pool.state call asked rest ∧
      ∀ other ∈ pool.calls, each pool.state other → each (perform pool.state asked).2 other)
    (state : σ) (programs : List (Program request answer α))
    (unstarted : ∀ program ∈ programs,
      each state (Call.fresh program) ∧ (Call.fresh program).returned = none)
    (final : Pool σ request answer α) (moves : List Nat)
    (meets : Run.Meets (step perform) guard (start state programs) moves)
    (run : Run.exec (step perform) (start state programs) moves = some final) :
    (∀ call ∈ final.calls, each final.state call) ∧
      Sequential perform programs counted state final ∧
      final.calls.map Call.program = programs := by
  let inv (pool : Pool σ request answer α) : Prop :=
    pool.calls.map Call.program = programs ∧ (∀ call ∈ pool.calls, each pool.state call) ∧
      Sequential perform programs counted state pool
  suffices holds : inv final from ⟨holds.2.1, holds.2.2, holds.1⟩
  refine Run.invariant guard inv ?_ (start state programs) final moves
    ⟨?_, ?_, ⟨[], List.nodup_nil, ?_, rfl⟩⟩ meets run
  · rintro pool index next ⟨same, all, sequential⟩ allowed taken
    obtain ⟨call, asked, rest, present, shape, rfl⟩ := step_eq_some taken
    obtain ⟨moved, effect, others⟩ := commits pool index call asked rest present
      (all call (List.mem_of_getElem? present)) shape allowed
    have program : programs[index]? = some call.program := by
      rw [← same, List.getElem?_map, present]
      rfl
    refine ⟨?_, ?_, sequential.step present shape program effect⟩
    · rw [← same]
      exact programs_set present _ rfl
    · intro other member
      rcases List.mem_or_eq_of_mem_set member with before | rfl
      · exact others other before (all other before)
      · exact moved
  · show (programs.map Call.fresh).map Call.program = programs
    rw [List.map_map]
    exact List.map_id programs
  · intro call member
    obtain ⟨program, present, rfl⟩ := List.mem_map.mp member
    exact (unstarted program present).1
  · intro index value
    simp only [List.not_mem_nil, false_iff, not_and]
    intro value
    rw [returned, getElem?_start] at value
    cases present : programs[index]? with
    | none => simp [present] at value
    | some program =>
        rw [present, Option.map_some, Option.bind_some,
          (unstarted program (List.mem_of_getElem? present)).2] at value
        simp at value

/-! ## One call at a time -/

/-- The call has begun, an answer of the kind is among those it has got, and it has not
ended. -/
def Underway (kind : (asked : request) × answer asked → Prop) (call : Call request answer α) :
    Prop :=
  call.returned = none ∧ ∃ entry ∈ call.seen, kind entry

instance (kind : (asked : request) × answer asked → Prop) [DecidablePred kind]
    (call : Call request answer α) : Decidable (Underway kind call) :=
  inferInstanceAs (Decidable (call.returned = none ∧ ∃ entry ∈ call.seen, kind entry))

/-- A call begins only while no other is underway. -/
def Exclusive (kind : (asked : request) × answer asked → Prop) (pool : Pool σ request answer α)
    (index : Nat) : Prop :=
  ((pool.calls[index]?).any fun call => call.seen.isEmpty) = true →
    ∀ other ∈ pool.calls, ¬ Underway kind other

instance (kind : (asked : request) × answer asked → Prop) [DecidablePred kind]
    (pool : Pool σ request answer α) (index : Nat) : Decidable (Exclusive kind pool index) :=
  inferInstanceAs (Decidable (((pool.calls[index]?).any fun call => call.seen.isEmpty) = true →
    ∀ other ∈ pool.calls, ¬ Underway kind other))

section Exclusive

variable {kind : (asked : request) × answer asked → Prop} {program : Program request answer α}
  {state single : σ} {value : α} {settled : σ → Prop} {quiet : request → Prop} {post : α → Prop}

/-- How far the calls are: none has begun, one is underway alone, or one has ended
and the others only follow. -/
inductive Phase (perform : σ → (asked : request) → answer asked × σ)
    (kind : (asked : request) × answer asked → Prop) (program : Program request answer α)
    (state single : σ) (value : α) (settled : σ → Prop) (quiet : request → Prop)
    (post : α → Prop) (pool : Pool σ request answer α) : Prop
  | before (same : pool.state = state) (fresh : ∀ call ∈ pool.calls, call = Call.fresh program)
  | alone (index : Nat) (call : Call request answer α) (present : pool.calls[index]? = some call)
    (underway : Underway kind call) (ends : call.rest.run perform pool.state = (value, single))
    (fresh : ∀ (other : Nat) (later : Call request answer α), pool.calls[other]? = some later →
      other ≠ index → later = Call.fresh program)
  | after (holds : settled pool.state)
    (follow : ∀ call ∈ pool.calls, call = Call.fresh program ∨
      call.rest.Safe (Program.Monitor.only quiet) (fun _ => post) ())

theorem Phase.advance {pool : Pool σ request answer α} {index : Nat}
    {call : Call request answer α} {asked : request}
    {rest : answer asked → Program request answer α} (settles : settled single ∧ post value)
    (present : pool.calls[index]? = some call)
    (ends : (Program.call asked rest).run perform pool.state = (value, single))
    (sees : ∃ entry ∈ (⟨asked, (perform pool.state asked).1⟩ : (asked : request) × answer asked)
      :: call.seen, kind entry)
    (fresh : ∀ (other : Nat) (later : Call request answer α), pool.calls[other]? = some later →
      other ≠ index → later = Call.fresh program) :
    Phase perform kind program state single value settled quiet post
      { state := (perform pool.state asked).2
        calls := pool.calls.set index { call with
          rest := rest (perform pool.state asked).1
          seen := ⟨asked, (perform pool.state asked).1⟩ :: call.seen } } := by
  have inside : index < pool.calls.length := (List.getElem?_eq_some_iff.mp present).1
  rw [Program.run_call] at ends
  cases shape : rest (perform pool.state asked).1 with
  | done own =>
      rw [shape, Program.run_done, Prod.mk.injEq] at ends
      refine .after (ends.2 ▸ settles.1) fun other member => ?_
      obtain ⟨place, here⟩ := List.getElem?_of_mem member
      by_cases same : place = index
      · rw [same, List.getElem?_set_self inside] at here
        cases here
        exact Or.inr (show post own from ends.1 ▸ settles.2)
      · rw [List.getElem?_set_ne (Ne.symm same)] at here
        exact Or.inl (fresh place other here same)
  | call again further =>
      rw [shape] at ends
      refine .alone index _ (List.getElem?_set_self inside) ⟨rfl, sees⟩ ends ?_
      intro other later here apart
      rw [List.getElem?_set_ne (Ne.symm apart)] at here
      exact fresh other later here apart

theorem length_run {pool final : Pool σ request answer α} {moves : List Nat}
    (run : Run.exec (step perform) pool moves = some final) :
    final.calls.length = pool.calls.length := by
  refine Run.invariant (fun _ _ => True) (fun later => later.calls.length = pool.calls.length) ?_
    pool final moves rfl (Run.meets_true _ moves) run
  rintro before index next same - taken
  obtain ⟨call, asked, rest, -, -, rfl⟩ := step_eq_some taken
  rw [← same]
  exact List.length_set

variable (settled quiet post) in
/-- When the calls of one program begin only while none is underway, the first runs as if it
were the only one, and the others find what it has left. -/
theorem exclusive_once {first : request} {next : answer first → Program request answer α}
    (starts : program = .call first next) (opens : kind ⟨first, (perform state first).1⟩)
    (alone : program.run perform state = (value, single))
    (settles : settled single ∧ post value)
    (follows : ∀ later, settled later → settled (perform later first).2 ∧
      (next (perform later first).1).Safe (Program.Monitor.only quiet) (fun _ => post) ())
    (keeps : ∀ later asked, settled later → quiet asked → settled (perform later asked).2)
    (count : Nat) (final : Pool σ request answer α) (moves : List Nat)
    (meets : Run.Meets (step perform) (Exclusive kind)
      (start state (List.replicate count program)) moves)
    (run : Run.exec (step perform) (start state (List.replicate count program)) moves =
      some final) :
    Phase perform kind program state single value settled quiet post final := by
  refine Run.invariant (Exclusive kind) _ ?_ (start state (List.replicate count program)) final
    moves (.before rfl ?_) meets run
  · intro pool index moved phase exclusive taken
    obtain ⟨call, asked, rest, present, shape, rfl⟩ := step_eq_some taken
    have begins : call = Call.fresh program → (⟨asked, rest⟩ : (asked : request) ×
        (answer asked → Program request answer α)) = ⟨first, next⟩ := by
      intro fresh
      rw [fresh, Call.fresh, starts] at shape
      cases shape
      rfl
    cases phase with
    | before same fresh =>
        have unstarted := fresh call (List.mem_of_getElem? present)
        cases begins unstarted
        refine Phase.advance settles present ?_ ?_ ?_
        · rw [← starts, same, alone]
        · rw [same]
          exact ⟨_, List.mem_cons_self, opens⟩
        · intro other later here _
          exact fresh later (List.mem_of_getElem? here)
    | alone active running here underway ends fresh =>
        by_cases own : index = active
        · subst own
          cases present.symm.trans here
          obtain ⟨-, entry, member, known⟩ := underway
          exact Phase.advance settles present (shape ▸ ends)
            ⟨entry, List.mem_cons_of_mem _ member, known⟩ fresh
        · refine absurd underway (exclusive ?_ running (List.mem_of_getElem? here))
          rw [present, fresh index call present own]
          rfl
    | after holds follow =>
        have member := List.mem_of_getElem? present
        have effect : settled (perform pool.state asked).2 ∧
            (rest (perform pool.state asked).1).Safe (Program.Monitor.only quiet) (fun _ => post) () := by
          rcases follow call member with unstarted | safe
          · cases begins unstarted
            exact follows pool.state holds
          · rw [shape] at safe
            exact ⟨keeps pool.state asked holds safe.1, safe.2 _⟩
        refine .after effect.1 fun other among => ?_
        rcases List.mem_or_eq_of_mem_set among with before | rfl
        · exact follow other before
        · exact Or.inr effect.2
  · intro call member
    obtain ⟨own, listed, rfl⟩ := List.mem_map.mp member
    rw [(List.mem_replicate.mp listed).2]

theorem Phase.finished {pool : Pool σ request answer α}
    (phase : Phase perform kind program state single value settled quiet post pool)
    {first : request} {next : answer first → Program request answer α}
    (starts : program = .call first next) (some_call : pool.calls ≠ [])
    (ended : ∀ call ∈ pool.calls, call.returned.isSome = true) :
    settled pool.state ∧ ∀ index own, pool.returned index = some own → post own := by
  have running : (Call.fresh program).returned = none := by rw [starts]; rfl
  cases phase with
  | before same fresh =>
      obtain ⟨call, member⟩ := List.exists_mem_of_ne_nil _ some_call
      have came := ended call member
      rw [fresh call member, running] at came
      cases came
  | alone active call present underway =>
      have came := ended call (List.mem_of_getElem? present)
      rw [underway.1] at came
      cases came
  | after holds follow =>
      refine ⟨holds, fun index own returned => ?_⟩
      obtain ⟨call, present, came⟩ := Option.bind_eq_some_iff.mp returned
      rcases follow call (List.mem_of_getElem? present) with fresh | safe
      · rw [fresh, running] at came
        cases came
      · unfold Call.returned at came
        split at came
        · rename_i shape
          rw [shape] at safe
          exact Option.some.inj came ▸ safe
        · cases came

end Exclusive

/-! ## Counting -/

def tally (pool : Pool σ request answer α) (kind : α → Bool) : Nat :=
  (List.range pool.calls.length).countP fun index => (pool.returned index).any kind

theorem countP_history {pool : Pool σ request answer α} {counted : α → Prop}
    {history : List (Nat × α)} (nodup : (history.map Prod.fst).Nodup)
    (entries : ∀ index value, (index, value) ∈ history ↔
      pool.returned index = some value ∧ counted value)
    (kind : α → Bool) (counts : ∀ value, kind value = true → counted value) :
    history.countP (fun entry => kind entry.2) = pool.tally kind := by
  have sameIndexes : ((history.filter fun entry => kind entry.2).map Prod.fst).Perm
      ((List.range pool.calls.length).filter fun index => (pool.returned index).any kind) := by
    refine (List.perm_ext_iff_of_nodup ?_ ?_).mpr fun index => ?_
    · exact nodup.sublist (List.filter_sublist.map Prod.fst)
    · exact List.nodup_range.sublist List.filter_sublist
    · rw [List.mem_map, List.mem_filter, List.mem_range]
      constructor
      · rintro ⟨⟨found, value⟩, member, rfl⟩
        obtain ⟨here, isKind⟩ := List.mem_filter.mp member
        have value := ((entries found value).mp here).1
        obtain ⟨call, present, -⟩ := Option.bind_eq_some_iff.mp value
        exact ⟨(List.getElem?_eq_some_iff.mp present).1, by rw [value]; exact isKind⟩
      · rintro ⟨-, isKind⟩
        cases came : pool.returned index with
        | none =>
            rw [came] at isKind
            cases isKind
        | some value =>
            rw [came] at isKind
            exact ⟨(index, value), List.mem_filter.mpr
              ⟨(entries index value).mpr ⟨came, counts value isKind⟩, isKind⟩, rfl⟩
  rw [tally, List.countP_eq_length_filter, List.countP_eq_length_filter, ← sameIndexes.length_eq,
    List.length_map]

end Pool

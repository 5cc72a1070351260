import Mathlib.Data.List.Pairwise
import Syntra.Lib.Pool
import Syntra.Usage

/-!
# Events recorded together

Calls of `record` look for the key, insert, and look again when the insertion
is refused.  An event is in the ledger exactly when its call returned true,
whatever the order of the steps.
-/

set_option autoImplicit false

namespace Syntra

open Program

namespace Usage

def Taken (db : Database) (event : UsageEvent) : Prop := db.events.accepts event = false

theorem taken_iff {db : Database} {event : UsageEvent} :
    Taken db event ↔ ∃ key, event.idempotencyKey = some key ∧
      (db.events.find (event.tenantId, key)).isSome = true := by
  unfold Taken Table.accepts eventKey
  cases event.idempotencyKey <;> simp

theorem execute_insertEvent (db : Database) (event : UsageEvent) :
    (¬ Taken db event ∧ ∃ next : Database, db.execute (.insertEvent event) = (.ok (), next) ∧
      next.grants = db.grants ∧ next.events.rows = db.events.rows ++ [event]) ∨
    (Taken db event ∧ ∃ e, db.execute (.insertEvent event) = (.error e, db)) := by
  cases inserted : db.events.insert event with
  | some events =>
      obtain ⟨free, rows⟩ := Table.insert_eq_some inserted
      refine Or.inl ⟨by simp [Taken, free], { db with events }, ?_, rfl, rows⟩
      simp only [Database.execute, inserted]
  | none =>
      refine Or.inr ⟨Table.insert_eq_none.mp inserted, ?_⟩
      simp only [Database.execute, inserted]
      exact ⟨_, rfl⟩

theorem Taken.insert {db : Database} {event : UsageEvent} (taken : Taken db event)
    (other : UsageEvent) : Taken (db.execute (.insertEvent other)).2 event := by
  rcases execute_insertEvent db other with ⟨-, next, inserted, -, rows⟩ | ⟨-, e, refused⟩
  · obtain ⟨key, own, present⟩ := taken_iff.mp taken
    obtain ⟨row, found⟩ := Option.isSome_iff_exists.mp present
    obtain ⟨member, keyed⟩ := Table.find_eq_some.mp found
    refine taken_iff.mpr ⟨key, own, ?_⟩
    have still : next.events.find (event.tenantId, key) = some row :=
      Table.find_eq_some.mpr ⟨by rw [rows]; exact List.mem_append_left _ member, keyed⟩
    rw [inserted, still]
    rfl
  · rw [refused]
    exact taken

theorem found_isSome {db : Database} {event : UsageEvent} {key : String}
    (own : event.idempotencyKey = some key) :
    ((db.events.find (event.tenantId, key)).map (·.stored)).isSome = true ↔ Taken db event := by
  rw [taken_iff, Option.isSome_map, own]
  simp

theorem record_run (db : Database) (event : UsageEvent) :
    (Taken db event ∧ (record event).run Database.execute db = (.ok false, db)) ∨
      (¬ Taken db event ∧ (record event).run Database.execute db =
        (.ok true, (db.execute (.insertEvent event)).2)) := by
  have inserts : ¬ Taken db event → (insertEvent event).run Database.execute db =
      (.ok true, (db.execute (.insertEvent event)).2) := by
    intro free
    rcases execute_insertEvent db event with ⟨-, next, inserted, -⟩ | ⟨taken, -⟩
    · rw [insertEvent, run_bind, Sql.send, run_ask, inserted]
      rfl
    · exact absurd taken free
  unfold record
  cases own : event.idempotencyKey with
  | none =>
      have free : ¬ Taken db event := by simp [taken_iff, own]
      exact Or.inr ⟨free, inserts free⟩
  | some key =>
      dsimp only
      have answer : db.execute (.findEvent event.tenantId key) =
          (.ok ((db.events.find (event.tenantId, key)).map (·.stored)), db) := rfl
      rw [findByIdempotency, Sql.andThen, run_attempt, Sql.send, run_ask, answer]
      dsimp only
      by_cases taken : Taken db event
      · rw [if_pos ((found_isSome own).mpr taken)]
        exact Or.inl ⟨taken, rfl⟩
      · rw [if_neg (fun found => taken ((found_isSome own).mp found))]
        exact Or.inr ⟨taken, inserts taken⟩

/-! ## Calls run together -/

abbrev Recorders := Pool Database Statement Statement.Answer (Except DbError Bool)

inductive Stage (event : UsageEvent) (db : Database) : Sql Bool → Prop
  | unread : Stage event db (record event)
  | inserting : Stage event db (insertEvent event)
  | refused (e : DbError) (taken : Taken db event) : Stage event db (lookAgain event e)
  | added : Stage event db (.done (.ok true))
  | found (taken : Taken db event) : Stage event db (.done (.ok false))

def Stands (db : Database) (call : Call Statement Statement.Answer (Except DbError Bool)) : Prop :=
  ∃ event, call.program = record event ∧ Stage event db call.rest

theorem Stage.later {event : UsageEvent} {db next : Database} {rest : Sql Bool}
    (stage : Stage event db rest) (kept : Taken db event → Taken next event) :
    Stage event next rest := by
  cases stage with
  | unread => exact .unread
  | inserting => exact .inserting
  | refused e taken => exact .refused e (kept taken)
  | added => exact .added
  | found taken => exact .found (kept taken)

def Looks (event : UsageEvent) (sql absent : Sql Bool) : Prop :=
  ∃ key next, event.idempotencyKey = some key ∧
    sql = .call (.findEvent event.tenantId key) next ∧
    ∀ found : Option StoredEvent,
      next (.ok found) = if found.isSome then .done (.ok false) else absent

theorem lookAgain_looks {event : UsageEvent} {key : String} (own : event.idempotencyKey = some key)
    (e : DbError) :
    Looks event (lookAgain event e) (.done (.error s!"gravando evento de uso: {e}")) := by
  unfold lookAgain
  rw [own]
  exact ⟨key, _, own, rfl, fun _ => rfl⟩

theorem record_looks {event : UsageEvent} {key : String} (own : event.idempotencyKey = some key) :
    Looks event (record event) (insertEvent event) := by
  unfold record
  rw [own]
  exact ⟨key, _, own, rfl, fun _ => rfl⟩

/-- A look changes nothing, and ends the call when the key is taken. -/
theorem Looks.step {event : UsageEvent} {sql absent : Sql Bool} (looks : Looks event sql absent)
    (db : Database) (statement : Statement) (rest : statement.Answer → Sql Bool)
    (shape : sql = .call statement rest) :
    (db.execute statement).2 = db ∧
      (Taken db event ∧ rest (db.execute statement).1 = .done (.ok false) ∨
        ¬ Taken db event ∧ rest (db.execute statement).1 = absent) := by
  obtain ⟨key, next, own, same, answers⟩ := looks
  rw [same] at shape
  cases shape
  refine ⟨rfl, ?_⟩
  have answer : (db.execute (.findEvent event.tenantId key)).1 =
      .ok ((db.events.find (event.tenantId, key)).map (·.stored)) := rfl
  rw [answer, answers]
  by_cases taken : Taken db event
  · exact Or.inl ⟨taken, if_pos ((found_isSome own).mpr taken)⟩
  · exact Or.inr ⟨taken, if_neg fun found => taken ((found_isSome own).mp found)⟩

/-- The insertion ends the call, or is refused because the key is taken. -/
theorem insert_step (db : Database) (event : UsageEvent) (statement : Statement)
    (rest : statement.Answer → Sql Bool) (shape : insertEvent event = .call statement rest) :
    statement = .insertEvent event ∧
      (¬ Taken db event ∧ rest (db.execute statement).1 = .done (.ok true) ∨
        Taken db event ∧ (db.execute statement).2 = db ∧
          ∃ e, rest (db.execute statement).1 = lookAgain event e) := by
  cases shape
  refine ⟨rfl, ?_⟩
  rcases execute_insertEvent db event with ⟨free, next, inserted, -⟩ | ⟨taken, e, refused⟩
  · rw [inserted]
    exact Or.inl ⟨free, rfl⟩
  · rw [refused]
    exact Or.inr ⟨taken, rfl, e, rfl⟩

/-- A step keeps what is taken, leaves the call at a stage and commits it if it ends. -/
def Steps (db : Database) (event : UsageEvent)
    (call : Call Statement Statement.Answer (Except DbError Bool)) (statement : Statement)
    (rest : statement.Answer → Sql Bool) : Prop :=
  (∀ other, Taken db other → Taken (db.execute statement).2 other) ∧
    Stage event (db.execute statement).2 (rest (db.execute statement).1) ∧
    Pool.Commits Database.execute (fun reply => reply = .ok true) db call statement rest

variable {db : Database} {event : UsageEvent}
  {call : Call Statement Statement.Answer (Except DbError Bool)} {statement : Statement}
  {rest : statement.Answer → Sql Bool}

theorem steps_inserting (program : call.program = record event)
    (shape : insertEvent event = .call statement rest) : Steps db event call statement rest := by
  obtain ⟨rfl, went⟩ := insert_step db event statement rest shape
  refine ⟨fun other taken => taken.insert event, ?_⟩
  unfold Pool.Commits
  rcases went with ⟨free, ended⟩ | ⟨taken, same, e, refused⟩
  · rw [ended]
    refine ⟨.added, Or.inl ⟨rfl, ?_⟩⟩
    rcases record_run db event with ⟨taken, -⟩ | ⟨-, alone⟩
    · exact absurd taken free
    · rw [program, alone]
  · rw [refused, same]
    obtain ⟨key, own, -⟩ := taken_iff.mp taken
    obtain ⟨_, _, -, again, -⟩ := lookAgain_looks own e
    refine ⟨.refused e taken, ?_⟩
    rw [again]

theorem steps_looking {sql absent : Sql Bool} (looks : Looks event sql absent)
    (goesOn : ¬ Taken db event → absent = insertEvent event) (shape : sql = .call statement rest) :
    Steps db event call statement rest := by
  obtain ⟨same, went⟩ := looks.step db statement rest shape
  unfold Steps Pool.Commits
  rw [same]
  refine ⟨fun other taken => taken, ?_⟩
  rcases went with ⟨taken, ended⟩ | ⟨free, ended⟩
  · rw [ended]
    exact ⟨.found taken, Or.inr ⟨by simp, rfl⟩⟩
  · rw [ended, goesOn free]
    exact ⟨.inserting, rfl⟩

theorem Stage.steps (stage : Stage event db call.rest) (program : call.program = record event)
    (shape : call.rest = .call statement rest) : Steps db event call statement rest := by
  generalize call.rest = sql at stage shape
  cases stage with
  | unread =>
      cases own : event.idempotencyKey with
      | none =>
          have inserts : record event = insertEvent event := by
            unfold record
            rw [own]
          exact steps_inserting program (inserts ▸ shape)
      | some key => exact steps_looking (record_looks own) (fun _ => rfl) shape
  | inserting => exact steps_inserting program shape
  | refused e taken =>
      obtain ⟨key, own, -⟩ := taken_iff.mp taken
      exact steps_looking (lookAgain_looks own e) (fun free => absurd taken free) shape
  | added => cases shape
  | found => cases shape

/-- One step of a call, whatever the others do. -/
theorem stands_commits (pool : Recorders) (index : Nat)
    (call : Call Statement Statement.Answer (Except DbError Bool)) (statement : Statement)
    (rest : statement.Answer → Sql Bool) (_ : pool.calls[index]? = some call)
    (stands : Stands pool.state call) (shape : call.rest = .call statement rest) (_ : True) :
    Stands (pool.state.execute statement).2 { call with
        rest := rest (pool.state.execute statement).1
        seen := ⟨statement, (pool.state.execute statement).1⟩ :: call.seen } ∧
      Pool.Commits Database.execute (fun reply => reply = .ok true) pool.state call statement
        rest ∧
      ∀ other ∈ pool.calls, Stands pool.state other →
        Stands (pool.state.execute statement).2 other := by
  obtain ⟨event, program, stage⟩ := stands
  obtain ⟨kept, moved, commits⟩ := stage.steps program shape
  refine ⟨⟨event, program, moved⟩, commits, ?_⟩
  rintro other - ⟨own, its, stage⟩
  exact ⟨own, its, stage.later (kept own)⟩

/-! ## What a run leaves in the ledger -/

/-- By induction on the calls in their order: each adds its row. -/
theorem replays_rows (events : List UsageEvent) (db final : Database)
    (history : List (Nat × Except DbError Bool))
    (added : ∀ entry ∈ history, entry.2 = .ok true)
    (replays : Pool.Replays Database.execute (events.map record) db history final) :
    final.events.rows = db.events.rows ++ history.filterMap (events[·.1]?) := by
  induction history generalizing db with
  | nil =>
      cases replays
      simp
  | cons entry history ih =>
      obtain ⟨index, reply⟩ := entry
      obtain ⟨program, present, value, rest⟩ := replays
      rw [List.getElem?_map] at present
      obtain ⟨event, listed, rfl⟩ := Option.map_eq_some_iff.mp present
      have success := added _ List.mem_cons_self
      rw [ih _ (fun other member => added other (List.mem_cons_of_mem _ member)) rest]
      rcases record_run db event with ⟨taken, run⟩ | ⟨free, run⟩
      · rw [run] at value
        subst success
        cases value
      · rw [run, List.filterMap_cons_some (f := fun entry : Nat × _ => events[entry.1]?) listed]
        rcases execute_insertEvent db event with ⟨-, next, inserted, -, rows⟩ | ⟨taken, -⟩
        · rw [inserted, rows, List.append_assoc]
          rfl
        · exact absurd taken free

theorem record_unreturned (event : UsageEvent) : (Call.fresh (record event)).returned = none := by
  cases own : event.idempotencyKey with
  | none =>
      have inserts : record event = insertEvent event := by
        unfold record
        rw [own]
      rw [Call.returned, Call.fresh, inserts]
      rfl
  | some key =>
      obtain ⟨_, _, -, same, -⟩ := record_looks own
      rw [Call.returned, Call.fresh, same]

/-- An event can be told from the row its recording leaves in an empty ledger. -/
theorem record_injective {event other : UsageEvent} (same : record event = record other) :
    event = other := by
  have leaves : ∀ event : UsageEvent,
      ((record event).run Database.execute Database.empty).2.events.rows = [event] := by
    intro event
    rcases record_run Database.empty event with ⟨taken, -⟩ | ⟨-, run⟩
    · obtain ⟨_, -, impossible⟩ := taken_iff.mp taken
      cases impossible
    · rcases execute_insertEvent Database.empty event with ⟨-, next, inserted, -, rows⟩ | ⟨taken, -⟩
      · rw [run, inserted, rows]
        rfl
      · obtain ⟨_, -, impossible⟩ := taken_iff.mp taken
        cases impossible
  have rows := leaves event
  rw [same, leaves other] at rows
  exact (List.singleton_inj.mp rows).symm

/-- Every call ends with an answer; the ledger has the rows it had and those of the calls
that returned true, and a call that returned false has its key in the ledger. -/
structure Recorded (events : List UsageEvent) (db : Database) (final : Recorders)
    (added : List Nat) : Prop where
  nodup : added.Nodup
  isAdded : ∀ index, index ∈ added ↔ final.returned index = some (.ok true)
  rows : final.state.events.rows = db.events.rows ++ added.filterMap (events[·]?)
  answers : ∀ index event, events[index]? = some event →
    final.returned index = some (.ok true) ∨
      Taken final.state event ∧ final.returned index = some (.ok false)

theorem recorded (db : Database) (events : List UsageEvent) (moves : List Nat) (final : Recorders)
    (run : Run.exec (Pool.step Database.execute) (Pool.start db (events.map record)) moves =
      some final)
    (finished : ∀ index < events.length, (final.returned index).isSome = true) :
    ∃ added, Recorded events db final added := by
  have unstarted : ∀ program ∈ events.map record,
      Stands db (Call.fresh program) ∧ (Call.fresh program).returned = none := by
    intro program member
    obtain ⟨event, -, rfl⟩ := List.mem_map.mp member
    exact ⟨⟨event, rfl, .unread⟩, record_unreturned event⟩
  obtain ⟨stands, ⟨history, nodup, entries, replays⟩, programs⟩ :=
    Pool.linearizable (fun _ _ => True) Stands (fun reply => reply = .ok true) stands_commits db
      (events.map record) unstarted final moves (Run.meets_true _ moves) run
  refine ⟨history.map Prod.fst, nodup, fun index => ?_, ?_, fun index event listed => ?_⟩
  · constructor
    · intro member
      obtain ⟨⟨found, reply⟩, here, rfl⟩ := List.mem_map.mp member
      obtain ⟨returned, success⟩ := (entries found reply).mp here
      rw [returned, success]
    · intro returned
      exact List.mem_map.mpr ⟨(index, .ok true), (entries index _).mpr ⟨returned, rfl⟩, rfl⟩
  · rw [replays_rows events db final.state history ?_ replays, List.filterMap_map]
    · rfl
    · rintro ⟨index, reply⟩ member
      exact ((entries index reply).mp member).2
  · have inside := (List.getElem?_eq_some_iff.mp listed).1
    obtain ⟨reply, returned⟩ := Option.isSome_iff_exists.mp (finished index inside)
    obtain ⟨call, present, ended⟩ := Option.bind_eq_some_iff.mp returned
    obtain ⟨own, program, stage⟩ := stands call (List.mem_of_getElem? present)
    have same : record event = record own := by
      have here := congrArg (·[index]?) programs
      simp only [List.getElem?_map, present, listed, Option.map_some, Option.some.injEq] at here
      rw [← program, here]
    obtain rfl := record_injective same
    unfold Call.returned at ended
    generalize call.rest = rest at ended stage
    cases stage with
    | unread =>
        have unreturned := record_unreturned event
        rw [Call.returned, Call.fresh, ended] at unreturned
        cases unreturned
    | inserting => cases ended
    | refused e taken =>
        obtain ⟨key, own, -⟩ := taken_iff.mp taken
        obtain ⟨_, _, -, again, -⟩ := lookAgain_looks own e
        rw [again] at ended
        cases ended
    | added =>
        cases ended
        exact Or.inl returned
    | found taken =>
        cases ended
        exact Or.inr ⟨taken, returned⟩

namespace Recorded

variable {events : List UsageEvent} {db : Database} {final : Recorders} {added : List Nat}

theorem sole (recorded : Recorded events db final added) {first second : Nat}
    {one two : UsageEvent} {key : String × String} (isFirst : first ∈ added)
    (isSecond : second ∈ added) (here : events[first]? = some one)
    (there : events[second]? = some two) (keyed : eventKey one = some key)
    (same : eventKey two = some key) : first = second := by
  have unique := final.state.events.unique
  rw [recorded.rows, List.filterMap_append, List.nodup_append] at unique
  have apart := unique.2.1
  rw [List.filterMap_filterMap, List.Nodup, List.pairwise_filterMap] at apart
  by_contra different
  have symmetric : Std.Symm fun i j : Nat =>
      ∀ k, ((events[i]?).bind eventKey) = some k → ∀ l, ((events[j]?).bind eventKey) = some l →
        k ≠ l := ⟨fun i j held k ofJ l ofI equal => held l ofI k ofJ equal.symm⟩
  have held := apart.forall isFirst isSecond different
  exact held key (by rw [here]; exact keyed) key (by rw [there]; exact same) rfl

theorem present (recorded : Recorded events db final added) {index : Nat} {event : UsageEvent}
    {key : String × String} (listed : events[index]? = some event)
    (keyed : eventKey event = some key) : ∃ row, final.state.events.find key = some row := by
  rcases recorded.answers index event listed with success | ⟨taken, -⟩
  · refine ⟨event, Table.find_eq_some.mpr ⟨?_, keyed⟩⟩
    rw [recorded.rows]
    refine List.mem_append_right _ (List.mem_filterMap.mpr ⟨index, ?_, listed⟩)
    exact (recorded.isAdded index).mpr success
  · rw [Taken, Table.accepts, keyed] at taken
    cases found : final.state.events.find key with
    | none => simp [found] at taken
    | some row => exact ⟨row, rfl⟩

end Recorded

/-- Whatever the order of their steps, of the calls that share a key that is new one adds
its row and returns true, and the others return false; a call without a key adds its row.
The ledger has no other rows than these and those it had. -/
theorem record_exactly_once (db : Database) (events : List UsageEvent) (moves : List Nat)
    (final : Recorders)
    (run : Run.exec (Pool.step Database.execute) (Pool.start db (events.map record)) moves =
      some final)
    (finished : ∀ index < events.length, (final.returned index).isSome = true) :
    (∀ key : String × String, db.events.find key = none →
      (∃ event ∈ events, eventKey event = some key) →
      final.state.events.rows.countP (fun row => eventKey row = some key) = 1 ∧
      ∃ winner, (events[winner]?).bind eventKey = some key ∧
        final.returned winner = some (.ok true) ∧
        ∀ index, (events[index]?).bind eventKey = some key → index ≠ winner →
          final.returned index = some (.ok false)) ∧
    (∀ index event, events[index]? = some event → event.idempotencyKey = none →
      final.returned index = some (.ok true)) ∧
    ∃ added : List Nat, added.Nodup ∧
      (∀ index, index ∈ added ↔ final.returned index = some (.ok true)) ∧
      final.state.events.rows = db.events.rows ++ added.filterMap (events[·]?) := by
  obtain ⟨added, recorded⟩ := recorded db events moves final run finished
  refine ⟨?_, ?_, added, recorded.nodup, recorded.isAdded, recorded.rows⟩
  · rintro key absent ⟨event, member, keyed⟩
    obtain ⟨asker, asks⟩ := List.getElem?_of_mem member
    obtain ⟨row, found⟩ := recorded.present asks keyed
    refine ⟨Table.countP_key found, ?_⟩
    obtain ⟨inRows, own⟩ := Table.find_eq_some.mp found
    rw [recorded.rows] at inRows
    rcases List.mem_append.mp inRows with old | new
    · exact absurd own (Table.find_eq_none.mp absent row old)
    · obtain ⟨winner, isAdded, listed⟩ := List.mem_filterMap.mp new
      refine ⟨winner, by rw [listed]; exact own, (recorded.isAdded winner).mp isAdded, ?_⟩
      intro index same other
      obtain ⟨mine, here, mineKeyed⟩ := Option.bind_eq_some_iff.mp same
      rcases recorded.answers index mine here with success | ⟨-, answer⟩
      · exact absurd (recorded.sole ((recorded.isAdded index).mpr success) isAdded here listed
          mineKeyed own) other
      · exact answer
  · intro index event listed keyless
    rcases recorded.answers index event listed with success | ⟨taken, -⟩
    · exact success
    · obtain ⟨key, own, -⟩ := taken_iff.mp taken
      rw [keyless] at own
      cases own

def keyedEvent : UsageEvent where
  tenantId := "t"
  keyId := none
  idempotencyKey := some "k"
  operation := .compress
  objectHash := some "h"
  bytesIn := 6
  bytesOut := 3
  bytesSaved := 3
  effort := "fast"
  codec := "stored"
  cpuMs := 0
  dedupScope := .none
  requestId := none
  occurredAtMs := 1

/-- Both calls find no key; the insertion of the second is refused, and it looks again. -/
theorem record_exactly_once_raced :
    ∃ final, Run.exec (Pool.step Database.execute)
        (Pool.start Database.empty ([keyedEvent, keyedEvent].map record)) [0, 1, 0, 1, 1] =
          some final ∧
      final.state.events.rows.countP (fun row => eventKey row = some ("t", "k")) = 1 := by
  refine ⟨_, rfl, ((record_exactly_once Database.empty [keyedEvent, keyedEvent] [0, 1, 0, 1, 1] _
    rfl ?_).1 ("t", "k") rfl ⟨keyedEvent, List.mem_cons_self, rfl⟩).1⟩
  intro index inside
  match index, inside with
  | 0, _ => rfl
  | 1, _ => rfl

end Usage

end Syntra

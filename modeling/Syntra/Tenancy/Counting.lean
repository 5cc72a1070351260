import Syntra.Lib.Pool
import Syntra.Tenancy

/-!
# Counting references

`add_grant` and `release_grant` read the row and then write a count computed
from it.  Run alone they count; run together they count as long as the row a
call has read still holds the same count when the call writes.
-/

set_option autoImplicit false

namespace Syntra

open Program

def Database.refs (db : Database) (tenantId objectHash : String) : Int :=
  ((db.findGrant tenantId objectHash).map (·.refs)).getD 0

/-- A grant that is there counts at least one reference. -/
def Database.Counts (db : Database) (tenantId objectHash : String) : Prop :=
  ∀ row, db.findGrant tenantId objectHash = some row → 1 ≤ row.refs

/-! ## One statement -/

theorem Database.execute_error (db : Database) (statement : Statement) (e : DbError)
    (failed : (db.execute statement).1 = .error e) : (db.execute statement).2 = db := by
  cases statement with
  | insertGrant tenantId row =>
      simp only [Database.execute] at failed ⊢
      split at failed
      · simp at failed
      · rfl
  | insertEvent event =>
      simp only [Database.execute] at failed ⊢
      split at failed
      · simp at failed
      · rfl
  | _ => simp [Database.execute] at failed

/-! ## Calls -/

inductive GrantCall where
  | add (name : String) (originalSize essenceSize nowMs : Int)
  | release (nowMs : Int)

inductive GrantReply where
  | added (result : Except DbError (Int × Bool))
  | released (result : Except DbError (Option Int))

namespace GrantReply

def isAdded : GrantReply → Bool
  | .added (.ok _) => true
  | _ => false

def isReleased : GrantReply → Bool
  | .released (.ok (some _)) => true
  | _ => false

def succeeded : GrantReply → Bool
  | .added (.ok _) | .released (.ok _) => true
  | _ => false

theorem succeeded_of_isAdded (reply : GrantReply) (added : reply.isAdded = true) :
    reply.succeeded = true := by
  cases reply with
  | added result => cases result <;> trivial
  | released result => cases added

theorem succeeded_of_isReleased (reply : GrantReply) (released : reply.isReleased = true) :
    reply.succeeded = true := by
  cases reply with
  | added result => cases released
  | released result => cases result <;> trivial

end GrantReply

namespace GrantCall

variable (tenantId objectHash : String)

def write (found : Option GrantRow) : GrantCall → Program Statement Statement.Answer GrantReply
  | .add name originalSize essenceSize nowMs =>
    (addGrantTo found tenantId objectHash name originalSize essenceSize nowMs).bind
      (.done ∘ .added)
  | .release nowMs =>
    (releaseGrantOf found tenantId objectHash false nowMs).bind (.done ∘ .released)

def program : GrantCall → Program Statement Statement.Answer GrantReply
  | .add name originalSize essenceSize nowMs =>
    (addGrant tenantId objectHash name originalSize essenceSize nowMs).bind (.done ∘ .added)
  | .release nowMs => (releaseGrant tenantId objectHash false nowMs).bind (.done ∘ .released)

theorem program_eq (asked : GrantCall) :
    ∃ next, asked.program tenantId objectHash = .call (.findGrant tenantId objectHash) next ∧
      ∀ found, next (.ok found) = asked.write tenantId objectHash found := by
  cases asked with
  | add name originalSize essenceSize nowMs => exact ⟨_, rfl, fun _ => rfl⟩
  | release nowMs => exact ⟨_, rfl, fun _ => rfl⟩

theorem run_program (asked : GrantCall) (db : Database) :
    (asked.program tenantId objectHash).run Database.execute db =
      (asked.write tenantId objectHash (db.findGrant tenantId objectHash)).run
        Database.execute db := by
  obtain ⟨next, program, reads⟩ := asked.program_eq tenantId objectHash
  rw [program, run_call, ← reads]
  rfl

theorem write_congr (asked : GrantCall) {found other : Option GrantRow}
    (same : found.map (·.refs) = other.map (·.refs)) :
    asked.write tenantId objectHash found = asked.write tenantId objectHash other := by
  cases found with
  | none =>
      rw [Option.map_none, eq_comm, Option.map_eq_none_iff] at same
      rw [same]
  | some row =>
      rw [Option.map_some, eq_comm, Option.map_eq_some_iff] at same
      obtain ⟨again, rfl, refs⟩ := same
      cases row
      cases again
      cases refs
      cases asked <;> rfl

/-- Having read the row a call is done, or sends one last statement. -/
theorem write_cases (asked : GrantCall) (found : Option GrantRow) :
    (∃ nowMs, asked = .release nowMs ∧ found = none) ∨
      ∃ statement, ∃ replyOf : statement.Answer → GrantReply,
        asked.write tenantId objectHash found = .call statement (fun answer => .done (replyOf answer)) ∧
        (∀ rows, (replyOf (.ok rows)).succeeded = true) ∧
        (∀ e, (replyOf (.error e)).succeeded = false) ∧
        (found = none → ∃ row, row.objectHash = objectHash ∧
          statement = .insertGrant tenantId row) := by
  cases asked with
  | add name originalSize essenceSize nowMs =>
      right
      cases found with
      | some row =>
          exact ⟨_, fun answer => .added (answer.map fun _ => (row.refs + 1, false)),
            Sql.bind_send _ _ _, fun _ => rfl, fun _ => rfl, by simp⟩
      | none =>
          exact ⟨_, fun answer => .added (answer.map fun _ => (1, true)),
            Sql.bind_send _ _ _, fun _ => rfl, fun _ => rfl, fun _ => ⟨_, rfl, rfl⟩⟩
  | release nowMs =>
      cases found with
      | none => exact Or.inl ⟨nowMs, rfl, rfl⟩
      | some row =>
          right
          simp only [write, releaseGrantOf, Bool.not_false, Bool.true_and, decide_eq_true_eq]
          by_cases many : 1 < row.refs
          · rw [if_pos many]
            exact ⟨_, fun answer => .released (answer.map fun _ => some (row.refs - 1)),
              Sql.bind_send _ _ _, fun _ => rfl, fun _ => rfl, by simp⟩
          · rw [if_neg many]
            exact ⟨_, fun answer => .released (answer.map fun _ => some 0),
              Sql.bind_send _ _ _, fun _ => rfl, fun _ => rfl, by simp⟩

end GrantCall

/-! ## Calls run alone -/

variable {tenantId objectHash : String}

theorem Database.refs_eq_zero_iff {db : Database} (counts : db.Counts tenantId objectHash) :
    db.refs tenantId objectHash = 0 ↔ db.findGrant tenantId objectHash = none := by
  unfold Database.refs
  cases found : db.findGrant tenantId objectHash with
  | none => simp
  | some row =>
      have positive := counts row found
      simp only [Option.map_some, Option.getD_some, reduceCtorEq, iff_false]
      omega

theorem run_add (db : Database) (counts : db.Counts tenantId objectHash) (name : String)
    (originalSize essenceSize nowMs : Int) :
    ∃ after : Database,
      ((GrantCall.add name originalSize essenceSize nowMs).program tenantId objectHash).run
          Database.execute db =
        (.added (.ok (db.refs tenantId objectHash + 1, db.findGrant tenantId objectHash = none)),
          after) ∧
      after.refs tenantId objectHash = db.refs tenantId objectHash + 1 ∧
      after.Counts tenantId objectHash := by
  rw [GrantCall.run_program]
  cases found : db.findGrant tenantId objectHash with
  | some row =>
      have positive := counts row found
      have after := db.findGrant_update tenantId objectHash (row.refs + 1) nowMs tenantId objectHash
      rw [if_pos rfl, found, Option.map_some] at after
      refine ⟨(db.execute (.updateGrant (row.refs + 1) nowMs tenantId objectHash)).2,
        ?_, ?_, ?_⟩
      · simp [GrantCall.write, addGrantTo, Sql.andThen, Sql.send, attempt, run_bind,
          Database.refs, found, Database.execute]
      · simp [Database.refs, after, found]
      · intro again present
        rw [after, Option.some.injEq] at present
        rw [← present]
        show 1 ≤ row.refs + 1
        omega
  | none =>
      let row : GrantRow := ⟨objectHash, 1, originalSize, essenceSize, name, nowMs, nowMs⟩
      rcases db.execute_insertGrant tenantId row with ⟨-, next, inserted, -, after⟩ | ⟨taken, -⟩
      · have here : next.findGrant tenantId objectHash = some row := by
          rw [after, if_pos rfl]
        refine ⟨next, ?_, ?_, ?_⟩
        · simp only [GrantCall.write, addGrantTo, Sql.andThen, Sql.send, attempt, run_bind,
            run_ask]
          rw [show db.execute (.insertGrant tenantId ⟨objectHash, 1, originalSize, essenceSize,
            name, nowMs, nowMs⟩) = (.ok (), next) from inserted]
          simp [Database.refs, found]
        · rw [Database.refs, here, Database.refs, found]
          rfl
        · intro again present
          rw [here, Option.some.injEq] at present
          rw [← present]
      · exact absurd found taken

theorem run_release (db : Database) (counts : db.Counts tenantId objectHash) (nowMs : Int) :
    ∃ after : Database,
      ((GrantCall.release nowMs).program tenantId objectHash).run Database.execute db =
        (.released (.ok (if db.findGrant tenantId objectHash = none then none
          else some (db.refs tenantId objectHash - 1))), after) ∧
      after.refs tenantId objectHash =
        (if db.findGrant tenantId objectHash = none then 0
          else db.refs tenantId objectHash - 1) ∧
      after.Counts tenantId objectHash := by
  rw [GrantCall.run_program]
  cases found : db.findGrant tenantId objectHash with
  | none => exact ⟨db, rfl, by simp [Database.refs, found], counts⟩
  | some row =>
      have positive := counts row found
      have refs : db.refs tenantId objectHash = row.refs := by simp [Database.refs, found]
      simp only [reduceCtorEq, if_false, refs]
      by_cases many : 1 < row.refs
      · have after := db.findGrant_update tenantId objectHash (row.refs - 1) nowMs tenantId
          objectHash
        rw [if_pos rfl, found, Option.map_some] at after
        refine ⟨(db.execute (.updateGrant (row.refs - 1) nowMs tenantId objectHash)).2,
          ?_, ?_, ?_⟩
        · simp [GrantCall.write, releaseGrantOf, Sql.andThen, Sql.send, attempt, run_bind,
            many, Database.execute]
        · simp [Database.refs, after]
        · intro again present
          rw [after, Option.some.injEq] at present
          rw [← present]
          show 1 ≤ row.refs - 1
          omega
      · have last : row.refs - 1 = 0 := by omega
        have after := db.findGrant_delete tenantId objectHash tenantId objectHash
        rw [if_pos rfl] at after
        refine ⟨(db.execute (.deleteGrant tenantId objectHash)).2, ?_, ?_, ?_⟩
        · simp [GrantCall.write, releaseGrantOf, Sql.andThen, Sql.send, attempt, run_bind,
            many, last, Database.execute]
        · rw [Database.refs, after, last]
          rfl
        · intro again present
          rw [after] at present
          simp at present

/-! ## Calls run together -/

/-- Where a call stands: nothing asked yet, the row read, or an answer. -/
def Started (tenantId objectHash : String)
    (call : Call Statement Statement.Answer GrantReply) : Prop :=
  ∃ asked : GrantCall, call.program = asked.program tenantId objectHash ∧
    (call.rest = call.program ∧ call.seen = [] ∨
      (∃ found, call.rest = asked.write tenantId objectHash found ∧
        call.seen = [⟨.findGrant tenantId objectHash, .ok found⟩]) ∨
      ∃ reply, call.rest = .done reply)

/-- The row that call `index` has read holds the same count still. -/
def Undisturbed (tenantId objectHash : String)
    (pool : Pool Database Statement Statement.Answer GrantReply) (index : Nat) : Prop :=
  ∀ call row, pool.calls[index]? = some call →
    call.seen = [⟨.findGrant tenantId objectHash, .ok (some row)⟩] →
    (pool.state.findGrant tenantId objectHash).map (·.refs) = some row.refs

/-- A write that goes through runs as if the call had run alone. -/
theorem write_commits (asked : GrantCall) (db : Database) (found : Option GrantRow)
    (undisturbed : ∀ row, found = some row →
      (db.findGrant tenantId objectHash).map (·.refs) = some row.refs)
    (call : Call Statement Statement.Answer GrantReply)
    (program : call.program = asked.program tenantId objectHash) (statement : Statement)
    (rest : statement.Answer → Program Statement Statement.Answer GrantReply)
    (shape : asked.write tenantId objectHash found = .call statement rest) :
    (∃ reply, rest (db.execute statement).1 = .done reply) ∧
      Pool.Commits Database.execute (fun reply => reply.succeeded = true) db call statement
        rest := by
  rcases asked.write_cases tenantId objectHash found with ⟨nowMs, rfl, rfl⟩ |
    ⟨_, replyOf, write, succeeds, fails, inserts⟩
  · simp [GrantCall.write, releaseGrantOf, Program.bind] at shape
  · rw [write] at shape
    cases shape
    refine ⟨⟨_, rfl⟩, ?_⟩
    show _ ∧ _ ∨ _ ∧ _
    cases answer : (db.execute statement).1 with
    | error e =>
        exact Or.inr ⟨by simp [fails], db.execute_error statement e answer⟩
    | ok rows =>
        have same : found.map (·.refs) = (db.findGrant tenantId objectHash).map (·.refs) := by
          cases read : found with
          | some row => exact (undisturbed row read).symm
          | none =>
              obtain ⟨row, rfl, rfl⟩ := inserts read
              rcases db.execute_insertGrant tenantId row with ⟨absent, -⟩ | ⟨-, e, refused⟩
              · rw [absent]
              · rw [refused] at answer
                simp at answer
        refine Or.inl ⟨succeeds rows, ?_⟩
        rw [program, GrantCall.run_program, ← asked.write_congr tenantId objectHash same, write,
          run_call, answer, run_done]

/-- One step of a call, in a pool whose rows are undisturbed. -/
theorem started_commits (pool : Pool Database Statement Statement.Answer GrantReply) (index : Nat)
    (call : Call Statement Statement.Answer GrantReply) (statement : Statement)
    (rest : statement.Answer → Program Statement Statement.Answer GrantReply)
    (present : pool.calls[index]? = some call) (started : Started tenantId objectHash call)
    (shape : call.rest = .call statement rest)
    (undisturbed : Undisturbed tenantId objectHash pool index) :
    Started tenantId objectHash { call with
        rest := rest (pool.state.execute statement).1
        seen := ⟨statement, (pool.state.execute statement).1⟩ :: call.seen } ∧
      Pool.Commits Database.execute (fun reply => reply.succeeded = true) pool.state call
        statement rest ∧
      ∀ other ∈ pool.calls, Started tenantId objectHash other → Started tenantId objectHash other := by
  refine and_assoc.mp ⟨?_, fun _ _ started => started⟩
  obtain ⟨asked, program, ⟨unread, unseen⟩ | ⟨found, wrote, seen⟩ | ⟨reply, finished⟩⟩ :=
    started
  · obtain ⟨next, selects, reads⟩ := asked.program_eq tenantId objectHash
    rw [unread, program, selects] at shape
    cases shape
    have went := reads (pool.state.findGrant tenantId objectHash)
    refine ⟨⟨asked, program, Or.inr (Or.inl ⟨_, went, by rw [unseen]; rfl⟩)⟩, ?_⟩
    have answer : pool.state.execute (.findGrant tenantId objectHash) =
        (.ok (pool.state.findGrant tenantId objectHash), pool.state) := rfl
    unfold Pool.Commits
    rw [answer, went]
    rcases asked.write_cases tenantId objectHash (pool.state.findGrant tenantId objectHash) with
      ⟨nowMs, rfl, absent⟩ | ⟨_, replyOf, write, -⟩
    · have alone := GrantCall.run_program tenantId objectHash (.release nowMs) pool.state
      rw [absent] at alone ⊢
      exact Or.inl ⟨rfl, program ▸ alone⟩
    · rw [write]
  · obtain ⟨⟨reply, finished⟩, commits⟩ := write_commits asked pool.state found
      (fun row read => undisturbed call row present (read ▸ seen)) call program statement rest
      (wrote.symm.trans shape)
    exact ⟨⟨asked, program, Or.inr (Or.inr ⟨reply, finished⟩)⟩, commits⟩
  · rw [finished] at shape
    cases shape

/-- By induction on the calls in their order: the references count them. -/
theorem replays_refs (calls : List GrantCall) (db final : Database)
    (history : List (Nat × GrantReply)) (counts : db.Counts tenantId objectHash)
    (replays : Pool.Replays Database.execute (calls.map (·.program tenantId objectHash)) db
      history final) :
    final.refs tenantId objectHash = db.refs tenantId objectHash +
        history.countP (fun entry => entry.2.isAdded) -
        history.countP (fun entry => entry.2.isReleased) ∧
      final.Counts tenantId objectHash := by
  induction history generalizing db with
  | nil =>
      cases replays
      exact ⟨by simp, counts⟩
  | cons entry history ih =>
      obtain ⟨index, reply⟩ := entry
      obtain ⟨program, present, value, rest⟩ := replays
      rw [List.getElem?_map] at present
      obtain ⟨asked, -, rfl⟩ := Option.map_eq_some_iff.mp present
      cases asked with
      | add name originalSize essenceSize nowMs =>
          obtain ⟨after, run, refs, kept⟩ := run_add db counts name originalSize essenceSize nowMs
          rw [run] at value rest
          obtain ⟨total, keptFinal⟩ := ih after kept rest
          refine ⟨?_, keptFinal⟩
          subst value
          rw [total, refs, List.countP_cons, List.countP_cons]
          simp only [GrantReply.isAdded, GrantReply.isReleased, Bool.false_eq_true, if_true,
            if_false]
          push_cast
          omega
      | release nowMs =>
          obtain ⟨after, run, refs, kept⟩ := run_release db counts nowMs
          rw [run] at value rest
          obtain ⟨total, keptFinal⟩ := ih after kept rest
          refine ⟨?_, keptFinal⟩
          subst value
          rw [total, refs, List.countP_cons, List.countP_cons]
          by_cases absent : db.findGrant tenantId objectHash = none
          · have zero := (Database.refs_eq_zero_iff counts).mpr absent
            simp [absent, zero, GrantReply.isAdded, GrantReply.isReleased]
          · simp only [absent, if_false, GrantReply.isAdded, GrantReply.isReleased,
              Bool.false_eq_true, if_true]
            push_cast
            omega

/-- In a run whose writes find the count they were computed from, the calls that
succeeded ran as if one after the other, and the references count them. -/
theorem undisturbed_grants_linearizable (tenantId objectHash : String) (db : Database)
    (calls : List GrantCall) (moves : List Nat)
    (final : Pool Database Statement Statement.Answer GrantReply)
    (counts : db.Counts tenantId objectHash)
    (run : Run.exec (Pool.step Database.execute)
      (Pool.start db (calls.map (·.program tenantId objectHash))) moves = some final)
    (undisturbed : Run.Meets (Pool.step Database.execute) (Undisturbed tenantId objectHash)
      (Pool.start db (calls.map (·.program tenantId objectHash))) moves) :
    final.state.refs tenantId objectHash = db.refs tenantId objectHash +
        final.tally GrantReply.isAdded - final.tally GrantReply.isReleased ∧
      (final.state.findGrant tenantId objectHash = none ↔
        db.refs tenantId objectHash + final.tally GrantReply.isAdded -
          final.tally GrantReply.isReleased = 0) ∧
      Pool.Sequential Database.execute (calls.map (·.program tenantId objectHash))
        (fun reply => reply.succeeded = true) db final := by
  have unstarted : ∀ program ∈ calls.map (·.program tenantId objectHash),
      Started tenantId objectHash (Call.fresh program) ∧
        (Call.fresh program).returned = none := by
    intro program member
    obtain ⟨asked, -, rfl⟩ := List.mem_map.mp member
    refine ⟨⟨asked, rfl, Or.inl ⟨rfl, rfl⟩⟩, ?_⟩
    obtain ⟨next, selects, -⟩ := asked.program_eq tenantId objectHash
    rw [Call.returned, Call.fresh, selects]
  have sequential := (Pool.linearizable (Undisturbed tenantId objectHash)
    (fun _ => Started tenantId objectHash) (fun reply => reply.succeeded = true)
    started_commits db (calls.map (·.program tenantId objectHash)) unstarted final moves
    undisturbed run).2.1
  obtain ⟨history, nodup, entries, replays⟩ := sequential
  obtain ⟨total, counted⟩ := replays_refs calls db final.state history counts replays
  rw [Pool.countP_history nodup entries GrantReply.isAdded,
    Pool.countP_history nodup entries GrantReply.isReleased] at total
  · refine ⟨total, ?_, history, nodup, entries, replays⟩
    rw [← total, Database.refs_eq_zero_iff counted]
  · exact fun reply released => reply.succeeded_of_isReleased released
  · exact fun reply added => reply.succeeded_of_isAdded added

def oneGrant : Database :=
  { grants := { rows := [("t", ⟨"h", 1, 6, 3, "a.csv", 1, 1⟩)], unique := by simp [grantKey] }
    events := Table.empty }

def twoUploads : List GrantCall := [.add "a.csv" 6 3 2, .add "b.csv" 6 3 3]

theorem oneGrant_counts : oneGrant.Counts "t" "h" := by
  intro row found
  cases found
  decide

theorem undisturbed_grants_linearizable_twoUploads :
    ∃ final, Run.exec (Pool.step Database.execute)
        (Pool.start oneGrant (twoUploads.map (·.program "t" "h"))) [0, 0, 1, 1] = some final ∧
      final.state.refs "t" "h" = oneGrant.refs "t" "h" + final.tally GrantReply.isAdded -
        final.tally GrantReply.isReleased := by
  refine ⟨_, rfl, (undisturbed_grants_linearizable "t" "h" oneGrant twoUploads [0, 0, 1, 1] _
    oneGrant_counts rfl ?_).1⟩
  refine Run.meets_cons rfl ?_ (Run.meets_cons rfl ?_ (Run.meets_cons rfl ?_
    (Run.meets_cons rfl ?_ trivial))) <;> intro call row present seen <;> cases present
  · cases seen
  · cases seen
    rfl
  · cases seen
  · cases seen
    rfl

/-- Both uploads read one reference and write two. -/
theorem twoUploads_lose_one :
    ∃ final, Run.exec (Pool.step Database.execute)
        (Pool.start oneGrant (twoUploads.map (·.program "t" "h"))) [0, 1, 0, 1] = some final ∧
      final.tally GrantReply.isAdded = 2 ∧ final.tally GrantReply.isReleased = 0 ∧
      final.state.refs "t" "h" ≠ oneGrant.refs "t" "h" + 2 := by
  refine ⟨_, rfl, by decide, by decide, by decide⟩

end Syntra

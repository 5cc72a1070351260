import Syntra.Lib.Program
import Syntra.Lib.Table
import Syntra.Proto

/-!
# The database

The tables of grants and of usage events, and the statements the engine sends.
Each statement is one atomic step.
-/

set_option autoImplicit false

namespace Syntra

abbrev DbError := String

/-! ## Rows -/

structure GrantRow where
  objectHash : String
  /-- An `i64`, which never gets to its bound. -/
  refs : Int
  originalSize : Int
  essenceSize : Int
  name : String
  createdAtMs : Int
  updatedAtMs : Int
  deriving Repr, DecidableEq

inductive Operation where
  | compress | decompress | read | analyze | delete
  deriving Repr, DecidableEq

def Operation.asStr : Operation → String
  | .compress => "compress"
  | .decompress => "decompress"
  | .read => "read"
  | .analyze => "analyze"
  | .delete => "delete"

inductive DedupScope where
  | none | tenant | global
  deriving Repr, DecidableEq

def DedupScope.asStr : DedupScope → String
  | .none => "none"
  | .tenant => "tenant"
  | .global => "global"

structure UsageEvent where
  tenantId : String
  keyId : Option String
  idempotencyKey : Option String
  operation : Operation
  objectHash : Option String
  bytesIn : Int
  bytesOut : Int
  bytesSaved : Int
  effort : String
  codec : String
  cpuMs : UInt64
  dedupScope : DedupScope
  requestId : Option String
  occurredAtMs : Int
  deriving Repr, DecidableEq

structure StoredEvent where
  operation : String
  objectHash : Option String
  bytesIn : Int
  bytesOut : Int
  bytesSaved : Int
  effort : String
  codec : String
  cpuMs : UInt64
  dedupScope : String
  occurredAtMs : Int
  deriving Repr, DecidableEq

/-- The columns `EVENT_COLUMNS` of a row. -/
def UsageEvent.stored (event : UsageEvent) : StoredEvent :=
  { operation := event.operation.asStr
    objectHash := event.objectHash
    bytesIn := event.bytesIn
    bytesOut := event.bytesOut
    bytesSaved := event.bytesSaved
    effort := event.effort
    codec := event.codec
    cpuMs := event.cpuMs
    dedupScope := event.dedupScope.asStr
    occurredAtMs := event.occurredAtMs }

/-! ## Tables -/

/-- The primary key of `object_grants`; a row is the tenant with the rest. -/
def grantKey (row : String × GrantRow) : Option (String × String) :=
  some (row.1, row.2.objectHash)

/-- The unique index of `usage_events`, null where there is no idempotency key. -/
def eventKey (event : UsageEvent) : Option (String × String) :=
  event.idempotencyKey.map (event.tenantId, ·)

structure Database where
  grants : Table grantKey
  events : Table eventKey

def Database.empty : Database := { grants := Table.empty, events := Table.empty }

/-! ## Statements -/

inductive Statement where
  | findGrant (tenantId objectHash : String)
  | updateGrant (refs nowMs : Int) (tenantId objectHash : String)
  | insertGrant (tenantId : String) (row : GrantRow)
  | deleteGrant (tenantId objectHash : String)
  | countGrants (objectHash : String)
  | findEvent (tenantId key : String)
  | insertEvent (event : UsageEvent)

namespace Statement

abbrev Rows : Statement → Type
  | .findGrant _ _ => Option GrantRow
  | .countGrants _ => Nat
  | .findEvent _ _ => Option StoredEvent
  | .updateGrant _ _ _ _ | .insertGrant _ _ | .deleteGrant _ _ | .insertEvent _ => Unit

abbrev Answer (statement : Statement) : Type := Except DbError statement.Rows

end Statement

/-- What a transaction of several statements is made of. -/
abbrev Sql (α : Type) := Program Statement Statement.Answer (Except DbError α)

def Sql.send (statement : Statement) : Sql statement.Rows := Program.ask statement

def Sql.andThen {α β : Type} (first : Sql α) (next : α → Sql β) : Sql β :=
  Program.attempt first id next

theorem Sql.bind_send {α β : Type} (statement : Statement) (value : statement.Rows → α)
    (wrap : Except DbError α → Program Statement Statement.Answer β) :
    Program.bind ((Sql.send statement).andThen fun rows => .done (.ok (value rows))) wrap =
      .call statement fun answer => wrap (answer.map value) := by
  simp only [Sql.andThen, Sql.send, Program.ask, Program.attempt, Program.bind]
  congr 1
  funext answer
  cases answer <;> rfl

namespace Database

def findGrant (db : Database) (tenantId objectHash : String) : Option GrantRow :=
  (db.grants.find (tenantId, objectHash)).map (·.2)

def setRefs (refs nowMs : Int) (row : String × GrantRow) : String × GrantRow :=
  (row.1, { row.2 with refs, updatedAtMs := nowMs })

theorem grantKey_setRefs (refs nowMs : Int) (row : String × GrantRow) :
    grantKey (setRefs refs nowMs row) = grantKey row := rfl

/-- One statement on a database that answers. -/
def execute (db : Database) : (statement : Statement) → statement.Answer × Database
  | .findGrant tenantId objectHash => (.ok (db.findGrant tenantId objectHash), db)
  | .updateGrant refs nowMs tenantId objectHash =>
    (.ok (), { db with
      grants := db.grants.modify (tenantId, objectHash) (setRefs refs nowMs)
        (grantKey_setRefs refs nowMs) })
  | .insertGrant tenantId row =>
    match db.grants.insert (tenantId, row) with
    | some grants => (.ok (), { db with grants })
    | none =>
      (.error "UNIQUE constraint failed: object_grants.tenant_id, object_grants.object_hash", db)
  | .deleteGrant tenantId objectHash =>
    (.ok (), { db with grants := db.grants.erase (tenantId, objectHash) })
  | .countGrants objectHash =>
    (.ok (db.grants.rows.countP fun row => row.2.objectHash = objectHash), db)
  | .findEvent tenantId key => (.ok ((db.events.find (tenantId, key)).map (·.stored)), db)
  | .insertEvent event =>
    match db.events.insert event with
    | some events => (.ok (), { db with events })
    | none =>
      (.error "UNIQUE constraint failed: usage_events.tenant_id, usage_events.idempotency_key", db)

/-! ## What a statement changes -/

variable (db : Database) (tenantId objectHash : String)

theorem findGrant_update (refs nowMs : Int) (tenant object : String) :
    (db.execute (.updateGrant refs nowMs tenantId objectHash)).2.findGrant tenant object =
      if (tenant, object) = (tenantId, objectHash) then
        (db.findGrant tenant object).map fun row => { row with refs, updatedAtMs := nowMs }
      else db.findGrant tenant object := by
  simp only [execute, findGrant, Table.find_modify]
  split
  · simp only [Option.map_map]
    rfl
  · rfl

theorem findGrant_delete (tenant object : String) :
    (db.execute (.deleteGrant tenantId objectHash)).2.findGrant tenant object =
      if (tenant, object) = (tenantId, objectHash) then none else db.findGrant tenant object := by
  simp only [execute, findGrant, Table.find_erase]
  split <;> rfl

theorem execute_insertGrant (row : GrantRow) :
    (db.findGrant tenantId row.objectHash = none ∧
      ∃ next, db.execute (.insertGrant tenantId row) = (.ok (), next) ∧
        next.events = db.events ∧ ∀ tenant object, next.findGrant tenant object =
          if (tenant, object) = (tenantId, row.objectHash) then some row
          else db.findGrant tenant object) ∨
    (db.findGrant tenantId row.objectHash ≠ none ∧
      ∃ e, db.execute (.insertGrant tenantId row) = (.error e, db)) := by
  cases inserted : db.grants.insert (tenantId, row) with
  | some grants =>
      have free := Table.accepts_iff.mp (Table.insert_eq_some inserted).1
        (tenantId, row.objectHash) rfl
      refine Or.inl ⟨by simp [findGrant, free], { db with grants }, ?_⟩
      simp only [execute, inserted]
      refine ⟨trivial, trivial, fun tenant object => ?_⟩
      simp only [findGrant, Table.find_insert inserted, grantKey, Option.some.injEq,
        eq_comm (a := (tenantId, row.objectHash))]
      split <;> rfl
  | none =>
      refine Or.inr ⟨?_, _, by simp only [execute, inserted]; rfl⟩
      intro absent
      have taken := Table.insert_eq_none.mp inserted
      have free : db.grants.accepts (tenantId, row) = true := by
        refine Table.accepts_iff.mpr fun k keyed => ?_
        cases Option.some.inj keyed
        simpa [findGrant] using absent
      rw [free] at taken
      simp at taken

end Database

end Syntra

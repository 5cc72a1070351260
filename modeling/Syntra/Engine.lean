import Syntra.Container
import Syntra.Tenancy
import Syntra.Usage
import Syntra.Vault

/-!
# The engine and what it calls

The state the requests share, and the calls they make on it.  Every call is one
atomic step whose outcome also depends on the outside: the clock, what fails,
what Redis and the directory of dictionaries do.
-/

set_option autoImplicit false

namespace Syntra

structure Engine where
  dictionaries : DictStore
  blobs : Digest → Option Bytes
  index : Digest → Option ObjectRef
  db : Database

def Engine.empty (dictionaries : DictStore) : Engine :=
  { dictionaries, blobs := fun _ => none, index := fun _ => none, db := Database.empty }

structure Outside where
  /-- The call fails with this message, if it can fail. -/
  fault : Option String
  /-- Which of the statements of a transaction fail. -/
  statementFault : Nat → Option DbError
  clock : Int
  elapsed : F64
  mtime : Nat
  redisOnline : Bool
  dictionaryWritten : Bool

structure Outside.Calm (outside : Outside) : Prop where
  fault : outside.fault = none
  statements : ∀ n, outside.statementFault n = none

structure World where
  engine : Engine
  outside : Nat → Outside

/-! ## Statements that may fail -/

def Database.executeOr (state : Database × (Nat → Option DbError)) (statement : Statement) :
    statement.Answer × (Database × (Nat → Option DbError)) :=
  let later := fun n => state.2 (n + 1)
  match state.2 0 with
  | some e => (.error e, (state.1, later))
  | none =>
    let (answer, db) := state.1.execute statement
    (answer, (db, later))

/-- The statements of `sql` one after the other, some of which may fail. -/
def Database.transact {α : Type} (db : Database) (faults : Nat → Option DbError) (sql : Sql α) :
    Except DbError α × Database :=
  let (result, (db, _)) := sql.run Database.executeOr (db, faults)
  (result, db)

/-! ## Calls -/

inductive EngineCall where
  | findEvent (tenantId key : String)
  | contains (hash : Digest)
  | readBlob (hash : Digest)
  | activeFor (contentClass : String)
  | observe (contentClass : String) (data : Bytes)
  | ensurePath (hash : Digest)
  | writeBlob (hash : Digest) (bytes : Bytes)
  | recordObject (hash : Digest) (name : String) (originalSize essenceSize : Nat) (nowMs : Int)
  | findGrant (tenantId objectHash : String)
  | addGrant (tenantId objectHash name : String) (originalSize essenceSize nowMs : Int)
  | releaseGrant (tenantId objectHash : String) (purge : Bool) (nowMs : Int)
  | countGrants (objectHash : String)
  | purge (hash : Digest)
  | recordUsage (event : UsageEvent)
  | nowMillis
  | elapsedMs

namespace EngineCall

abbrev Answer : EngineCall → Type
  | findEvent _ _ => Except DbError (Option StoredEvent)
  | contains _ => Bool
  | readBlob _ => Except IoError Bytes
  | activeFor _ => Option Dictionary
  | observe _ _ => Unit
  | ensurePath _ => Except String Unit
  | writeBlob _ _ => Except IoError Unit
  | recordObject _ _ _ _ _ => Except String Unit
  | findGrant _ _ => Except DbError (Option GrantRow)
  | addGrant _ _ _ _ _ _ => Except DbError (Int × Bool)
  | releaseGrant _ _ _ _ => Except DbError (Option Int)
  | countGrants _ => Except DbError Nat
  | purge _ => Except String Bool
  | recordUsage _ => Except DbError Bool
  | nowMillis => Int
  | elapsedMs => F64

end EngineCall

abbrev Handler (α : Type) := Program EngineCall EngineCall.Answer α

def Handler.send (call : EngineCall) : Handler call.Answer := Program.ask call

variable (P : Platform)

namespace Engine

def withDb {α : Type} (engine : Engine) (result : α × Database) : α × Engine :=
  (result.1, { engine with db := result.2 })

def perform (engine : Engine) (outside : Outside) : (call : EngineCall) → call.Answer × Engine
  | .findEvent tenantId key =>
    engine.withDb (engine.db.transact outside.statementFault
      (Usage.findByIdempotency tenantId key))
  | .contains hash => ((engine.blobs hash).isSome, engine)
  | .readBlob hash =>
    match outside.fault, engine.blobs hash with
    | some e, _ => (.error (.other e), engine)
    | none, none => (.error (.other "No such file or directory (os error 2)"), engine)
    | none, some bytes => (.ok bytes, engine)
  | .activeFor contentClass => (engine.dictionaries.activeFor contentClass, engine)
  | .observe contentClass data =>
    ((), { engine with
      dictionaries := engine.dictionaries.observe P contentClass data outside.mtime
        outside.redisOnline outside.dictionaryWritten })
  | .ensurePath _ => (outside.fault.elim (.ok ()) .error, engine)
  | .writeBlob hash bytes =>
    match outside.fault with
    | some e => (.error (.other e), engine)
    | none => (.ok (), { engine with blobs := Function.update engine.blobs hash (some bytes) })
  | .recordObject hash name originalSize essenceSize nowMs =>
    match outside.fault with
    | some e => (.error e, engine)
    | none =>
      (.ok (), { engine with
        index := Function.update engine.index hash
          (some (recordRef (engine.index hash) name originalSize essenceSize nowMs)) })
  | .findGrant tenantId objectHash =>
    engine.withDb (engine.db.transact outside.statementFault
      (Sql.send (.findGrant tenantId objectHash)))
  | .addGrant tenantId objectHash name originalSize essenceSize nowMs =>
    engine.withDb (engine.db.transact outside.statementFault
      (Syntra.addGrant tenantId objectHash name originalSize essenceSize nowMs))
  | .releaseGrant tenantId objectHash purge nowMs =>
    engine.withDb (engine.db.transact outside.statementFault
      (Syntra.releaseGrant tenantId objectHash purge nowMs))
  | .countGrants objectHash =>
    engine.withDb (engine.db.transact outside.statementFault (countGrantsForObject objectHash))
  | .purge hash =>
    match outside.fault with
    | some e => (.error e, engine)
    | none =>
      (.ok (engine.blobs hash).isSome, { engine with
        blobs := Function.update engine.blobs hash none
        index := Function.update engine.index hash none })
  | .recordUsage event =>
    engine.withDb (engine.db.transact outside.statementFault (Usage.record event))
  | .nowMillis => (outside.clock, engine)
  | .elapsedMs => (outside.elapsed, engine)

end Engine

def World.perform (world : World) (call : EngineCall) : call.Answer × World :=
  let (answer, engine) := world.engine.perform P (world.outside 0) call
  (answer, { engine, outside := fun n => world.outside (n + 1) })

end Syntra

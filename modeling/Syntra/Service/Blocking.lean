import Syntra.Engine.Calls
import Syntra.Service

/-!
# The blocking part of a request

What `compress_blocking` and its parts ask of the engine, and what they return.
-/

set_option autoImplicit false

namespace Syntra

open Program Text

variable {P : Platform} {config : Config} {req : CompressRequest}

abbrev Reads {α : Type} (good : α → Prop) (program : Handler α) : Prop :=
  program.Safe (Monitor.only EngineCall.leavesDb) (fun _ => good) ()

theorem Reads.run {α : Type} {good : α → Prop} {program : Handler α} (reads : Reads good program)
    (world : World) :
    (program.run (World.perform P) world).2.engine.db = world.engine.db ∧
      good (program.run (World.perform P) world).1 := by
  obtain ⟨_, kept, good⟩ := reads.run_keeps (World.perform P)
    (fun later _ => later.engine.db = world.engine.db)
    (fun state _ asked same other => (Engine.perform_db P _ _ asked other).trans same) world rfl
  exact ⟨kept, good⟩

theorem existingBlob_uses (hash : Digest) :
    (existingBlob P hash req).Uses EngineCall.leavesDb := by
  unfold existingBlob
  split
  · refine ⟨trivial, fun present => ?_⟩
    cases present with
    | false => trivial
    | true =>
        refine ⟨trivial, fun read => ?_⟩
        cases read <;> trivial
  · trivial

theorem verifyWrite_uses (planned : Planned) (data : Bytes) (dict : Option Bytes) :
    (verifyWrite P planned data dict req).Uses EngineCall.leavesDb := by
  unfold verifyWrite
  split
  · split
    · trivial
    · exact ⟨trivial, fun _ => trivial⟩
  · trivial

theorem persistSealed_uses (hash : Digest) (written : Sealed) :
    (persistSealed hash req written).Uses EngineCall.leavesDb := by
  unfold persistSealed
  split
  · refine Uses.attempt (Uses.ask (EngineCall.ensurePath hash) trivial) fun _ => ?_
    refine Uses.attempt (Uses.ask (EngineCall.writeBlob hash _) trivial) fun _ => ?_
    refine ⟨trivial, fun now => ?_⟩
    exact Uses.attempt (Uses.ask (EngineCall.recordObject hash _ _ _ _) trivial) fun _ => trivial
  · trivial

def OutcomeOf (hash : Digest) : Except EngineError BlockingOutcome → Prop
  | .ok outcome => outcome.hash = hash
  | .error _ => True

theorem compressFresh_reads (data : Bytes) (hash : Digest) :
    Reads (OutcomeOf hash) (compressFresh P config data req hash) := by
  refine ⟨trivial, fun dict => ?_⟩
  dsimp only
  split
  · trivial
  · refine ⟨trivial, fun compressMs => safe_attempt.mpr ?_⟩
    refine (verifyWrite_uses _ _ _).imp fun _ checked _ => ?_
    cases checked with
    | error e => trivial
    | ok times =>
        refine ⟨trivial, fun _ => ⟨trivial, fun now => safe_attempt.mpr ?_⟩⟩
        refine (persistSealed_uses hash _).imp fun _ published _ => ?_
        cases published with
        | error e => trivial
        | ok _ => exact rfl

theorem compressBlocking_reads (data : Bytes) :
    Reads (OutcomeOf (P.blake3 data)) (compressBlocking P config data req) := by
  refine safe_bind.mpr ((existingBlob_uses _).imp fun _ found _ => ?_)
  cases found with
  | some stored => exact rfl
  | none => exact compressFresh_reads data _

/-! ## Reading -/

def EngineCall.reading : EngineCall → Prop
  | findGrant _ _ | readBlob _ => True
  | _ => False

theorem EngineCall.reading.leaves {asked : EngineCall} (reads : asked.reading) :
    asked.leavesDb ∧ asked.leavesBlobs := by
  cases asked with
  | findGrant | readBlob => exact ⟨trivial, trivial⟩
  | _ => exact reads.elim

theorem loadContainer_uses (tenantId : String) (own : Digest) :
    (loadContainer tenantId own).Uses EngineCall.reading := by
  refine Uses.attempt ?_ fun _ => ?_
  · refine Uses.attempt (Uses.ask (EngineCall.findGrant _ _) trivial) fun grant => ?_
    split <;> trivial
  · exact Uses.attempt (Uses.ask (EngineCall.readBlob _) trivial) fun _ => trivial

theorem replay_uses (tenantId : String) (prev : StoredEvent) :
    (replay P tenantId prev).Uses EngineCall.reading := by
  unfold replay
  split
  · trivial
  · split
    · trivial
    · refine Uses.attempt ?_ fun envelope => ?_
      · exact Uses.attempt (loadContainer_uses _ _) fun _ => trivial
      · refine Uses.attempt (loadContainer_uses _ _) fun bytes => ?_
        exact ⟨trivial, fun _ => trivial⟩

/-! ## Deletion -/

def EngineCall.deleting : EngineCall → Prop
  | nowMillis | releaseGrant _ _ _ _ | countGrants _ | purge _ | recordUsage _ => True
  | _ => False

theorem purgeUngranted_uses (own : Digest) (remaining : Int) :
    (purgeUngranted own remaining).Uses EngineCall.deleting := by
  unfold purgeUngranted
  split
  · refine Uses.attempt (Uses.ask (EngineCall.countGrants _) trivial) fun others => ?_
    split
    · exact Uses.attempt (Uses.ask (EngineCall.purge _) trivial) fun _ => trivial
    · trivial
  · trivial

theorem deleteObject_uses (ctx : TenantContext) (own : Digest) (purge : Bool) :
    (deleteObject ctx own purge).Uses EngineCall.deleting := by
  refine ⟨trivial, fun now => ?_⟩
  refine Uses.attempt (Uses.ask (EngineCall.releaseGrant _ _ _ _) trivial) fun released => ?_
  split
  · trivial
  · refine Uses.attempt (purgeUngranted_uses own _) fun removed => ?_
    exact ⟨trivial, fun _ => ⟨trivial, fun _ => trivial⟩⟩

/-! ## Calls in the world -/

/-- No event has the key of the request. -/
def Unseen (ctx : TenantContext) (req : CompressRequest) (events : Table eventKey) : Prop :=
  ∀ key, req.idempotencyKey = some key → events.find (ctx.tenantId, key) = none

theorem perform_findEvent {tenantId key : String} {world later : World}
    {found : Option StoredEvent}
    (run : World.perform P world (.findEvent tenantId key) = (.ok found, later)) :
    found = (world.engine.db.events.find (tenantId, key)).map (·.stored) := by
  have answer : (world.engine.db.transact (world.outside 0).statementFault
      (Sql.send (.findEvent tenantId key))).1 = .ok found := congrArg Prod.fst run
  rw [Database.transact_send] at answer
  cases fault : (world.outside 0).statementFault 0 with
  | some e => simp [fault] at answer
  | none =>
      rw [fault] at answer
      exact (Except.ok.inj answer).symm

theorem perform_findEvent_engine (tenantId key : String) (world : World) :
    (World.perform P world (.findEvent tenantId key)).2.engine = world.engine := by
  have kept := world.engine.db.transact_reading (world.outside 0).statementFault
    (.findEvent tenantId key) rfl
  simp only [World.perform, Engine.perform, Engine.withDb, Usage.findByIdempotency, kept]

theorem perform_findGrant {world : World} (calm : (world.outside 0).Calm)
    (tenantId objectHash : String) :
    World.perform P world (.findGrant tenantId objectHash) =
      (.ok (world.engine.db.findGrant tenantId objectHash),
        { world with outside := fun n => world.outside (n + 1) }) := by
  have answer : world.engine.db.transact (world.outside 0).statementFault
      (Sql.send (.findGrant tenantId objectHash)) =
        (.ok (world.engine.db.findGrant tenantId objectHash), world.engine.db) := by
    rw [Database.transact_send, calm.statements]
    rfl
  simp only [World.perform, Engine.perform, answer, Engine.withDb]

theorem perform_addGrant (world : World) (tenantId objectHash name : String)
    (originalSize essenceSize nowMs : Int) :
    (∃ e, World.perform P world
        (.addGrant tenantId objectHash name originalSize essenceSize nowMs) =
          (.error e, { world with outside := fun n => world.outside (n + 1) })) ∨
      ∃ granted, ∃ next : Database, World.perform P world
        (.addGrant tenantId objectHash name originalSize essenceSize nowMs) =
          (.ok granted, { engine := { world.engine with db := next }
                          outside := fun n => world.outside (n + 1) }) ∧
        next.events = world.engine.db.events ∧ ∀ tenant object, next.findGrant tenant object =
          if (tenant, object) = (tenantId, objectHash) then
            some (Database.granted (world.engine.db.findGrant tenantId objectHash) objectHash name
              originalSize essenceSize nowMs)
          else world.engine.db.findGrant tenant object := by
  rcases world.engine.db.transact_addGrant (world.outside 0).statementFault tenantId
    objectHash name originalSize essenceSize nowMs with
    ⟨e, -, refused⟩ | ⟨-, next, done, events, rows⟩
  · left
    refine ⟨e, ?_⟩
    simp only [World.perform, Engine.perform, refused, Engine.withDb]
  · right
    refine ⟨((Database.granted (world.engine.db.findGrant tenantId objectHash) objectHash name
      originalSize essenceSize nowMs).refs,
      (world.engine.db.findGrant tenantId objectHash).isNone), next, ?_, events, rows⟩
    simp only [World.perform, Engine.perform, done, Engine.withDb]

section

variable (P)

/-- The world after `n` more calls that changed nothing. -/
def World.skip (world : World) (n : Nat) : World :=
  { world with outside := fun m => world.outside (m + n) }

structure World.Answers (world : World) : Prop where
  grant : (world.outside 0).statementFault 0 = none
  blob : (world.outside 1).fault = none

theorem requireGrant_eq_ok (world later : World) (tenantId : String) (hash : Digest) :
    (requireGrant tenantId hash).run (World.perform P) world = (.ok (), later) ↔
      (world.outside 0).statementFault 0 = none ∧
        world.engine.db.findGrant tenantId (hexEncode hash.val) ≠ none ∧ world.skip 1 = later := by
  have asks : World.perform P world (.findGrant tenantId (hexEncode hash.val)) =
      ((world.engine.db.transact (world.outside 0).statementFault
        (Sql.send (.findGrant tenantId (hexEncode hash.val)))).1, world.skip 1) := by
    have kept := world.engine.db.transact_reading (world.outside 0).statementFault
      (.findGrant tenantId (hexEncode hash.val)) rfl
    simp only [World.perform, Engine.perform, Engine.withDb, kept, World.skip]
  unfold requireGrant
  rw [run_attempt, Handler.send, run_ask, asks, Database.transact_send]
  cases (world.outside 0).statementFault 0 with
  | some e => simp
  | none =>
      simp only [Database.execute]
      cases world.engine.db.findGrant tenantId (hexEncode hash.val) <;> simp

theorem perform_findEvent_skip (world : World) (tenantId key : String) :
    World.perform P world (.findEvent tenantId key) =
      ((world.engine.db.transact (world.outside 0).statementFault
        (Sql.send (.findEvent tenantId key))).1, world.skip 1) := by
  have kept := world.engine.db.transact_reading (world.outside 0).statementFault
    (.findEvent tenantId key) rfl
  simp only [World.perform, Engine.perform, Engine.withDb, Usage.findByIdempotency, kept,
    World.skip]

theorem perform_findEvent_eq_ok (world later : World) (tenantId key : String)
    (found : Option StoredEvent) :
    World.perform P world (.findEvent tenantId key) = (.ok found, later) ↔
      (world.outside 0).statementFault 0 = none ∧
        (world.engine.db.events.find (tenantId, key)).map (·.stored) = found ∧
        world.skip 1 = later := by
  rw [perform_findEvent_skip, Database.transact_send]
  cases (world.outside 0).statementFault 0 with
  | some e => simp
  | none => simp [Database.execute]

theorem perform_readBlob_eq_ok (world later : World) (hash : Digest) (bytes : Bytes) :
    World.perform P world (.readBlob hash) = (.ok bytes, later) ↔
      (world.outside 0).fault = none ∧ world.engine.blobs hash = some bytes ∧
        world.skip 1 = later := by
  simp only [World.perform, Engine.perform]
  cases (world.outside 0).fault with
  | some e => simp
  | none =>
      cases world.engine.blobs hash with
      | none => simp
      | some own => simp [World.skip]

theorem loadContainer_eq_ok (world later : World) (tenantId : String) (hash : Digest)
    (bytes : Bytes) :
    (loadContainer tenantId hash).run (World.perform P) world = (.ok bytes, later) ↔
      world.Answers ∧ world.engine.db.findGrant tenantId (hexEncode hash.val) ≠ none ∧
        world.engine.blobs hash = some bytes ∧ world.skip 2 = later := by
  unfold loadContainer
  rw [run_attempt_eq_ok]
  constructor
  · rintro ⟨_, between, required, rest⟩
    obtain ⟨grant, granted, rfl⟩ := (requireGrant_eq_ok P world between tenantId hash).mp required
    obtain ⟨own, after, read, same⟩ := run_attempt_eq_ok.mp rest
    obtain ⟨blob, stored, rfl⟩ := (perform_readBlob_eq_ok P _ after hash own).mp read
    cases same
    exact ⟨⟨grant, blob⟩, granted, stored, rfl⟩
  · rintro ⟨answers, granted, stored, rfl⟩
    refine ⟨(), world.skip 1, (requireGrant_eq_ok P _ _ _ _).mpr ⟨answers.grant, granted, rfl⟩,
      run_attempt_eq_ok.mpr ⟨bytes, world.skip 2, ?_, rfl⟩⟩
    exact (perform_readBlob_eq_ok P _ _ hash bytes).mpr ⟨answers.blob, stored, rfl⟩

end

theorem loadContainer_reads (world : World) (calm : ∀ n, (world.outside n).Calm)
    {tenantId : String} {hash : Digest} {bytes : Bytes}
    (granted : world.engine.db.findGrant tenantId (hexEncode hash.val) ≠ none)
    (stored : world.engine.blobs hash = some bytes) :
    (loadContainer tenantId hash).run (World.perform P) world = (.ok bytes, world.skip 2) :=
  (loadContainer_eq_ok P _ _ _ _ _).mpr
    ⟨⟨(calm 0).statements 0, (calm 1).fault⟩, granted, stored, rfl⟩

end Syntra

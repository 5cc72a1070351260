import Syntra.FramingPlatform
import Syntra.Service.Blocking
import Syntra.Tenancy.Counting

/-!
# Grants and the ledger

A persisting request grants the object exactly when it succeeds, and a request
that fails leaves the database as it was.  The event of a request that succeeds
is in the ledger unless recording it failed, which is only logged.
-/

set_option autoImplicit false

namespace Syntra

open Program Text

/-- One more reference of the tenant, and `recorded` at the end of the ledger. -/
structure Charged (tenantId objectHash : String) (recorded : List UsageEvent)
    (before after : Database) : Prop where
  refs : after.refs tenantId objectHash = before.refs tenantId objectHash + 1
  others : ∀ tenant object, (tenant, object) ≠ (tenantId, objectHash) →
    after.findGrant tenant object = before.findGrant tenant object
  ledger : after.events.rows = before.events.rows ++ recorded

structure CompressEvent (ctx : TenantContext) (req : CompressRequest) (objectHash : String)
    (event : UsageEvent) : Prop where
  tenant : event.tenantId = ctx.tenantId
  key : event.idempotencyKey = req.idempotencyKey
  operation : event.operation = .compress
  object : event.objectHash = some objectHash

variable (P : Platform)

/-- A run that fails leaves the database; one that succeeds has its last call
record the event, which is lost only if that call fails. -/
structure Accounts {α : Type} (program : Handler (Except EngineError α)) (ctx : TenantContext)
    (req : CompressRequest) (objectHash : String) (world : World) : Prop where
  rejected : ∀ e after, program.run (World.perform P) world = (.error e, after) →
    after.engine.db = world.engine.db
  accepted : ∀ result after, program.run (World.perform P) world = (.ok result, after) →
    ∃ earlier event answer, program.trace (World.perform P) world =
        earlier ++ [⟨.recordUsage event, answer⟩] ∧
      CompressEvent ctx req objectHash event ∧
      Charged ctx.tenantId objectHash
        (if Database.recordFails (world.outside earlier.length).statementFault event then []
          else [event])
        world.engine.db after.engine.db

variable {P} {ctx : TenantContext} {req : CompressRequest} {objectHash : String}

namespace Accounts

theorem error {α : Type} (e : EngineError) (world : World) :
    Accounts (α := α) P (.done (.error e)) ctx req objectHash world where
  rejected := by
    rintro _ _ ⟨⟩
    rfl
  accepted := by
    rintro _ _ ⟨⟩

/-- What comes before in the run only reads the database. -/
theorem bind {α β : Type} {good : β → Prop} (first : Handler β) (reads : Reads good first)
    {next : β → Handler (Except EngineError α)} {world : World}
    (rest : ∀ value later, good value → first.run (World.perform P) world = (value, later) →
      later.engine.db = world.engine.db → Accounts P (next value) ctx req objectHash later) :
    Accounts P (first.bind next) ctx req objectHash world := by
  obtain ⟨kept, ends⟩ := reads.run (P := P) world
  have outside := fun n => World.run_outside P first world n
  have after := rest (first.run (World.perform P) world).1 (first.run (World.perform P) world).2
    ends rfl kept
  constructor
  · intro e final run
    rw [run_bind] at run
    exact (after.rejected e final run).trans kept
  · intro result final run
    rw [run_bind] at run
    obtain ⟨earlier, event, answer, trace, shape, charged⟩ := after.accepted result final run
    refine ⟨first.trace (World.perform P) world ++ earlier, event, answer, ?_, shape, ?_⟩
    · rw [trace_bind, trace, List.append_assoc]
    · rw [List.length_append, ← outside, ← kept]
      exact charged

theorem attempt {α β ε : Type} {good : Except ε β → Prop} (first : Handler (Except ε β))
    (reads : Reads good first) {failed : ε → EngineError}
    {next : β → Handler (Except EngineError α)} {world : World}
    (rest : ∀ value later, good (.ok value) →
      first.run (World.perform P) world = (.ok value, later) →
      later.engine.db = world.engine.db → Accounts P (next value) ctx req objectHash later) :
    Accounts P (first.attempt failed next) ctx req objectHash world := by
  refine bind first reads fun value later ends run kept => ?_
  cases value with
  | ok value => exact rest value later ends run kept
  | error e => exact error _ later

theorem reads_send (asked : EngineCall) (other : asked.leavesDb) :
    Reads (fun _ => True) (Handler.send asked) :=
  ⟨other, fun _ => trivial⟩

end Accounts

/-! ## The request -/

variable {config : Config}

theorem Unseen.accepts {events : Table eventKey} (unseen : Unseen ctx req events)
    {event : UsageEvent} (shape : CompressEvent ctx req objectHash event) :
    events.accepts event = true := by
  refine Table.accepts_iff.mpr fun key keyed => ?_
  rw [eventKey, shape.key, shape.tenant] at keyed
  obtain ⟨own, present, rfl⟩ := Option.map_eq_some_iff.mp keyed
  exact unseen own present

theorem refs_granted (found : Option GrantRow) (name : String)
    (originalSize essenceSize nowMs : Int) :
    (Database.granted found objectHash name originalSize essenceSize nowMs).refs =
      (found.map (·.refs)).getD 0 + 1 := by
  cases found <;> rfl

theorem grant_accounts {α : Type} (name : String) (originalSize essenceSize now : Int)
    (eventOf : Int × Bool → UsageEvent) (resultOf : Int × Bool → α) (world : World)
    (shape : ∀ granted, CompressEvent ctx req objectHash (eventOf granted))
    (unseen : Unseen ctx req world.engine.db.events) :
    Accounts P
      (attempt (Handler.send (.addGrant ctx.tenantId objectHash name originalSize essenceSize now))
        EngineError.internal fun granted =>
          .call (.recordUsage (eventOf granted)) fun _ => .done (.ok (resultOf granted)))
      ctx req objectHash world := by
  let asked : EngineCall :=
    .addGrant ctx.tenantId objectHash name originalSize essenceSize now
  let later : Database → World := fun db =>
    { engine := { world.engine with db }, outside := fun n => world.outside (n + 1) }
  rcases perform_addGrant (P := P) world ctx.tenantId objectHash name originalSize essenceSize
    now with ⟨e, call⟩ | ⟨granted, next, call, events, rows⟩
  · constructor
    · intro e after run
      rw [run_attempt, Handler.send, run_ask, call] at run
      cases run
      rfl
    · intro result after run
      rw [run_attempt, Handler.send, run_ask, call] at run
      cases run
  · change World.perform P world asked = (.ok granted, later next) at call
    have accepts := (events ▸ unseen : Unseen ctx req next.events).accepts (shape granted)
    have ledger := next.transact_record (world.outside 1).statementFault (eventOf granted) accepts
    have kept := next.transact_record_grants (world.outside 1).statementFault (eventOf granted)
    have grants : ∀ tenant object, (next.transact (world.outside 1).statementFault
        (Usage.record (eventOf granted))).2.findGrant tenant object =
          next.findGrant tenant object := by
      intro tenant object
      rw [Database.findGrant, kept, Database.findGrant]
    constructor
    · intro e after run
      rw [run_attempt, Handler.send, run_ask, call] at run
      cases run
    · intro result after run
      rw [run_attempt, Handler.send, run_ask, call] at run
      cases run
      let first : (made : EngineCall) × made.Answer := ⟨asked, .ok granted⟩
      refine ⟨[first], eventOf granted,
        (World.perform P (later next) (.recordUsage (eventOf granted))).1, ?_, shape granted, ?_⟩
      · have alone : (Handler.send asked).trace (World.perform P) world = [first] := by
          rw [Handler.send, ask, trace_call, call, trace_done]
        rw [attempt, trace_bind, alone, Handler.send, run_ask, call]
        rfl
      · refine ⟨?_, fun tenant object other => ?_, ?_⟩
        · have row := grants ctx.tenantId objectHash
          rw [rows, if_pos rfl] at row
          exact (congrArg (fun found => (found.map GrantRow.refs).getD 0) row).trans
            (refs_granted _ _ _ _ _)
        · have row := grants tenant object
          rw [rows, if_neg other] at row
          exact row
        · rw [← events]
          exact ledger

theorem account_accounts (originalSize : Nat) (outcome : BlockingOutcome) (now : Int)
    (world : World) (unseen : Unseen ctx req world.engine.db.events) :
    Accounts P (account P ctx req originalSize outcome now) ctx req (hexEncode outcome.hash.val)
      world := by
  refine Accounts.attempt _ (Accounts.reads_send (.findGrant _ _) trivial)
    fun grant later _ _ kept => ?_
  rw [← kept] at unseen
  exact grant_accounts _ _ _ now
    (fun _ => compressEvent ctx req originalSize outcome
      (P.addMs outcome.compressMs outcome.verifyMs) grant.isSome now)
    (fun granted => resultOf outcome (some granted.1) grant.isSome) later
    (fun _ => ⟨rfl, rfl, rfl, rfl⟩) unseen

theorem compressNew_accounts {data : Bytes} (persist : req.persist = true) (world : World)
    (unseen : Unseen ctx req world.engine.db.events) :
    Accounts P (compressNew P config ctx data req) ctx req (hexEncode (P.blake3 data).val)
      world := by
  refine Accounts.attempt _ (compressBlocking_reads data) fun outcome later same _ kept => ?_
  rw [← kept] at unseen
  refine Accounts.bind _ (Accounts.reads_send .nowMillis trivial) fun now after _ _ kept => ?_
  rw [← kept] at unseen
  rw [← show outcome.hash = P.blake3 data from same]
  rw [persist]
  exact account_accounts data.length outcome now after unseen

/-- A persisting request that is not a replay grants the object exactly when it
succeeds; then its event is in the ledger unless recording it failed. -/
theorem compress_accounts (P : Platform) (config : Config) (ctx : TenantContext) (data : Bytes)
    (req : CompressRequest) (world : World) (persist : req.persist = true)
    (unseen : Unseen ctx req world.engine.db.events) :
    ((∃ result, ((compress P config ctx data req).run (World.perform P) world).1 = .ok result) ↔
      ((compress P config ctx data req).run (World.perform P) world).2.engine.db.refs
          ctx.tenantId (hexEncode (P.blake3 data).val) =
        world.engine.db.refs ctx.tenantId (hexEncode (P.blake3 data).val) + 1) ∧
    Accounts P (compress P config ctx data req) ctx req (hexEncode (P.blake3 data).val) world := by
  have accounts : Accounts P (compress P config ctx data req) ctx req
      (hexEncode (P.blake3 data).val) world := by
    unfold compress
    cases key : req.idempotencyKey with
    | none => exact compressNew_accounts persist world unseen
    | some own =>
        refine Accounts.attempt _ (Accounts.reads_send (.findEvent _ _) trivial)
          fun found later _ run kept => ?_
        have absent := perform_findEvent (P := P) run
        rw [unseen own key, Option.map_none] at absent
        cases absent
        exact compressNew_accounts persist later (by rw [kept]; exact unseen)
  refine ⟨⟨?_, ?_⟩, accounts⟩
  · rintro ⟨result, ends⟩
    obtain ⟨_, _, _, -, -, charged⟩ := accounts.accepted result _ (Prod.ext ends rfl)
    exact charged.refs
  · intro counted
    cases ends : ((compress P config ctx data req).run (World.perform P) world).1 with
    | ok result => exact ⟨result, rfl⟩
    | error e =>
        rw [accounts.rejected e _ (Prod.ext ends rfl)] at counted
        omega

/-! ## A first upload -/

def quiet : Outside where
  fault := none
  statementFault _ := none
  clock := 1
  elapsed := 0
  mtime := 1
  redisOnline := false
  dictionaryWritten := true

def freshEngine : Engine := .empty (DictStore.load framingPlatform true none [])

def emptyUpload : CompressRequest where
  filename := "a.bin"
  mimeHint := none
  effort := .fast
  forced := { codec := none, level := none, useDictionary := none }
  verify := false
  persist := true
  allowDedup := true
  idempotencyKey := none
  requestId := none

def keyedUpload : CompressRequest := { emptyUpload with idempotencyKey := some "k" }

def sampleConfig : Config where
  limits := { probeThreshold := 50331648, probeSample := 8388608, keepOutputMax := 16777216 }
  maxDecompressedBytes := 4294967296

def sampleTenant : TenantContext := { tenantId := "t", keyId := none }

def oneStored (outside : Nat → Outside) : World :=
  { engine := ((compress framingPlatform sampleConfig sampleTenant [1] emptyUpload).run
      (World.perform framingPlatform)
        { engine := freshEngine, outside := fun _ => quiet }).2.engine
    outside }

def failsAt (n : Nat) : Nat → Outside := fun call =>
  if call = n then { quiet with statementFault := fun _ => some "disk full" } else quiet

/-- The next upload of `t`. -/
def uploadAgain (outside : Nat → Outside) : Except EngineError CompressResult × World :=
  (compress framingPlatform sampleConfig sampleTenant [1] keyedUpload).run
    (World.perform framingPlatform) (oneStored outside)

theorem uploadAgain_unseen (outside : Nat → Outside) :
    Unseen sampleTenant keyedUpload (oneStored outside).engine.db.events := by
  rintro key ⟨⟩
  exact (by decide +kernel : (oneStored fun _ => quiet).engine.db.events.find ("t", "k") = none)

/-- It counts once more, and not at all when the grant fails. -/
theorem compress_accounts_again :
    (∃ result after, uploadAgain (fun _ => quiet) = (.ok result, after) ∧
      after.engine.db.refs "t" (hexEncode oneHash.val) = 2) ∧
    ∃ e after, uploadAgain (failsAt 5) = (.error e, after) ∧
      after.engine.db = (oneStored (failsAt 5)).engine.db := by
  have accounts := fun outside => compress_accounts framingPlatform sampleConfig sampleTenant [1]
    keyedUpload (oneStored outside) rfl (uploadAgain_unseen outside)
  have held : (oneStored fun _ => quiet).engine.db.refs "t" (hexEncode oneHash.val) = 1 := by
    decide +kernel
  have succeeds : (uploadAgain fun _ => quiet).1.toOption.isSome = true := by decide +kernel
  have fails : (uploadAgain (failsAt 5)).1.toOption.isSome = false := by decide +kernel
  constructor
  · have counted := (accounts fun _ => quiet).1
    unfold uploadAgain at succeeds ⊢
    generalize (compress framingPlatform sampleConfig sampleTenant [1] _).run _ _ = ran
      at succeeds counted ⊢
    obtain ⟨_ | result, after⟩ := ran
    · cases succeeds
    · refine ⟨result, after, rfl, (counted.mp ⟨result, rfl⟩).trans ?_⟩
      exact congrArg (· + 1) held
  · have kept := (accounts (failsAt 5)).2.rejected
    unfold uploadAgain at fails ⊢
    generalize (compress framingPlatform sampleConfig sampleTenant [1] _).run _ _ = ran
      at fails kept ⊢
    obtain ⟨e | _, after⟩ := ran
    · exact ⟨e, after, rfl, kept e after rfl⟩
    · cases fails

/-- Only the last call of the request fails: the object is granted and no event is there. -/
theorem failed_event_is_lost :
    ∃ result after, (compress framingPlatform sampleConfig sampleTenant [] emptyUpload).run
        (World.perform framingPlatform)
        { engine := freshEngine
          outside := fun n =>
            if n = 12 then { quiet with statementFault := fun _ => some "database is locked" }
            else quiet } =
          (.ok result, after) ∧
      after.engine.db.refs "t" (hexEncode emptyHash.val) = 1 ∧
      after.engine.db.events.rows = [] :=
  ⟨_, _, rfl, rfl, rfl⟩

end Syntra

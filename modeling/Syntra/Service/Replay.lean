import Syntra.Service.Calm
import Syntra.Service.Essence

/-!
# Repeated requests

A request with the key of an earlier one is answered from the ledger, the
grants and the vault as they are now.
-/

set_option autoImplicit false

namespace Syntra

open Program Text

variable {P : Platform} {config : Config} {ctx : TenantContext} {req : CompressRequest}

/-! ## Events stay -/

theorem Database.execute_event (db : Database) (statement : Statement) {key : String × String}
    {event : UsageEvent} (found : db.events.find key = some event) :
    (db.execute statement).2.events.find key = some event := by
  cases statement with
  | insertEvent other =>
      simp only [execute]
      split
      · rename_i events inserted
        rw [Table.find_insert inserted, if_neg]
        · exact found
        · intro keyed
          have free := Table.accepts_iff.mp (Table.insert_eq_some inserted).1 key keyed
          rw [found] at free
          cases free
      · exact found
  | insertGrant tenant row =>
      simp only [execute]
      split <;> exact found
  | _ => exact found

theorem Engine.perform_event (engine : Engine) (outside : Outside) (call : EngineCall)
    {key : String × String} {event : UsageEvent} (found : engine.db.events.find key = some event) :
    (engine.perform P outside call).2.db.events.find key = some event := by
  by_cases leaves : call.leavesDb
  · rw [engine.perform_db P outside call leaves]
    exact found
  · have kept : ∀ {α : Type} (sql : Sql α),
        (engine.db.transact outside.statementFault sql).2.events.find key = some event :=
      fun sql => engine.db.transact_keeps outside.statementFault (Uses.any sql)
        (fun db => db.events.find key = some event)
        (fun db statement held _ => db.execute_event statement held) found
    cases call with
    | addGrant tenantId object name originalSize essenceSize nowMs =>
        exact kept (addGrant tenantId object name originalSize essenceSize nowMs)
    | releaseGrant tenantId object purge nowMs =>
        exact kept (releaseGrant tenantId object purge nowMs)
    | recordUsage recorded => exact kept (Usage.record recorded)
    | _ => exact absurd trivial leaves

theorem run_event {α : Type} (program : Handler α) (world : World) {key : String × String}
    {event : UsageEvent} (found : world.engine.db.events.find key = some event) :
    (program.run (World.perform P) world).2.engine.db.events.find key = some event :=
  (Uses.any program).run_keeps (World.perform P)
    (fun later => later.engine.db.events.find key = some event)
    (fun state asked held _ => state.engine.perform_event (state.outside 0) asked held) world found

theorem serveAll_event (world : World) (requests : List Request) {key : String × String}
    {event : UsageEvent} (found : world.engine.db.events.find key = some event) :
    (world.serveAll P config requests).engine.db.events.find key = some event := by
  induction requests generalizing world with
  | nil => exact found
  | cons request requests ih => exact ih _ (run_event _ world found)

/-! ## What a request answers -/

abbrev Replies {α : Type} (good : α → Prop) (program : Handler α) : Prop :=
  program.Safe (Monitor.only fun _ => True) (fun _ => good) ()

theorem Replies.run {α : Type} {good : α → Prop} {program : Handler α}
    (replies : Replies good program) (world : World) :
    good (program.run (World.perform P) world).1 := by
  obtain ⟨-, -, ends⟩ := replies.run_keeps (World.perform P) (fun _ _ => True)
    (fun _ _ _ _ _ => trivial) world trivial
  exact ends

/-- A success is about the object of `id`, computed anew or replayed. -/
def AnswersFor (id : String) (replayed : Bool) : Except EngineError CompressResult → Prop
  | .ok result => result.id = id ∧ result.replayed = replayed
  | .error _ => True

theorem compressNew_answers (data : Bytes) :
    Replies (AnswersFor (hexEncode (P.blake3 data).val) false)
      (compressNew P config ctx data req) := by
  have blocking : Replies (OutcomeOf (P.blake3 data)) (compressBlocking P config data req) :=
    Safe.under (compressBlocking_reads data) fun _ _ _ => trivial
  refine safe_attempt.mpr (blocking.imp fun _ result same => ?_)
  cases result with
  | error e => trivial
  | ok outcome =>
      have same : outcome.hash = P.blake3 data := same
      rw [← same]
      refine ⟨trivial, fun now => ?_⟩
      split
      · refine safe_attempt.mpr ⟨trivial, fun grant => ?_⟩
        cases grant with
        | error e => trivial
        | ok grant =>
            refine safe_attempt.mpr ⟨trivial, fun granted => ?_⟩
            cases granted with
            | error e => trivial
            | ok _ => exact ⟨trivial, fun _ => ⟨rfl, rfl⟩⟩
      · exact ⟨rfl, rfl⟩

theorem replay_answers (tenantId : String) (prev : StoredEvent) :
    (replay P tenantId prev).Safe (Monitor.only EngineCall.reading) (fun _ reply =>
      ∀ result, reply = .ok result →
        result.replayed = true ∧ prev.objectHash = some result.id) () := by
  have fails : ∀ e : EngineError, ∀ result : CompressResult,
      (.error e : Except EngineError CompressResult) = .ok result →
        result.replayed = true ∧ prev.objectHash = some result.id :=
    fun _ _ impossible => nomatch impossible
  unfold replay
  cases stored : prev.objectHash with
  | none => exact fun _ impossible => nomatch impossible
  | some hashHex =>
      rw [stored] at fails
      dsimp only
      cases parseId hashHex with
      | error e => exact fails _
      | ok hash =>
          have opening : (loadObject P tenantId hash).Uses EngineCall.reading :=
            Uses.attempt (loadContainer_uses tenantId hash) fun _ => trivial
          refine safe_attempt.mpr (opening.imp fun _ opened _ => ?_)
          cases opened with
          | error e => exact fails _
          | ok envelope =>
              refine safe_attempt.mpr ((loadContainer_uses tenantId hash).imp fun _ read _ => ?_)
              cases read with
              | error e => exact fails _
              | ok bytes =>
                  refine ⟨trivial, fun grant result ends => ?_⟩
                  cases ends
                  exact ⟨rfl, rfl⟩

/-! ## What a repetition finds -/

variable (P config req ctx)

/-- The tenant can open the object now: it holds a grant on it and the vault has its blob. -/
def Opens (world : World) (tenantId : String) (hash : Digest) : Prop :=
  world.engine.db.findGrant tenantId (hexEncode hash.val) ≠ none ∧
    ∃ bytes envelope, world.engine.Stores P hash bytes envelope

structure World.AnswersReplay (world : World) : Prop where
  event : (world.outside 0).statementFault 0 = none
  object : (world.skip 1).Answers
  container : (world.skip 3).Answers

theorem World.Calm.answersReplay {world : World} (calm : world.Calm) : world.AnswersReplay where
  event := (calm 0).statements 0
  object := calm.answers 1
  container := calm.answers 3

/-- The request was answered from the ledger with the object of `id`. -/
def ReplaysAs (id : String) (answer : Except EngineError CompressResult) : Prop :=
  ∃ result, answer = .ok result ∧ result.replayed = true ∧ result.id = id

theorem AnswersFor.not_replays {id other : String} {answer : Except EngineError CompressResult}
    (answers : AnswersFor id false answer) : ¬ ReplaysAs other answer := by
  rintro ⟨result, rfl, replayed, -⟩
  have fresh : result.replayed = false := answers.2
  rw [fresh] at replayed
  cases replayed

theorem replay_replays (world : World) (tenantId : String) (prev : StoredEvent) (id : String) :
    ReplaysAs id ((replay P tenantId prev).run (World.perform P) world).1 ↔
      prev.objectHash = some id ∧ world.Answers ∧ (world.skip 2).Answers ∧
        ∃ hash, parseId id = .ok hash ∧ Opens P world tenantId hash := by
  unfold replay
  cases prev.objectHash with
  | none => simp [ReplaysAs]
  | some hashHex =>
      dsimp only
      cases parsed : parseId hashHex with
      | error e =>
          constructor
          · rintro ⟨result, impossible, -⟩
            cases impossible
          · rintro ⟨same, -, -, hash, read, -⟩
            rw [← Option.some.inj same, parsed] at read
            cases read
      | ok hash =>
          dsimp only
          constructor
          · rintro ⟨result, ends, -, rfl⟩
            obtain ⟨envelope, between, loaded, rest⟩ :=
              run_attempt_eq_ok.mp (Prod.ext ends rfl)
            obtain ⟨answers, granted, ⟨own, stored⟩, rfl⟩ :=
              (loadObject_eq_ok P _ _ _ _ _).mp loaded
            obtain ⟨bytes, after, read, last⟩ := run_attempt_eq_ok.mp rest
            obtain ⟨again, -⟩ := (loadContainer_eq_ok P _ _ _ _ _).mp read
            have same : result.id = hashHex :=
              congrArg CompressResult.id (Except.ok.inj (Prod.mk.inj last).1).symm
            rw [same]
            exact ⟨rfl, answers, again, hash, parsed, granted, own, envelope, stored⟩
          · rintro ⟨same, answers, again, own, read, granted, bytes, envelope, stored⟩
            cases same
            cases parsed.symm.trans read
            have loaded := (loadObject_eq_ok P world _ tenantId hash envelope).mpr
              ⟨answers, granted, ⟨bytes, stored⟩, rfl⟩
            have read := (loadContainer_eq_ok P (world.skip 2) _ tenantId hash bytes).mpr
              ⟨again, granted, stored.1, rfl⟩
            rw [run_attempt, loaded]
            dsimp only
            rw [run_attempt, read]
            exact ⟨_, rfl, rfl, rfl⟩

theorem compress_seen (data : Bytes) (world : World) {key : String}
    (keyed : req.idempotencyKey = some key) (answers : (world.outside 0).statementFault 0 = none)
    {prev : UsageEvent} (found : world.engine.db.events.find (ctx.tenantId, key) = some prev) :
    (compress P config ctx data req).run (World.perform P) world =
      (replay P ctx.tenantId prev.stored).run (World.perform P) (world.skip 1) := by
  have looks := (perform_findEvent_eq_ok P world _ ctx.tenantId key _).mpr ⟨answers, rfl, rfl⟩
  unfold compress
  rw [keyed]
  dsimp only
  rw [run_attempt, Handler.send, run_ask, looks, found]
  rfl

theorem compress_unseen (data : Bytes) (world : World) {key : String}
    (keyed : req.idempotencyKey = some key) (answers : (world.outside 0).statementFault 0 = none)
    (absent : world.engine.db.events.find (ctx.tenantId, key) = none) :
    (compress P config ctx data req).run (World.perform P) world =
      (compressNew P config ctx data req).run (World.perform P) (world.skip 1) := by
  have looks := (perform_findEvent_eq_ok P world _ ctx.tenantId key _).mpr ⟨answers, rfl, rfl⟩
  unfold compress
  rw [keyed]
  dsimp only
  rw [run_attempt, Handler.send, run_ask, looks, absent]
  rfl

theorem compress_unanswered (data : Bytes) (world : World) {key : String}
    (keyed : req.idempotencyKey = some key) {e : DbError}
    (fault : (world.outside 0).statementFault 0 = some e) :
    ((compress P config ctx data req).run (World.perform P) world).1 = .error (.internal e) := by
  have failed : World.perform P world (.findEvent ctx.tenantId key) =
      (.error e, world.skip 1) := by
    rw [perform_findEvent_skip, Database.transact_send, fault]
  unfold compress
  rw [keyed]
  dsimp only
  rw [run_attempt, Handler.send, run_ask, failed]

/-- A request with a key is replayed exactly when its event names an object that the tenant
can open. -/
theorem compress_replays (data : Bytes) (world : World) {key : String}
    (keyed : req.idempotencyKey = some key) (id : String) :
    ReplaysAs id ((compress P config ctx data req).run (World.perform P) world).1 ↔
      world.AnswersReplay ∧
        (∃ event, world.engine.db.events.find (ctx.tenantId, key) = some event ∧
          event.objectHash = some id) ∧
        ∃ hash, parseId id = .ok hash ∧ Opens P world ctx.tenantId hash := by
  cases fault : (world.outside 0).statementFault 0 with
  | some e =>
      rw [compress_unanswered P config ctx req data world keyed fault]
      constructor
      · rintro ⟨result, impossible, -⟩
        cases impossible
      · rintro ⟨answers, -⟩
        rw [answers.event] at fault
        cases fault
  | none =>
      cases found : world.engine.db.events.find (ctx.tenantId, key) with
      | none =>
          rw [compress_unseen P config ctx req data world keyed fault found]
          constructor
          · intro replays
            exact absurd replays ((compressNew_answers data).run (world.skip 1)).not_replays
          · rintro ⟨-, ⟨_, absent, -⟩, -⟩
            cases absent
      | some prev =>
          rw [compress_seen P config ctx req data world keyed fault found]
          refine (replay_replays P (world.skip 1) ctx.tenantId prev.stored id).trans ?_
          constructor
          · rintro ⟨names, object, container, opens⟩
            exact ⟨⟨fault, object, container⟩, ⟨prev, rfl, names⟩, opens⟩
          · rintro ⟨answers, ⟨_, same, names⟩, opens⟩
            cases same
            exact ⟨names, answers.object, answers.container, opens⟩

/-- The request was replayed, and nothing was written. -/
def ReplaysOnly (id : String) (world : World)
    (ran : Except EngineError CompressResult × World) : Prop :=
  ReplaysAs id ran.1 ∧ ran.2.engine.db = world.engine.db ∧ ran.2.engine.blobs = world.engine.blobs

theorem compress_replaysOnly (data : Bytes) (world : World) {key : String}
    (keyed : req.idempotencyKey = some key) (id : String) :
    ReplaysOnly id world ((compress P config ctx data req).run (World.perform P) world) ↔
      ReplaysAs id ((compress P config ctx data req).run (World.perform P) world).1 := by
  constructor
  · intro only
    exact only.1
  · intro replays
    obtain ⟨answers, ⟨prev, found, -⟩, -⟩ :=
      (compress_replays P config ctx req data world keyed id).mp replays
    refine ⟨replays, ?_⟩
    rw [compress_seen P config ctx req data world keyed answers.event found]
    have leaves : Leaves (replay P ctx.tenantId prev.stored) :=
      (replay_uses ctx.tenantId prev.stored).mono fun _ => EngineCall.reading.leaves
    exact leaves.run (world.skip 1)

/-! ## Repetitions in a history -/

/-- A success names an object, and while nothing fails its event is in the ledger. -/
theorem compress_names (data : Bytes) (world : World) {key : String}
    (keyed : req.idempotencyKey = some key) (persist : req.persist = true)
    {result : CompressResult} {after : World}
    (ran : (compress P config ctx data req).run (World.perform P) world = (.ok result, after)) :
    (∃ hash, parseId result.id = .ok hash) ∧
      (world.Calm → ∃ event, after.engine.db.events.find (ctx.tenantId, key) = some event ∧
        event.objectHash = some result.id) := by
  cases fault : (world.outside 0).statementFault 0 with
  | some e =>
      have failed := compress_unanswered P config ctx req data world keyed fault
      rw [ran] at failed
      cases failed
  | none =>
      cases found : world.engine.db.events.find (ctx.tenantId, key) with
      | some prev =>
          have replayed : result.replayed = true := by
            have replies : Replies (fun reply => ∀ result, reply = .ok result →
                result.replayed = true ∧ prev.objectHash = some result.id)
                (replay P ctx.tenantId prev.stored) :=
              Safe.under (replay_answers ctx.tenantId prev.stored) fun _ _ _ => trivial
            have answer := replies.run (P := P) (world.skip 1)
            rw [← compress_seen P config ctx req data world keyed fault found, ran] at answer
            exact (answer result rfl).1
          have replays : ReplaysAs result.id
              ((compress P config ctx data req).run (World.perform P) world).1 := by
            rw [ran]
            exact ⟨result, rfl, replayed, rfl⟩
          obtain ⟨-, ⟨event, there, names⟩, hash, parsed, -⟩ :=
            (compress_replays P config ctx req data world keyed result.id).mp replays
          refine ⟨⟨hash, parsed⟩, fun _ => ⟨event, ?_, names⟩⟩
          have stays := run_event (P := P) (compress P config ctx data req) world there
          rw [ran] at stays
          exact stays
      | none =>
          have id : result.id = hexEncode (P.blake3 data).val := by
            have replies : Replies (AnswersFor (hexEncode (P.blake3 data).val) false)
                (compressNew P config ctx data req) := compressNew_answers data
            have answers := replies.run (P := P) (world.skip 1)
            rw [← compress_unseen P config ctx req data world keyed fault found, ran] at answers
            exact answers.1
          refine ⟨⟨P.blake3 data, by rw [id, parseId_hexEncode]⟩, fun calm => ?_⟩
          have unseen : Unseen ctx req world.engine.db.events := by
            intro own same
            rw [keyed, Option.some.injEq] at same
            rw [← same, found]
          obtain ⟨earlier, event, answer, -, shape, charged⟩ :=
            (compress_accounts P config ctx data req world persist unseen).2.accepted result after
              ran
          refine ⟨event, Table.find_eq_some.mpr ⟨?_, ?_⟩, by rw [shape.object, id]⟩
          · rw [charged.ledger]
            simp [Database.recordFails, (calm _).statements]
          · rw [eventKey, shape.key, shape.tenant, keyed]
            rfl

/-- A later request with the key of an earlier success is a replay of it exactly when the
event of that is in the ledger, the tenant can open the object and the reads come through.
While nothing fails that is: when the tenant holds a grant on the object. -/
theorem repetition_replays_iff (P : Platform) (framed : P.Framed) (config : Config)
    (dictionaries : DictStore) (outside : Nat → Outside) (earlier between : List Request)
    (ctx again : TenantContext) (data more : Bytes) (req retry : CompressRequest) (key : String)
    (persist : req.persist = true) (keyed : req.idempotencyKey = some key)
    (sameTenant : again.tenantId = ctx.tenantId) (sameKey : retry.idempotencyKey = some key)
    (result : CompressResult) (after before : World)
    (first : (compress P config ctx data req).run (World.perform P)
      (World.serveAll P config { engine := .empty dictionaries, outside } earlier) =
        (.ok result, after))
    (reached : before = after.serveAll P config between) :
    ∃ hash, parseId result.id = .ok hash ∧
      (ReplaysOnly result.id before
          ((compress P config again more retry).run (World.perform P) before) ↔
        before.AnswersReplay ∧
          (∃ event, before.engine.db.events.find (ctx.tenantId, key) = some event ∧
            event.objectHash = some result.id) ∧
          Opens P before ctx.tenantId hash) ∧
      ((∀ n, (outside n).Calm) →
        (ReplaysOnly result.id before
            ((compress P config again more retry).run (World.perform P) before) ↔
          before.engine.db.findGrant ctx.tenantId (hexEncode hash.val) ≠ none)) := by
  obtain ⟨⟨hash, parsed⟩, recorded⟩ :=
    compress_names P config ctx req data _ keyed persist first
  have exact_iff : ReplaysOnly result.id before
        ((compress P config again more retry).run (World.perform P) before) ↔
      before.AnswersReplay ∧
        (∃ event, before.engine.db.events.find (ctx.tenantId, key) = some event ∧
          event.objectHash = some result.id) ∧
        Opens P before ctx.tenantId hash := by
    rw [compress_replaysOnly P config again retry more before sameKey,
      compress_replays P config again retry more before sameKey, sameTenant]
    constructor
    · rintro ⟨answers, event, own, read, opens⟩
      cases parsed.symm.trans read
      exact ⟨answers, event, opens⟩
    · rintro ⟨answers, event, opens⟩
      exact ⟨answers, event, hash, parsed, opens⟩
  refine ⟨hash, parsed, exact_iff, fun calm => exact_iff.trans ?_⟩
  have start : World.Calm { engine := .empty dictionaries, outside } := calm
  have calmFirst : (World.serveAll P config { engine := .empty dictionaries, outside }
      earlier).Calm := start.serveAll earlier
  have calmAfter : after.Calm := by
    have run := calmFirst.run P (compress P config ctx data req)
    rw [first] at run
    exact run
  have calmBefore : before.Calm := reached ▸ calmAfter.serveAll between
  obtain ⟨event, found, names⟩ := recorded calmFirst
  have stays : (after.serveAll P config between).engine.db.events.find _ = some event :=
    serveAll_event after between found
  rw [← reached] at stays
  have holds : Holds P hash before.engine := by
    have all : before = World.serveAll P config { engine := .empty dictionaries, outside }
        (earlier ++ .compress ctx data req :: between) := by
      rw [World.serveAll, List.foldl_append, List.foldl_cons, reached]
      rw [World.serve_compress]
      rw [World.serveAll] at first
      rw [first]
      rfl
    rw [all]
    exact serveAll_holds framed _ start.working _ (Holds.empty dictionaries)
  constructor
  · rintro ⟨-, -, granted, -⟩
    exact granted
  · intro granted
    obtain ⟨bytes, stored⟩ := Option.ne_none_iff_exists'.mp (holds.backed _ granted)
    obtain ⟨envelope, opened⟩ := holds.parses bytes stored
    exact ⟨calmBefore.answersReplay, ⟨event, stays, names⟩, granted, bytes, envelope, stored,
      opened⟩

def quietWorld : World := { engine := freshEngine, outside := fun _ => quiet }

/-- `t` has uploaded the empty file under the key `k`. -/
def keyedUploaded : Except EngineError CompressResult × World :=
  (compress framingPlatform sampleConfig sampleTenant [] keyedUpload).run
    (World.perform framingPlatform) quietWorld

theorem keyedUploaded_ok :
    ∃ result, keyedUploaded.1 = .ok result ∧ result.id = hexEncode emptyHash.val := ⟨_, rfl, rfl⟩

/-- `u` uploads the same and deletes it. -/
def betweenUploads : List Request :=
  [.compress otherTenant [] emptyUpload, .delete otherTenant emptyHash false]

theorem repetition_replays_iff_between :
    ∃ result, keyedUploaded.1 = .ok result ∧
      ReplaysOnly result.id (keyedUploaded.2.serveAll framingPlatform sampleConfig betweenUploads)
        ((compress framingPlatform sampleConfig sampleTenant [1] keyedUpload).run
          (World.perform framingPlatform)
            (keyedUploaded.2.serveAll framingPlatform sampleConfig betweenUploads)) := by
  obtain ⟨result, succeeds, id⟩ := keyedUploaded_ok
  obtain ⟨hash, parsed, -, calmly⟩ := repetition_replays_iff framingPlatform
    framingPlatform_decodeFile sampleConfig (DictStore.load framingPlatform true none [])
    (fun _ => quiet) [] betweenUploads sampleTenant sampleTenant [] [1] keyedUpload keyedUpload "k"
    rfl rfl rfl rfl result keyedUploaded.2 _ (Prod.ext succeeds rfl) rfl
  refine ⟨result, succeeds, (calmly fun _ => ⟨rfl, fun _ => rfl⟩).mpr ?_⟩
  rw [id, parseId_hexEncode] at parsed
  cases parsed
  decide +kernel

/-- The tenant deletes the object before it repeats the request. -/
theorem repetition_after_delete :
    (∃ result, keyedUploaded.1 = .ok result) ∧
      ∀ id, ¬ ReplaysOnly id
        (keyedUploaded.2.serve framingPlatform sampleConfig (.delete sampleTenant emptyHash false))
        ((compress framingPlatform sampleConfig sampleTenant [] keyedUpload).run
          (World.perform framingPlatform) (keyedUploaded.2.serve framingPlatform sampleConfig
            (.delete sampleTenant emptyHash false))) := by
  refine ⟨keyedUploaded_ok.imp fun _ => And.left, fun id replays => ?_⟩
  obtain ⟨result, succeeds, -⟩ := replays.1
  have refused : ((compress framingPlatform sampleConfig sampleTenant [] keyedUpload).run
      (World.perform framingPlatform) (keyedUploaded.2.serve framingPlatform sampleConfig
        (.delete sampleTenant emptyHash false))).1.toOption.isNone = true := by
    decide +kernel
  rw [succeeds] at refused
  cases refused

end Syntra

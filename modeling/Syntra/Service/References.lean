import Syntra.Lib.RefCount
import Syntra.Service.Replay

/-!
# The store as a map of reference counts

Requests that run one after the other, while nothing fails, act on grants and
blobs as acquisitions and releases act on reference counts.
-/

set_option autoImplicit false

namespace Syntra

open Program Text

/-! ## A release -/

def releasedRefs (refs : Int) (purge : Bool) : Option Int :=
  if !purge && decide (1 < refs) then some (refs - 1) else none

theorem Database.transact_release (db : Database) (tenantId objectHash : String) (purge : Bool)
    (nowMs : Int) (faults : Nat → Option DbError) (calm : ∀ n, faults n = none) (row : GrantRow)
    (found : db.findGrant tenantId objectHash = some row) :
    ∃ next : Database, db.transact faults (releaseGrant tenantId objectHash purge nowMs) =
        (.ok (some ((releasedRefs row.refs purge).getD 0)), next) ∧
      ∀ tenant object, (next.findGrant tenant object).map (·.refs) =
        if (tenant, object) = (tenantId, objectHash) then releasedRefs row.refs purge
        else (db.findGrant tenant object).map (·.refs) := by
  rw [releaseGrant, transact_andThen, calm]
  simp only [execute, found]
  unfold releaseGrantOf releasedRefs
  dsimp only
  split
  · rw [transact_andThen, calm]
    refine ⟨_, rfl, fun tenant object => ?_⟩
    have after := db.findGrant_update tenantId objectHash (row.refs - 1) nowMs tenant object
    refine (congrArg (Option.map (·.refs)) after).trans ?_
    split
    · rename_i same
      rw [(Prod.mk.inj same).1, (Prod.mk.inj same).2, found]
      rfl
    · rfl
  · rw [transact_andThen, calm]
    refine ⟨_, rfl, fun tenant object => ?_⟩
    have after := db.findGrant_delete tenantId objectHash tenant object
    refine (congrArg (Option.map (·.refs)) after).trans ?_
    split <;> rfl

theorem Database.transact_release_none (db : Database) (tenantId objectHash : String)
    (purge : Bool) (nowMs : Int) (faults : Nat → Option DbError) (calm : ∀ n, faults n = none)
    (absent : db.findGrant tenantId objectHash = none) :
    db.transact faults (releaseGrant tenantId objectHash purge nowMs) = (.ok none, db) := by
  rw [releaseGrant, transact_andThen, calm]
  simp only [execute, absent]
  rfl

/-! ## A deletion -/

def Ungranted (db : Database) (hash : Digest) : Prop :=
  ∀ tenantId, db.findGrant tenantId (hexEncode hash.val) = none

theorem execute_countGrants_iff (db : Database) (hash : Digest) :
    (db.grants.rows.countP fun row => row.2.objectHash = hexEncode hash.val) = 0 ↔
      Ungranted db hash := by
  constructor
  · intro counted tenantId
    exact db.execute_countGrants (congrArg Except.ok counted) tenantId
  · intro ungranted
    rw [List.countP_eq_zero]
    intro row member same
    have absent := ungranted row.1
    rw [Database.findGrant, Option.map_eq_none_iff, Table.find_eq_none] at absent
    refine absent row member ?_
    rw [grantKey, of_decide_eq_true same]

variable (P : Platform)

structure PurgesUngranted (hash : Digest) (before after : Engine) (removed : Bool) : Prop where
  reports : removed = true ↔ before.blobs hash ≠ none ∧ Ungranted after.db hash
  gone : Ungranted after.db hash → after.blobs = Function.update before.blobs hash none
  kept : ¬ Ungranted after.db hash → after.blobs = before.blobs

theorem purgeUngranted_calm (hash : Digest) (remaining : Int) (world : World) (calm : world.Calm)
    (some_left : remaining ≠ 0 → ¬ Ungranted world.engine.db hash) :
    ∃ removed, ((purgeUngranted hash remaining).run (World.perform P) world).1 = .ok removed ∧
      ((purgeUngranted hash remaining).run (World.perform P) world).2.engine.db =
        world.engine.db ∧
      PurgesUngranted hash world.engine
        ((purgeUngranted hash remaining).run (World.perform P) world).2.engine removed := by
  unfold purgeUngranted
  by_cases last : remaining = 0
  · have counts : World.perform P world (.countGrants (hexEncode hash.val)) =
        (.ok (world.engine.db.grants.rows.countP fun row => row.2.objectHash = hexEncode hash.val),
          world.skip 1) := by
      have answer : world.engine.db.transact (world.outside 0).statementFault
          (Sql.send (.countGrants (hexEncode hash.val))) =
            (world.engine.db.execute (.countGrants (hexEncode hash.val))) := by
        rw [Database.transact_send, (calm 0).statements]
      simp only [World.perform, Engine.perform, Engine.withDb, countGrantsForObject, answer]
      rfl
    rw [if_pos last, run_attempt, Handler.send, run_ask, counts]
    dsimp only
    by_cases ungranted : Ungranted world.engine.db hash
    · rw [if_pos ((execute_countGrants_iff _ hash).mpr ungranted), run_attempt, Handler.send,
        run_ask]
      have fault : ((world.skip 1).outside 0).fault = none := (calm 1).fault
      simp only [World.perform, Engine.perform, fault]
      refine ⟨_, rfl, rfl, ⟨?_, fun _ => rfl, fun granted => absurd ungranted granted⟩⟩
      exact Option.isSome_iff_ne_none.trans ⟨fun stored => ⟨stored, ungranted⟩, And.left⟩
    · rw [if_neg fun counted => ungranted ((execute_countGrants_iff _ hash).mp counted)]
      refine ⟨false, rfl, rfl, ⟨?_, fun gone => absurd gone ungranted, fun _ => rfl⟩⟩
      exact ⟨fun gone => absurd gone Bool.false_ne_true, fun held => absurd held.2 ungranted⟩
  · rw [if_neg last]
    have granted := some_left last
    refine ⟨false, rfl, rfl, ⟨?_, fun gone => absurd gone granted, fun _ => rfl⟩⟩
    exact ⟨fun gone => absurd gone Bool.false_ne_true, fun held => absurd held.2 granted⟩

theorem deleteObject_refused (ctx : TenantContext) (hash : Digest) (purge : Bool) (world : World)
    (calm : world.Calm)
    (absent : world.engine.db.findGrant ctx.tenantId (hexEncode hash.val) = none) :
    (∃ e, ((deleteObject ctx hash purge).run (World.perform P) world).1 = .error e) ∧
      ((deleteObject ctx hash purge).run (World.perform P) world).2.engine = world.engine := by
  unfold deleteObject
  dsimp only
  rw [run_call, run_attempt, Handler.send, run_ask]
  have released := world.engine.db.transact_release_none ctx.tenantId (hexEncode hash.val) purge
    (world.outside 0).clock (world.outside 1).statementFault (calm 1).statements absent
  simp only [World.perform, Engine.perform, Engine.withDb, released]
  exact ⟨⟨_, rfl⟩, rfl⟩

theorem deleteObject_releases (ctx : TenantContext) (hash : Digest) (purge : Bool) (world : World)
    (calm : world.Calm) (row : GrantRow)
    (found : world.engine.db.findGrant ctx.tenantId (hexEncode hash.val) = some row) :
    ∃ outcome after, (deleteObject ctx hash purge).run (World.perform P) world =
        (.ok outcome, after) ∧
      (∀ tenant object, (after.engine.db.findGrant tenant object).map (·.refs) =
        if (tenant, object) = (ctx.tenantId, hexEncode hash.val) then releasedRefs row.refs purge
        else (world.engine.db.findGrant tenant object).map (·.refs)) ∧
      PurgesUngranted hash world.engine after.engine outcome.blobRemoved := by
  obtain ⟨next, released, rows⟩ := world.engine.db.transact_release ctx.tenantId
    (hexEncode hash.val) purge (world.outside 0).clock (world.outside 1).statementFault
    (calm 1).statements row found
  have call : World.perform P (world.skip 1) (.releaseGrant ctx.tenantId (hexEncode hash.val)
      purge (world.outside 0).clock) =
      (.ok (some ((releasedRefs row.refs purge).getD 0)),
        { engine := { world.engine with db := next }, outside := (world.skip 2).outside }) := by
    have outside : (world.skip 1).outside 0 = world.outside 1 := rfl
    have engine : (world.skip 1).engine = world.engine := rfl
    simp only [World.perform, Engine.perform, Engine.withDb, outside, engine, released]
    rfl
  generalize later : ({ engine := { world.engine with db := next }
                        outside := (world.skip 2).outside } : World) = between at call
  have db : between.engine.db = next := by rw [← later]
  have blobs : between.engine.blobs = world.engine.blobs := by rw [← later]
  have calmly : between.Calm := by
    rw [← later]
    exact fun n => calm _
  have some_left : (releasedRefs row.refs purge).getD 0 ≠ 0 →
      ¬ Ungranted between.engine.db hash := by
    intro remains ungranted
    have own := rows ctx.tenantId (hexEncode hash.val)
    rw [if_pos rfl, ← db, ungranted ctx.tenantId] at own
    rw [← own] at remains
    exact remains rfl
  obtain ⟨removed, ends, same, purges⟩ :=
    purgeUngranted_calm P hash ((releasedRefs row.refs purge).getD 0) between calmly some_left
  have clocked : World.perform P world .nowMillis = ((world.outside 0).clock, world.skip 1) := rfl
  unfold deleteObject
  dsimp only
  rw [run_call, clocked, run_attempt, Handler.send, run_ask, call]
  dsimp only
  rw [run_attempt]
  generalize (purgeUngranted hash ((releasedRefs row.refs purge).getD 0)).run (World.perform P)
    between = ran at ends same purges
  obtain ⟨answer, last⟩ := ran
  dsimp only at ends same purges
  subst ends
  dsimp only
  rw [run_call, run_call]
  have recorded := last.engine.db.transact_record_grants (last.outside 1).statementFault
    (deleteEvent ctx (hexEncode hash.val) (last.outside 0).clock)
  have grants : ∀ tenant object, Database.findGrant (last.engine.db.transact
      (last.outside 1).statementFault (Usage.record (deleteEvent ctx (hexEncode hash.val)
        (last.outside 0).clock))).2 tenant object = next.findGrant tenant object := by
    intro tenant object
    rw [← db, ← same]
    exact congrArg (fun grants => (grants.find (tenant, object)).map (·.2)) recorded
  refine ⟨_, _, rfl, fun tenant object => ?_, ?_⟩
  · rw [← rows tenant object]
    exact congrArg (Option.map (·.refs)) (grants tenant object)
  · have ungranted : Ungranted (last.engine.db.transact (last.outside 1).statementFault
        (Usage.record (deleteEvent ctx (hexEncode hash.val) (last.outside 0).clock))).2 hash ↔
        Ungranted last.engine.db hash := by
      refine forall_congr' fun tenant => ?_
      rw [grants, same, db]
    refine ⟨purges.reports.trans ?_, fun gone => ?_, fun granted => ?_⟩
    · rw [blobs]
      exact and_congr_right fun _ => ungranted.symm
    · exact (purges.gone (ungranted.mp gone)).trans (by rw [blobs])
    · exact (purges.kept fun gone => granted (ungranted.mpr gone)).trans blobs

/-! ## A compression -/

variable (config : Config) (ctx : TenantContext) (req : CompressRequest)

/-- The request stored the object anew or again, not a replay of an earlier one. -/
def CompressResult.counts (req : CompressRequest) (result : CompressResult) : Bool :=
  req.persist && !result.replayed

/-- One reference more of the tenant on the object, which has its blob. -/
structure Acquires (tenantId : String) (hash : Digest) (before after : Engine) : Prop where
  refs : ∀ tenant object, (after.db.findGrant tenant object).map (·.refs) =
    if (tenant, object) = (tenantId, hexEncode hash.val) then
      some (((before.db.findGrant tenant object).map (·.refs)).getD 0 + 1)
    else (before.db.findGrant tenant object).map (·.refs)
  stored : after.blobs hash ≠ none
  others : ∀ other, other ≠ hash → after.blobs other = before.blobs other

def Untouched (before after : Engine) : Prop :=
  SameGrants before.db after.db ∧ after.blobs = before.blobs

/-- A request that counts acquires a reference, and any other leaves grants and blobs. -/
def CountsOrLeaves (tenantId : String) (hash : Digest) (before : Engine)
    (ran : Except EngineError CompressResult × World) : Prop :=
  (∃ result, ran.1 = .ok result ∧ result.counts req = true ∧
    Acquires tenantId hash before ran.2.engine) ∨
  ((∀ result, ran.1 = .ok result → result.counts req = false) ∧
    Untouched before ran.2.engine)

theorem Blocked.stores {engine : Engine} {data : Bytes} {outcome : BlockingOutcome}
    {blobs : Digest → Option Bytes} (persist : req.persist = true)
    (blocked : Blocked P config engine data req (.ok outcome) blobs) :
    blobs (P.blake3 data) ≠ none ∧
      ∀ other, other ≠ P.blake3 data → blobs other = engine.blobs other := by
  cases blocked with
  | stored _ _ _ present =>
      refine ⟨?_, fun _ _ => rfl⟩
      rw [present.1]
      exact Option.some_ne_none _
  | fresh _ written =>
      rw [if_pos persist]
      refine ⟨?_, fun other apart => Function.update_of_ne apart _ _⟩
      rw [Function.update_self]
      exact Option.some_ne_none _

theorem compressNew_counts (data : Bytes) (world : World) (calm : world.Calm) :
    CountsOrLeaves req ctx.tenantId (P.blake3 data) world.engine
      ((compressNew P config ctx data req).run (World.perform P) world) := by
  have blocked := compressBlocking_run P config req data world calm.working
  have reads : Reads (OutcomeOf (P.blake3 data)) (compressBlocking P config data req) :=
    compressBlocking_reads data
  have replies : Replies (AnswersFor (hexEncode (P.blake3 data).val) false)
      (compressNew P config ctx data req) := compressNew_answers data
  have db := (reads.run (P := P) world).1
  have answers := replies.run (P := P) world
  have calm := calm.run P (compressBlocking P config data req)
  unfold compressNew at answers ⊢
  rw [run_attempt] at answers ⊢
  generalize (compressBlocking P config data req).run (World.perform P) world = ran at *
  obtain ⟨result, later⟩ := ran
  dsimp only at blocked db calm answers ⊢
  cases result with
  | error e =>
      refine Or.inr ⟨fun _ impossible => ?_, fun tenant object => ?_,
        blocked.leaves (Or.inl ⟨e, rfl⟩)⟩
      · cases impossible
      · rw [← db]
  | ok outcome =>
      have clocked : World.perform P later .nowMillis = ((later.outside 0).clock, later.skip 1) :=
        rfl
      dsimp only at answers ⊢
      rw [run_call, clocked] at answers ⊢
      dsimp only at answers ⊢
      by_cases persist : req.persist = true
      · rw [if_pos persist] at answers ⊢
        obtain ⟨result, succeeds⟩ := account_succeeds P req ctx data.length outcome
          (later.outside 0).clock (later.skip 1) (fun n => calm _)
        obtain ⟨blobs, grants⟩ := account_run (P := P) req ctx data.length outcome
          (later.outside 0).clock (later.skip 1)
        rw [succeeds] at answers grants
        have row := grants.resolve_left fun failed => by
          obtain ⟨e, impossible, -⟩ := failed
          cases impossible
        have replayed : result.replayed = false := answers.2
        obtain ⟨stored, others⟩ := blocked.stores P config req persist
        refine Or.inl ⟨result, succeeds, ?_, ⟨fun tenant object => ?_, ?_, fun other apart => ?_⟩⟩
        · rw [CompressResult.counts, persist, replayed]
          rfl
        · have before : (later.skip 1).engine.db = world.engine.db := db
          rw [row, before, blocked.hash_eq]
          split
          · rename_i same
            rw [(Prod.mk.inj same).1, (Prod.mk.inj same).2, Option.map_some, refs_granted]
          · rfl
        · rw [blobs]
          exact stored
        · rw [blobs]
          exact others other apart
      · rw [if_neg persist] at answers ⊢
        have unpersisted : req.persist = false := Bool.eq_false_iff.mpr persist
        refine Or.inr ⟨fun result _ => ?_, fun tenant object => ?_,
          blocked.leaves (Or.inr unpersisted)⟩
        · rw [CompressResult.counts, unpersisted]
          rfl
        · rw [← db]
          rfl

theorem compress_counts (data : Bytes) (world : World) (calm : world.Calm) :
    CountsOrLeaves req ctx.tenantId (P.blake3 data) world.engine
      ((compress P config ctx data req).run (World.perform P) world) := by
  cases keyed : req.idempotencyKey with
  | none =>
      have new : compress P config ctx data req = compressNew P config ctx data req := by
        unfold compress
        rw [keyed]
      rw [new]
      exact compressNew_counts P config ctx req data world calm
  | some key =>
      have answers := (calm 0).statements 0
      cases found : world.engine.db.events.find (ctx.tenantId, key) with
      | none =>
          rw [compress_unseen P config ctx req data world keyed answers found]
          exact compressNew_counts P config ctx req data (world.skip 1) fun n => calm _
      | some prev =>
          rw [compress_seen P config ctx req data world keyed answers found]
          have leaves : Leaves (replay P ctx.tenantId prev.stored) :=
            (replay_uses ctx.tenantId prev.stored).mono fun _ => EngineCall.reading.leaves
          obtain ⟨db, blobs⟩ := leaves.run (P := P) (world.skip 1)
          refine Or.inr ⟨fun result ends => ?_, fun tenant object => by rw [db]; rfl, blobs⟩
          have replies : Replies (fun reply => ∀ result, reply = .ok result →
              result.replayed = true ∧ prev.objectHash = some result.id)
              (replay P ctx.tenantId prev.stored) :=
            Safe.under (replay_answers ctx.tenantId prev.stored) fun _ _ _ => trivial
          rw [CompressResult.counts, (replies.run (P := P) (world.skip 1) result ends).1]
          exact Bool.and_false _

/-! ## The map -/

def rowRefs : Nat → Option Int
  | 0 => none
  | n + 1 => some (n + 1)

theorem releasedRefs_rowRefs (n : Nat) (refs : Int) (same : rowRefs n = some refs) (purge : Bool) :
    releasedRefs refs purge = rowRefs (if purge then 0 else n - 1) := by
  cases n with
  | zero => cases same
  | succ n =>
      cases same
      unfold releasedRefs
      cases purge with
      | true => rfl
      | false =>
          cases n with
          | zero => rfl
          | succ n =>
              rw [if_pos]
              · simp [rowRefs]
              · simp

def CountedBy (counts : RefCount.Counts String Digest) (db : Database) : Prop :=
  ∀ tenantId hash, (db.findGrant tenantId (hexEncode hash.val)).map (·.refs) =
    rowRefs (counts tenantId hash)

theorem CountedBy.found {counts : RefCount.Counts String Digest} {db : Database}
    (counted : CountedBy counts db) (tenantId : String) (hash : Digest) :
    db.findGrant tenantId (hexEncode hash.val) ≠ none ↔ 0 < counts tenantId hash := by
  have refs := counted tenantId hash
  cases count : counts tenantId hash with
  | zero =>
      rw [count, rowRefs, Option.map_eq_none_iff] at refs
      simp [refs]
  | succ n =>
      rw [count, rowRefs] at refs
      obtain ⟨row, found, -⟩ := Option.map_eq_some_iff.mp refs
      simp [found]

theorem CountedBy.kept {counts : RefCount.Counts String Digest} {db : Database}
    (counted : CountedBy counts db) (hash : Digest) :
    ¬ Ungranted db hash ↔ counts.Kept hash := by
  unfold Ungranted RefCount.Counts.Kept
  simp only [← counted.found, not_forall, ne_eq]

/-- The grants are the counts, and an object has its blob, which can be parsed, while
somebody holds it. -/
structure Refines (P : Platform) (counts : RefCount.Counts String Digest) (engine : Engine) :
    Prop where
  refs : CountedBy counts engine.db
  stored : ∀ hash, engine.blobs hash ≠ none ↔ counts.Kept hash
  parses : ∀ hash bytes, engine.blobs hash = some bytes → ∃ envelope, parse P bytes = .ok envelope

/-- What a request does to the references, by its reply. -/
def Request.action (P : Platform) : Request → Reply → RefCount.Action String Digest
  | .compress ctx data req, .compressed (.ok result) =>
    if result.counts req then .acquire ctx.tenantId (P.blake3 data) else .pass
  | .delete ctx hash purge, .deleted (.ok _) => .release ctx.tenantId hash purge
  | _, _ => .pass

def World.replyTo (world : World) (request : Request) : Reply :=
  ((request.handle P config).run (World.perform P) world).1

/-- What the requests of a sequence do to the references. -/
def World.actions (world : World) : List Request → List (RefCount.Action String Digest)
  | [] => []
  | request :: requests =>
    request.action P (world.replyTo P config request) ::
      (world.serve P config request).actions requests

variable {P config}

theorem Refines.empty (dictionaries : DictStore) :
    Refines P RefCount.Counts.zero (.empty dictionaries) where
  refs _ _ := rfl
  stored _ := ⟨fun stored => absurd rfl stored, fun ⟨_, held⟩ => absurd held (Nat.lt_irrefl 0)⟩
  parses _ _ stored := nomatch stored

theorem Refines.untouched {counts : RefCount.Counts String Digest} {before after : Engine}
    (refines : Refines P counts before) (same : Untouched before after) :
    Refines P counts after where
  refs tenantId hash := by rw [same.1, refines.refs tenantId hash]
  stored hash := by rw [same.2, refines.stored]
  parses hash bytes stored := refines.parses hash bytes (same.2 ▸ stored)

theorem pair_eq_iff {tenant tenantId : String} {object hash : Digest} :
    (tenant, hexEncode object.val) = (tenantId, hexEncode hash.val) ↔
      tenant = tenantId ∧ object = hash := by
  rw [Prod.mk.injEq]
  exact and_congr_right fun _ => ⟨hexEncode_digest_inj, fun same => by rw [same]⟩

theorem Refines.acquires {counts : RefCount.Counts String Digest} {before after : Engine}
    (refines : Refines P counts before) {tenantId : String} {hash : Digest}
    (acquires : Acquires tenantId hash before after)
    (parses : ∀ hash bytes, after.blobs hash = some bytes →
      ∃ envelope, parse P bytes = .ok envelope) :
    Refines P (counts.apply (.acquire tenantId hash)) after := by
  have refs : ∀ tenant object,
      (after.db.findGrant tenant (hexEncode object.val)).map (·.refs) =
        rowRefs (counts.apply (.acquire tenantId hash) tenant object) := by
    intro tenant object
    rw [acquires.refs, refines.refs tenant object, RefCount.Counts.apply]
    simp only [pair_eq_iff]
    split
    · cases counts tenant object with
      | zero => rfl
      | succ n => rfl
    · rfl
  refine ⟨refs, fun object => ?_, parses⟩
  by_cases own : object = hash
  · rw [own]
    refine iff_of_true acquires.stored ⟨tenantId, ?_⟩
    rw [RefCount.Counts.apply_acquire_self]
    exact Nat.succ_pos _
  · rw [acquires.others object own, refines.stored]
    refine exists_congr fun tenant => ?_
    rw [counts.apply_acquire_of_ne fun same => own same.2]

theorem Refines.releases {counts : RefCount.Counts String Digest} {before after : Engine}
    (refines : Refines P counts before) {tenantId : String} {hash : Digest} {purge : Bool}
    {row : GrantRow} (found : before.db.findGrant tenantId (hexEncode hash.val) = some row)
    (rows : ∀ tenant object, (after.db.findGrant tenant object).map (·.refs) =
      if (tenant, object) = (tenantId, hexEncode hash.val) then releasedRefs row.refs purge
      else (before.db.findGrant tenant object).map (·.refs))
    {removed : Bool} (purges : PurgesUngranted hash before after removed) :
    Refines P (counts.apply (.release tenantId hash purge)) after := by
  have own : rowRefs (counts tenantId hash) = some row.refs := by
    rw [← refines.refs tenantId hash, found]
    rfl
  have refs : CountedBy (counts.apply (.release tenantId hash purge)) after.db := by
    intro tenant object
    rw [rows, refines.refs tenant object, RefCount.Counts.apply]
    simp only [pair_eq_iff]
    split
    · rename_i same
      rw [same.1, same.2, releasedRefs_rowRefs _ _ own purge]
    · rfl
  have others : ∀ object, object ≠ hash → after.blobs object = before.blobs object := by
    intro object apart
    by_cases gone : Ungranted after.db hash
    · rw [purges.gone gone, Function.update_of_ne apart]
    · rw [purges.kept gone]
  refine ⟨refs, fun object => ?_, fun object bytes stored => ?_⟩
  · by_cases same : object = hash
    · rw [same, ← refs.kept hash]
      by_cases gone : Ungranted after.db hash
      · rw [purges.gone gone, Function.update_self]
        exact iff_of_false (fun impossible => impossible rfl) (fun granted => granted gone)
      · rw [purges.kept gone, refines.stored]
        refine iff_of_true ⟨tenantId, (refines.refs.found tenantId hash).mp ?_⟩ gone
        rw [found]
        exact Option.some_ne_none row
    · rw [others object same, refines.stored]
      refine exists_congr fun tenant => ?_
      rw [counts.apply_release_of_ne purge fun both => same both.2]
  · by_cases same : object = hash
    · by_cases gone : Ungranted after.db hash
      · rw [same, purges.gone gone, Function.update_self] at stored
        cases stored
      · exact refines.parses object bytes (purges.kept gone ▸ stored)
    · exact refines.parses object bytes (others object same ▸ stored)

/-- A request acts on grants and blobs as its action on the counts. -/
theorem serve_refines (framed : P.Framed) (world : World) (calm : world.Calm) (request : Request)
    (counts : RefCount.Counts String Digest) (refines : Refines P counts world.engine) :
    Refines P (counts.apply (request.action P (world.replyTo P config request)))
      (world.serve P config request).engine := by
  have parses : ∀ hash bytes, (world.serve P config request).engine.blobs hash = some bytes →
      ∃ envelope, parse P bytes = .ok envelope := by
    intro hash
    refine (serve_holds framed world calm.working request ⟨fun tenantId granted => ?_, ?_⟩).parses
    · exact (refines.stored hash).mpr ⟨tenantId, (refines.refs.found tenantId hash).mp granted⟩
    · exact refines.parses hash
  cases request with
  | compress ctx data req =>
      have counted := compress_counts P config ctx req data world calm
      rw [World.serve_compress] at parses ⊢
      have reply : world.replyTo P config (.compress ctx data req) =
          .compressed ((compress P config ctx data req).run (World.perform P) world).1 := by
        rw [World.replyTo, Request.handle, run_bind]
        rfl
      rw [reply]
      rcases counted with ⟨result, succeeds, counts, acquires⟩ | ⟨idle, same⟩
      · rw [succeeds, Request.action, if_pos counts]
        exact refines.acquires acquires parses
      · have passes : Request.action P (.compress ctx data req)
            (.compressed ((compress P config ctx data req).run (World.perform P) world).1) =
              .pass := by
          generalize ((compress P config ctx data req).run (World.perform P) world).1 = answer
            at idle
          cases answer with
          | error e => rfl
          | ok result =>
              rw [Request.action, idle result rfl]
              rfl
        rw [passes]
        exact refines.untouched same
  | delete ctx hash purge =>
      rw [World.serve_delete]
      have reply : world.replyTo P config (.delete ctx hash purge) =
          .deleted ((deleteObject ctx hash purge).run (World.perform P) world).1 := by
        rw [World.replyTo, Request.handle, run_bind]
        rfl
      rw [reply]
      cases found : world.engine.db.findGrant ctx.tenantId (hexEncode hash.val) with
      | none =>
          obtain ⟨⟨e, refused⟩, same⟩ := deleteObject_refused P ctx hash purge world calm found
          rw [refused, same]
          exact refines
      | some row =>
          obtain ⟨outcome, after, ran, rows, purges⟩ :=
            deleteObject_releases P ctx hash purge world calm row found
          rw [ran]
          exact refines.releases found rows purges

/-- By induction on the requests. -/
theorem serveAll_refines (framed : P.Framed) (world : World) (calm : world.Calm)
    (requests : List Request) (counts : RefCount.Counts String Digest)
    (refines : Refines P counts world.engine) :
    Refines P (counts.run (world.actions P config requests))
      (world.serveAll P config requests).engine := by
  induction requests generalizing world counts with
  | nil => exact refines
  | cons request requests ih =>
      exact ih _ (calm.run P _) _ (serve_refines framed world calm request counts refines)

/-! ## Runs of requests -/

theorem CountedBy.refs {counts : RefCount.Counts String Digest} {db : Database}
    (counted : CountedBy counts db) (tenantId : String) (hash : Digest) :
    db.refs tenantId (hexEncode hash.val) = counts tenantId hash := by
  rw [Database.refs, counted tenantId hash]
  cases counts tenantId hash <;> rfl

theorem World.actions_append (world : World) (first second : List Request) :
    world.actions P config (first ++ second) =
      world.actions P config first ++ (world.serveAll P config first).actions P config second := by
  induction first generalizing world with
  | nil => rfl
  | cons request first ih => exact congrArg (request.action P _ :: ·) (ih _)

theorem World.take_actions (world : World) (requests : List Request) (n : Nat) :
    (world.actions P config requests).take n = world.actions P config (requests.take n) := by
  induction requests generalizing world n with
  | nil => simp [actions]
  | cons request requests ih =>
      cases n with
      | zero => rfl
      | succ n => exact congrArg (request.action P _ :: ·) (ih _ n)

theorem World.length_actions (world : World) (requests : List Request) :
    (world.actions P config requests).length = requests.length := by
  induction requests generalizing world with
  | nil => rfl
  | cons request requests ih => exact congrArg (· + 1) (ih _)

/-- What a tenant may ask of an object: its container, or the object itself. -/
def CanLoad (P : Platform) (world : World) (tenantId : String) (hash : Digest) : Prop :=
  ∃ bytes, ((loadContainer tenantId hash).run (World.perform P) world).1 = .ok bytes

def CanOpen (P : Platform) (world : World) (tenantId : String) (hash : Digest) : Prop :=
  ∃ envelope, ((loadObject P tenantId hash).run (World.perform P) world).1 = .ok envelope

theorem Refines.canLoad {counts : RefCount.Counts String Digest} {world : World}
    (refines : Refines P counts world.engine) (calm : world.Calm) (tenantId : String)
    (hash : Digest) : CanLoad P world tenantId hash ↔ 0 < counts tenantId hash := by
  rw [← refines.refs.found]
  constructor
  · rintro ⟨bytes, loaded⟩
    exact ((loadContainer_eq_ok P world _ tenantId hash bytes).mp (Prod.ext loaded rfl)).2.1
  · intro granted
    obtain ⟨bytes, stored⟩ := Option.ne_none_iff_exists'.mp
      ((refines.stored hash).mpr ⟨tenantId, (refines.refs.found tenantId hash).mp granted⟩)
    exact ⟨bytes, congrArg Prod.fst ((loadContainer_eq_ok P world _ tenantId hash bytes).mpr
      ⟨calm.answers 0, granted, stored, rfl⟩)⟩

theorem Refines.canOpen {counts : RefCount.Counts String Digest} {world : World}
    (refines : Refines P counts world.engine) (calm : world.Calm) (tenantId : String)
    (hash : Digest) : CanOpen P world tenantId hash ↔ 0 < counts tenantId hash := by
  rw [← refines.refs.found]
  constructor
  · rintro ⟨envelope, opened⟩
    exact ((loadObject_eq_ok P world _ tenantId hash envelope).mp (Prod.ext opened rfl)).2.1
  · intro granted
    obtain ⟨bytes, stored⟩ := Option.ne_none_iff_exists'.mp
      ((refines.stored hash).mpr ⟨tenantId, (refines.refs.found tenantId hash).mp granted⟩)
    obtain ⟨envelope, parsed⟩ := refines.parses hash bytes stored
    exact ⟨envelope, congrArg Prod.fst ((loadObject_eq_ok P world _ tenantId hash envelope).mpr
      ⟨calm.answers 0, granted, ⟨bytes, stored, parsed⟩, rfl⟩)⟩

def Request.tenantId : Request → String
  | .compress ctx _ _ => ctx.tenantId
  | .delete ctx _ _ => ctx.tenantId

theorem apply_action_of_ne (counts : RefCount.Counts String Digest) (request : Request)
    (reply : Reply) {tenantId : String} (other : request.tenantId ≠ tenantId) (hash : Digest) :
    counts.apply (request.action P reply) tenantId hash = counts tenantId hash := by
  cases request with
  | compress ctx data req =>
      cases reply with
      | deleted result => rfl
      | compressed result =>
          cases result with
          | error e => rfl
          | ok result =>
              rw [Request.action]
              split
              · exact counts.apply_acquire_of_ne fun same => other same.1.symm
              · rfl
  | delete ctx own purge =>
      cases reply with
      | compressed result => rfl
      | deleted result =>
          cases result with
          | error e => rfl
          | ok outcome => exact counts.apply_release_of_ne purge fun same => other same.1.symm

theorem Refines.deletes {counts : RefCount.Counts String Digest} {world : World}
    (refines : Refines P counts world.engine) (calm : world.Calm) (ctx : TenantContext)
    (hash : Digest) (purge : Bool) {outcome : DeleteOutcome} {after : World}
    (ran : (deleteObject ctx hash purge).run (World.perform P) world = (.ok outcome, after)) :
    outcome.blobRemoved = true ↔
      counts.Kept hash ∧ ∀ tenantId, after.engine.db.refs tenantId (hexEncode hash.val) = 0 := by
  cases found : world.engine.db.findGrant ctx.tenantId (hexEncode hash.val) with
  | none =>
      obtain ⟨⟨e, refused⟩, -⟩ := deleteObject_refused P ctx hash purge world calm found
      rw [ran] at refused
      cases refused
  | some row =>
      obtain ⟨own, later, released, rows, purges⟩ :=
        deleteObject_releases P ctx hash purge world calm row found
      rw [ran] at released
      cases released
      have counted := (refines.releases found rows purges).refs
      rw [purges.reports, refines.stored]
      refine and_congr_right fun _ => forall_congr' fun tenantId => ?_
      have held := counted.found tenantId hash
      rw [counted.refs tenantId hash]
      generalize counts.apply _ tenantId hash = n at held ⊢
      cases n with
      | zero => simpa using held
      | succ n =>
          have granted := held.mpr n.succ_pos
          exact iff_of_false granted (by omega)

/-- While nothing fails, the references are those acquired by uploads that are no replays, less
the releases one by one since the tenant last had none; an object has its blob while a tenant
has a reference, a deletion reports the blob removed when it drops the last, tenants load what
they have references on, and no request changes what another tenant can load. -/
theorem store_refines_counts (P : Platform) (framed : P.Framed) (config : Config)
    (dictionaries : DictStore) (outside : Nat → Outside) (calm : ∀ n, (outside n).Calm)
    (requests : List Request) (start world : World)
    (empty : start = { engine := .empty dictionaries, outside })
    (reached : world = start.serveAll P config requests) :
    (∀ tenantId hash, world.engine.db.refs tenantId (hexEncode hash.val) =
      RefCount.Counts.zero.run (start.actions P config requests) tenantId hash) ∧
    (∀ earlier recent tenantId hash, requests = earlier ++ recent →
      (start.serveAll P config earlier).engine.db.refs tenantId (hexEncode hash.val) = 0 →
      (∀ n, 0 < n → n ≤ recent.length → 0 < (start.serveAll P config
        (earlier ++ recent.take n)).engine.db.refs tenantId (hexEncode hash.val)) →
      world.engine.db.refs tenantId (hexEncode hash.val) +
          ((start.serveAll P config earlier).actions P config recent).count
            (.release tenantId hash false) =
        ((start.serveAll P config earlier).actions P config recent).count
          (.acquire tenantId hash)) ∧
    (∀ hash, world.engine.blobs hash ≠ none ↔
      ∃ tenantId, 0 < world.engine.db.refs tenantId (hexEncode hash.val)) ∧
    (∀ ctx hash purge outcome after,
      (deleteObject ctx hash purge).run (World.perform P) world = (.ok outcome, after) →
      (outcome.blobRemoved = true ↔
        (∃ tenantId, 0 < world.engine.db.refs tenantId (hexEncode hash.val)) ∧
        ∀ tenantId, after.engine.db.refs tenantId (hexEncode hash.val) = 0)) ∧
    (∀ tenantId hash,
      (CanLoad P world tenantId hash ↔
        0 < world.engine.db.refs tenantId (hexEncode hash.val)) ∧
      (CanOpen P world tenantId hash ↔
        0 < world.engine.db.refs tenantId (hexEncode hash.val))) ∧
    ∀ request tenantId hash, request.tenantId ≠ tenantId →
      (CanLoad P (world.serve P config request) tenantId hash ↔ CanLoad P world tenantId hash) ∧
      (CanOpen P (world.serve P config request) tenantId hash ↔ CanOpen P world tenantId hash) := by
  have calmStart : start.Calm := empty ▸ calm
  have refinesAt : ∀ some_requests, Refines P
      (RefCount.Counts.zero.run (start.actions P config some_requests))
      (start.serveAll P config some_requests).engine := by
    intro some_requests
    refine serveAll_refines framed start calmStart some_requests _ ?_
    rw [empty]
    exact Refines.empty dictionaries
  have refsAt : ∀ some_requests tenantId hash,
      (start.serveAll P config some_requests).engine.db.refs tenantId (hexEncode hash.val) =
        RefCount.Counts.zero.run (start.actions P config some_requests) tenantId hash :=
    fun some_requests => (refinesAt some_requests).refs.refs
  have refines := refinesAt requests
  have calmly : world.Calm := reached ▸ calmStart.serveAll requests
  rw [← reached] at refines
  have held : ∀ tenantId hash, 0 < world.engine.db.refs tenantId (hexEncode hash.val) ↔
      0 < RefCount.Counts.zero.run (start.actions P config requests) tenantId hash := by
    intro tenantId hash
    rw [refines.refs.refs, Int.natCast_pos]
  refine ⟨refines.refs.refs, ?_, ?_, ?_, ?_, ?_⟩
  · intro earlier recent tenantId hash split none_before some_after
    have balance := (RefCount.Counts.zero.run (start.actions P config earlier)).run_balance
      ((start.serveAll P config earlier).actions P config recent) tenantId hash ?_
    · have before := refsAt earlier tenantId hash
      rw [refines.refs.refs, split, World.actions_append]
      rw [none_before] at before
      rw [RefCount.Counts.run_append]
      omega
    · intro n positive inside
      rw [World.length_actions] at inside
      have after := some_after n positive inside
      rw [refsAt, World.actions_append, Int.natCast_pos, RefCount.Counts.run_append] at after
      rw [World.take_actions]
      exact after
  · intro hash
    rw [refines.stored]
    exact exists_congr fun tenantId => (held tenantId hash).symm
  · intro ctx hash purge outcome after ran
    rw [refines.deletes calmly ctx hash purge ran]
    exact and_congr_left fun _ => exists_congr fun tenantId => (held tenantId hash).symm
  · intro tenantId hash
    rw [held]
    exact ⟨refines.canLoad calmly tenantId hash, refines.canOpen calmly tenantId hash⟩
  · intro request tenantId hash other
    have after : Refines P _ (world.serve P config request).engine :=
      serve_refines framed world calmly request _ refines
    have calmAfter : (world.serve P config request).Calm := calmly.run P _
    rw [after.canLoad calmAfter, after.canOpen calmAfter, refines.canLoad calmly,
      refines.canOpen calmly, apply_action_of_ne _ _ _ other]
    exact ⟨Iff.rfl, Iff.rfl⟩

/-- `t` uploads twice and deletes once, `u` uploads once and purges. -/
def sharedObject : List Request :=
  [.compress sampleTenant [] emptyUpload, .compress otherTenant [] emptyUpload,
    .compress sampleTenant [] emptyUpload, .delete sampleTenant emptyHash false,
    .delete otherTenant emptyHash true]

theorem store_refines_counts_shared :
    let world := quietWorld.serveAll framingPlatform sampleConfig sharedObject
    world.engine.db.refs "t" (hexEncode emptyHash.val) = 1 ∧
      CanLoad framingPlatform world "t" emptyHash ∧
      ¬ CanLoad framingPlatform world "u" emptyHash ∧ world.engine.blobs emptyHash ≠ none := by
  obtain ⟨counted, -, stored, -, loads, -⟩ := store_refines_counts framingPlatform
    framingPlatform_decodeFile sampleConfig (DictStore.load framingPlatform true none [])
    (fun _ => quiet) (fun _ => ⟨rfl, fun _ => rfl⟩) sharedObject quietWorld _ rfl rfl
  have counts : RefCount.Counts.zero.run
        (quietWorld.actions framingPlatform sampleConfig sharedObject) "t" emptyHash = 1 ∧
      RefCount.Counts.zero.run
        (quietWorld.actions framingPlatform sampleConfig sharedObject) "u" emptyHash = 0 := by
    decide +kernel
  have own := (counted "t" emptyHash).trans (congrArg Nat.cast counts.1)
  have other := (counted "u" emptyHash).trans (congrArg Nat.cast counts.2)
  refine ⟨own, (loads "t" emptyHash).1.mpr (own ▸ one_pos), fun mine => ?_,
    (stored emptyHash).mpr ⟨"t", own ▸ one_pos⟩⟩
  exact absurd ((loads "u" emptyHash).1.mp mine) (by rw [other]; decide)

/-- Of two uploads under one key both succeed, and one is counted. -/
theorem keyed_uploads_count_one :
    ∃ first second after, keyedUploaded.1 = .ok first ∧
      (compress framingPlatform sampleConfig sampleTenant [] keyedUpload).run
        (World.perform framingPlatform) keyedUploaded.2 = (.ok second, after) ∧
      after.engine.db.refs "t" (hexEncode emptyHash.val) = 1 := by
  obtain ⟨first, succeeds, -⟩ := keyedUploaded_ok
  have shown : ((compress framingPlatform sampleConfig sampleTenant [] keyedUpload).run
      (World.perform framingPlatform) keyedUploaded.2).1.toOption.isSome = true ∧
      ((compress framingPlatform sampleConfig sampleTenant [] keyedUpload).run
        (World.perform framingPlatform) keyedUploaded.2).2.engine.db.refs "t"
          (hexEncode emptyHash.val) = 1 := by
    decide +kernel
  generalize (compress framingPlatform sampleConfig sampleTenant [] keyedUpload).run
    (World.perform framingPlatform) keyedUploaded.2 = ran at shown ⊢
  obtain ⟨answer, after⟩ := ran
  cases answer with
  | error e => cases shown.1
  | ok second => exact ⟨first, second, after, succeeds, rfl, shown.2⟩

end Syntra

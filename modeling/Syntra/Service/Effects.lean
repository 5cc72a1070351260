import Syntra.Service.Blocking

/-!
# What a request leaves behind

The blobs and the grants after a whole request, in a world whose vault works.
-/

set_option autoImplicit false

namespace Syntra

open Program Text

def World.Working (world : World) : Prop := ∀ n, (world.outside n).fault = none

theorem World.Working.run {α : Type} {world : World} (working : world.Working) (P : Platform)
    (program : Handler α) : (program.run (World.perform P) world).2.Working := by
  intro n
  rw [World.run_outside]
  exact working _

variable {P : Platform} {config : Config} {req : CompressRequest}

def Engine.Stores (P : Platform) (engine : Engine) (hash : Digest) (bytes : Bytes)
    (envelope : ProcessedFile) : Prop :=
  engine.blobs hash = some bytes ∧ parse P bytes = .ok envelope

/-- What a request seals when it compresses `data` with the dictionary in use. -/
def SealedFrom (P : Platform) (config : Config) (dictionaries : DictStore) (data : Bytes)
    (req : CompressRequest) (written : Sealed) : Prop :=
  let profile := classify P.floats P.infer data req.filename req.mimeHint
  let dict := dictionaries.activeFor profile.dictionaryKey
  ∃ planned compressMs verified verifyMs now,
    compressBest P.codecs P.floats data profile req.effort (dict.map (·.bytes)) req.forced
      config.limits = .ok planned ∧
    (req.verify = true → verifyRoundtrip P planned data (dict.map (·.bytes)) = .ok ()) ∧
    written = sealEnvelope P
      (build P planned profile req.filename (P.blake3 data) dict compressMs verified verifyMs now)

/-! ## The parts of a compression -/

abbrev Leaves {α : Type} (program : Handler α) : Prop :=
  program.Uses fun asked => asked.leavesDb ∧ asked.leavesBlobs

theorem Leaves.run {α : Type} {program : Handler α} (leaves : Leaves program) (world : World) :
    (program.run (World.perform P) world).2.engine.db = world.engine.db ∧
      (program.run (World.perform P) world).2.engine.blobs = world.engine.blobs := by
  refine leaves.run_keeps (World.perform P) (fun later =>
    later.engine.db = world.engine.db ∧ later.engine.blobs = world.engine.blobs) ?_ world
    ⟨rfl, rfl⟩
  intro state asked held allowed
  exact ⟨(Engine.perform_db P _ _ asked allowed.1).trans held.1,
    (Engine.perform_blobs P _ _ asked allowed.2).trans held.2⟩

theorem run_leaving {α : Type} {motive : α × World → Prop} (asked : EngineCall)
    (leaves : asked.leavesDb ∧ asked.leavesBlobs) (next : asked.Answer → Handler α)
    (world : World) (working : world.Working)
    (rest : ∀ answer later, later.Working → later.engine.db = world.engine.db →
      later.engine.blobs = world.engine.blobs →
      motive ((next answer).run (World.perform P) later)) :
    motive ((Program.call asked next).run (World.perform P) world) :=
  rest _ _ (fun n => working (n + 1)) (Engine.perform_db P _ _ asked leaves.1)
    (Engine.perform_blobs P _ _ asked leaves.2)

/-- How the blocking part of a compression can end, and the blobs it leaves. -/
inductive Blocked (P : Platform) (config : Config) (engine : Engine) (data : Bytes)
    (req : CompressRequest) : Except EngineError BlockingOutcome → (Digest → Option Bytes) → Prop
  | failed (e : EngineError) : Blocked P config engine data req (.error e) engine.blobs
  | stored (outcome : BlockingOutcome) (dedup : req.allowDedup = true)
      (hash : outcome.hash = P.blake3 data)
      (present : engine.Stores P (P.blake3 data) outcome.bytes outcome.envelope) :
      Blocked P config engine data req (.ok outcome) engine.blobs
  | fresh (outcome : BlockingOutcome) (written : Sealed)
      (absent : req.persist = true → req.allowDedup = true →
        ∀ bytes envelope, ¬ engine.Stores P (P.blake3 data) bytes envelope)
      (hash : outcome.hash = P.blake3 data) (envelope : outcome.envelope = written.envelope)
      (sealed : SealedFrom P config engine.dictionaries data req written) :
      Blocked P config engine data req (.ok outcome)
        (if req.persist = true then
          Function.update engine.blobs (P.blake3 data) (some written.bytes)
        else engine.blobs)

theorem Blocked.hash_eq {engine : Engine} {data : Bytes} {outcome : BlockingOutcome}
    {blobs : Digest → Option Bytes} (blocked : Blocked P config engine data req (.ok outcome) blobs) :
    outcome.hash = P.blake3 data := by
  cases blocked with
  | stored _ _ hash => exact hash
  | fresh _ _ _ hash => exact hash

theorem Blocked.leaves {engine : Engine} {data : Bytes}
    {result : Except EngineError BlockingOutcome} {blobs : Digest → Option Bytes}
    (blocked : Blocked P config engine data req result blobs)
    (idle : (∃ e, result = .error e) ∨ req.persist = false) : blobs = engine.blobs := by
  cases blocked with
  | failed e => rfl
  | stored outcome => rfl
  | fresh outcome =>
      rcases idle with ⟨e, impossible⟩ | unpersisted
      · cases impossible
      · rw [unpersisted]
        rfl

variable (P config req)

theorem existingBlob_run (hash : Digest) (world : World) (working : world.Working) :
    ((existingBlob P hash req).run (World.perform P) world).2.engine = world.engine ∧
      ∀ found, ((existingBlob P hash req).run (World.perform P) world).1 = some found ↔
        req.persist = true ∧ req.allowDedup = true ∧
          world.engine.Stores P hash found.2 found.1 := by
  unfold existingBlob
  by_cases asks : (req.persist && req.allowDedup) = true
  · rw [if_pos asks]
    rw [Bool.and_eq_true] at asks
    have looks : World.perform P world (.contains hash) =
        ((world.engine.blobs hash).isSome, world.skip 1) := rfl
    rw [run_call, looks]
    cases stored : world.engine.blobs hash with
    | none =>
        refine ⟨rfl, fun found => ⟨fun impossible => ?_, fun held => ?_⟩⟩
        · cases impossible
        · rw [Engine.Stores, stored] at held
          cases held.2.2.1
    | some bytes =>
        have reads := (perform_readBlob_eq_ok P (world.skip 1) _ hash bytes).mpr
          ⟨working 1, stored, rfl⟩
        dsimp only [Option.isSome_some]
        rw [run_call, reads]
        refine ⟨rfl, fun found => ?_⟩
        simp only [run_done, Engine.Stores, stored, Option.map_eq_some_iff, Option.some.injEq]
        constructor
        · rintro ⟨envelope, parsed, rfl⟩
          cases outcome : parse P bytes with
          | error e => simp [outcome, Except.toOption] at parsed
          | ok own =>
              rw [outcome] at parsed
              exact ⟨asks.1, asks.2, rfl, congrArg Except.ok (Option.some.inj parsed)⟩
        · rintro ⟨-, -, rfl, parsed⟩
          exact ⟨found.1, by rw [parsed]; rfl, rfl⟩
  · rw [if_neg asks]
    refine ⟨rfl, fun found => ⟨fun impossible => ?_, fun held => ?_⟩⟩
    · cases impossible
    · exact absurd (by rw [held.1, held.2.1]; rfl) asks

theorem verifyWrite_run (planned : Planned) (data : Bytes) (dict : Option Bytes) (world : World) :
    ((verifyWrite P planned data dict req).run (World.perform P) world).2.engine = world.engine ∧
      ∀ times, ((verifyWrite P planned data dict req).run (World.perform P) world).1 = .ok times →
        req.verify = true → verifyRoundtrip P planned data dict = .ok () := by
  unfold verifyWrite
  split
  · split
    · exact ⟨rfl, nofun⟩
    · rename_i verified
      exact ⟨rfl, fun _ _ _ => verified⟩
  · rename_i unverified
    exact ⟨rfl, fun _ _ verify => absurd verify unverified⟩

theorem persistSealed_run (hash : Digest) (written : Sealed) (world : World)
    (working : world.Working) :
    ((persistSealed hash req written).run (World.perform P) world).1 = .ok () ∧
      ((persistSealed hash req written).run (World.perform P) world).2.engine.db =
        world.engine.db ∧
      ((persistSealed hash req written).run (World.perform P) world).2.engine.blobs =
        if req.persist = true then Function.update world.engine.blobs hash (some written.bytes)
        else world.engine.blobs := by
  unfold persistSealed
  by_cases persist : req.persist = true
  · simp only [persist, if_true, run_attempt, Handler.send, run_ask, run_call, run_done,
      World.perform, Engine.perform, working 0, working 1, working 3, Option.elim_none]
    exact ⟨trivial, trivial, trivial⟩
  · simp [persist]

theorem compressFresh_run (data : Bytes) (world : World) (working : world.Working)
    (absent : req.persist = true → req.allowDedup = true →
      ∀ bytes envelope, ¬ world.engine.Stores P (P.blake3 data) bytes envelope) :
    Blocked P config world.engine data req
      ((compressFresh P config data req (P.blake3 data)).run (World.perform P) world).1
      ((compressFresh P config data req (P.blake3 data)).run (World.perform P)
        world).2.engine.blobs := by
  unfold compressFresh
  dsimp only
  generalize classified : classify P.floats P.infer data req.filename req.mimeHint = profile
  have asks : World.perform P world (.activeFor profile.dictionaryKey) =
      (world.engine.dictionaries.activeFor profile.dictionaryKey,
        { world with outside := fun n => world.outside (n + 1) }) := rfl
  have working : World.Working { world with outside := fun n => world.outside (n + 1) } :=
    fun n => working (n + 1)
  rw [run_call, asks]
  dsimp only
  generalize inUse : world.engine.dictionaries.activeFor profile.dictionaryKey = dict
  split
  · exact .failed _
  rename_i planned chosen
  refine run_leaving (motive := fun ran => Blocked P config world.engine data req ran.1
    ran.2.engine.blobs) .elapsedMs ⟨trivial, trivial⟩ _ _ working ?_
  intro compressMs timed working _ blobs
  obtain ⟨same, verifies⟩ := verifyWrite_run P req planned data
    (dict.map (·.bytes)) timed
  have working := working.run P (verifyWrite P planned data (dict.map (·.bytes)) req)
  rw [run_attempt]
  generalize (verifyWrite P planned data (dict.map (·.bytes)) req).run (World.perform P) timed =
    checked at *
  obtain ⟨result, later⟩ := checked
  dsimp only at same verifies working ⊢
  rw [← same] at blobs
  cases result with
  | error e =>
      dsimp only
      rw [blobs]
      exact .failed _
  | ok times =>
      refine run_leaving (motive := fun ran => Blocked P config world.engine data req ran.1
        ran.2.engine.blobs) (.observe _ _) ⟨trivial, trivial⟩ _ _ working ?_
      intro _ observed working _ seen
      refine run_leaving (motive := fun ran => Blocked P config world.engine data req ran.1
        ran.2.engine.blobs) .nowMillis ⟨trivial, trivial⟩ _ _ working ?_
      intro now after working _ kept
      generalize written : sealEnvelope P _ = envelope
      obtain ⟨done, -, left⟩ := persistSealed_run P req (P.blake3 data) envelope
        after working
      rw [run_attempt]
      generalize (persistSealed (P.blake3 data) req envelope).run (World.perform P) after =
        published at *
      obtain ⟨result, last⟩ := published
      dsimp only at done left
      rw [done]
      rw [kept, seen, blobs] at left
      dsimp only [run_done]
      rw [left]
      refine .fresh _ envelope absent rfl rfl ?_
      refine ⟨planned, compressMs, times.2, times.1, now, ?_⟩
      rw [classified, inUse]
      exact ⟨chosen, verifies times rfl, written.symm⟩

theorem compressBlocking_run (data : Bytes) (world : World) (working : world.Working) :
    Blocked P config world.engine data req
      ((compressBlocking P config data req).run (World.perform P) world).1
      ((compressBlocking P config data req).run (World.perform P) world).2.engine.blobs := by
  obtain ⟨same, found⟩ := existingBlob_run P req (P.blake3 data) world working
  have stillWorking := working.run P (existingBlob P (P.blake3 data) req)
  unfold compressBlocking
  dsimp only
  rw [run_bind]
  generalize (existingBlob P (P.blake3 data) req).run (World.perform P) world = looked at *
  obtain ⟨result, later⟩ := looked
  dsimp only at same found stillWorking ⊢
  cases result with
  | some stored =>
      obtain ⟨persist, dedup, present⟩ := (found stored).mp rfl
      rw [run_done, same]
      exact .stored _ dedup rfl present
  | none =>
      rw [← same]
      refine compressFresh_run P config req data later stillWorking ?_
      intro persist dedup bytes envelope present
      rw [same] at present
      exact nomatch (found (envelope, bytes)).mpr ⟨persist, dedup, present⟩

/-! ## The whole compression -/

def SameGrants (before after : Database) : Prop :=
  ∀ tenant object, after.findGrant tenant object = before.findGrant tenant object

/-- The tenant has one more reference on the object, whose sizes are those of the envelope
if the grant is new. -/
def GrantsRow (tenantId objectHash name : String) (envelope : ProcessedFile) (now : Int)
    (before after : Database) : Prop :=
  ∀ tenant object, after.findGrant tenant object =
    if (tenant, object) = (tenantId, objectHash) then
      some (Database.granted (before.findGrant tenantId objectHash) objectHash name
        (asI64 envelope.originalSize) (asI64 envelope.processedSize) now)
    else before.findGrant tenant object

variable (ctx : TenantContext)

theorem account_run (originalSize : Nat) (outcome : BlockingOutcome) (now : Int) (world : World) :
    ((account P ctx req originalSize outcome now).run (World.perform P) world).2.engine.blobs =
        world.engine.blobs ∧
      ((∃ e, ((account P ctx req originalSize outcome now).run (World.perform P) world).1 =
          .error e ∧ SameGrants world.engine.db
          ((account P ctx req originalSize outcome now).run (World.perform P)
            world).2.engine.db) ∨
        GrantsRow ctx.tenantId (hexEncode outcome.hash.val) req.filename outcome.envelope now
          world.engine.db
          ((account P ctx req originalSize outcome now).run (World.perform P)
            world).2.engine.db) := by
  unfold account
  dsimp only
  generalize read : World.perform P world (.findGrant ctx.tenantId (hexEncode outcome.hash.val)) =
    looked
  obtain ⟨grant, later⟩ := looked
  have db : later.engine.db = world.engine.db := by
    rw [← Engine.perform_db P world.engine (world.outside 0)
      (.findGrant ctx.tenantId (hexEncode outcome.hash.val)) trivial]
    exact congrArg (fun ran => ran.2.engine.db) read.symm
  have blobs : later.engine.blobs = world.engine.blobs := by
    exact congrArg (fun ran => ran.2.engine.blobs) read.symm
  rw [run_attempt, Handler.send, run_ask, read]
  cases grant with
  | error e => exact ⟨blobs, Or.inl ⟨_, rfl, fun tenant object => by rw [db]⟩⟩
  | ok grant =>
      dsimp only
      rw [run_attempt, Handler.send, run_ask]
      rcases perform_addGrant (P := P) later ctx.tenantId (hexEncode outcome.hash.val)
        req.filename (asI64 outcome.envelope.originalSize) (asI64 outcome.envelope.processedSize)
        now with ⟨e, call⟩ | ⟨granted, next, call, -, rows⟩
      · rw [call]
        exact ⟨blobs, Or.inl ⟨_, rfl, fun tenant object => by rw [← db]⟩⟩
      · rw [call]
        refine ⟨blobs, Or.inr fun tenant object => ?_⟩
        rw [← db, ← rows tenant object]
        have kept := next.transact_record_grants (later.outside 1).statementFault
          (compressEvent ctx req originalSize outcome
            (P.addMs outcome.compressMs outcome.verifyMs) grant.isSome now)
        exact congrArg (fun grants => (grants.find (tenant, object)).map (·.2)) kept

/-- How a compression can end, and what it leaves of blobs and grants. -/
inductive Compressed (P : Platform) (config : Config) (before : Engine) (ctx : TenantContext)
    (data : Bytes) (req : CompressRequest) :
    Except EngineError CompressResult → Engine → Prop
  | failed (e : EngineError) (after : Engine) (blobs : after.blobs = before.blobs)
      (grants : SameGrants before.db after.db) :
      Compressed P config before ctx data req (.error e) after
  | replayed (result : Except EngineError CompressResult) (after : Engine)
      (seen : ¬ Unseen ctx req before.db.events) (blobs : after.blobs = before.blobs)
      (grants : SameGrants before.db after.db) :
      Compressed P config before ctx data req result after
  | unpersisted (result : Except EngineError CompressResult) (after : Engine)
      (persist : req.persist = false) (blobs : after.blobs = before.blobs)
      (grants : SameGrants before.db after.db) :
      Compressed P config before ctx data req result after
  | persisted (result : Except EngineError CompressResult) (after : Engine)
      (outcome : BlockingOutcome) (now : Int) (unseen : Unseen ctx req before.db.events)
      (persist : req.persist = true)
      (blobs : Blocked P config before data req (.ok outcome) after.blobs)
      (grants : (∃ e, result = .error e ∧ SameGrants before.db after.db) ∨
        GrantsRow ctx.tenantId (hexEncode (P.blake3 data).val) req.filename outcome.envelope now
          before.db after.db) :
      Compressed P config before ctx data req result after

theorem compressNew_run (data : Bytes) (world : World) (working : world.Working)
    (unseen : Unseen ctx req world.engine.db.events) :
    Compressed P config world.engine ctx data req
      ((compressNew P config ctx data req).run (World.perform P) world).1
      ((compressNew P config ctx data req).run (World.perform P) world).2.engine := by
  have blocked := compressBlocking_run P config req data world working
  have db : ((compressBlocking P config data req).run (World.perform P) world).2.engine.db =
      world.engine.db := (Reads.run (compressBlocking_reads data) world).1
  unfold compressNew
  rw [run_attempt]
  generalize (compressBlocking P config data req).run (World.perform P) world = ran at *
  obtain ⟨result, later⟩ := ran
  dsimp only at blocked db ⊢
  have same : SameGrants world.engine.db later.engine.db := fun tenant object => by rw [db]
  cases result with
  | error e => exact .failed _ _ (blocked.leaves (Or.inl ⟨e, rfl⟩)) same
  | ok outcome =>
      have clocked : World.perform P later .nowMillis = ((later.outside 0).clock,
          { later with outside := fun n => later.outside (n + 1) }) := rfl
      dsimp only
      rw [run_call, clocked]
      dsimp only
      split
      · rename_i persist
        obtain ⟨blobs, grants⟩ := account_run P req ctx data.length
          outcome (later.outside 0).clock { later with outside := fun n => later.outside (n + 1) }
        refine .persisted _ _ outcome (later.outside 0).clock unseen persist (blobs ▸ blocked) ?_
        dsimp only at grants
        rw [db, blocked.hash_eq] at grants
        exact grants
      · rename_i persist
        have unpersisted : req.persist = false := Bool.eq_false_iff.mpr persist
        exact .unpersisted _ _ unpersisted (blocked.leaves (Or.inr unpersisted)) same

theorem compress_run (data : Bytes) (world : World) (working : world.Working) :
    Compressed P config world.engine ctx data req
      ((compress P config ctx data req).run (World.perform P) world).1
      ((compress P config ctx data req).run (World.perform P) world).2.engine := by
  unfold compress
  cases key : req.idempotencyKey with
  | none =>
      refine compressNew_run P config req ctx data world working ?_
      intro own impossible
      rw [key] at impossible
      cases impossible
  | some own =>
      dsimp only
      rw [run_attempt, Handler.send, run_ask]
      generalize asked : World.perform P world (.findEvent ctx.tenantId own) = looked
      obtain ⟨found, later⟩ := looked
      have engine : later.engine = world.engine := by
        rw [← perform_findEvent_engine (P := P) ctx.tenantId own world, asked]
      have works : later.Working := by
        have run := working.run P (Handler.send (.findEvent ctx.tenantId own))
        rw [Handler.send, run_ask, asked] at run
        exact run
      cases found with
      | error e =>
          exact .failed _ _ (by rw [engine]) (fun tenant object => by rw [engine])
      | ok found =>
          have answer := perform_findEvent asked
          dsimp only
          cases found with
          | some prev =>
              have leaves : Leaves (replay P ctx.tenantId prev) :=
                (replay_uses ctx.tenantId prev).mono fun _ => EngineCall.reading.leaves
              obtain ⟨db, blobs⟩ := leaves.run (P := P) later
              refine .replayed _ _ ?_ (by rw [blobs, engine])
                (fun tenant object => by rw [db, engine])
              intro unseen
              rw [unseen own key] at answer
              cases answer
          | none =>
              rw [← engine]
              refine compressNew_run P config req ctx data later works ?_
              intro other same
              rw [key, Option.some.injEq] at same
              rw [engine, ← same]
              exact Option.map_eq_none_iff.mp answer.symm

/-! ## Deletion -/

def FewerGrants (before after : Database) : Prop :=
  ∀ tenant object row, after.findGrant tenant object = some row →
    ∃ old, before.findGrant tenant object = some old ∧ row.essenceSize = old.essenceSize

/-- What a deletion has done to the vault: the blob goes only when nobody has a grant. -/
def Purged (hash : Digest) (blobs : Digest → Option Bytes) (after : Engine) : Prop :=
  after.blobs = blobs ∨
    (after.blobs = Function.update blobs hash none ∧
      ∀ tenantId, after.db.findGrant tenantId (hexEncode hash.val) = none)

theorem purgeUngranted_run (hash : Digest) (remaining : Int) (world : World)
    (working : world.Working) :
    ((purgeUngranted hash remaining).run (World.perform P) world).2.engine.db =
        world.engine.db ∧
      Purged hash world.engine.blobs
        ((purgeUngranted hash remaining).run (World.perform P) world).2.engine := by
  unfold purgeUngranted
  split
  · rw [run_attempt, Handler.send, run_ask]
    have reading := world.engine.db.transact_reading (world.outside 0).statementFault
      (.countGrants (hexEncode hash.val)) rfl
    have counts : World.perform P world (.countGrants (hexEncode hash.val)) =
        ((world.engine.db.transact (world.outside 0).statementFault
          (Sql.send (.countGrants (hexEncode hash.val)))).1,
          { world with outside := fun n => world.outside (n + 1) }) := by
      simp only [World.perform, Engine.perform, Engine.withDb, countGrantsForObject, reading]
    rw [counts, Database.transact_send]
    cases (world.outside 0).statementFault 0 with
    | some e => exact ⟨rfl, Or.inl rfl⟩
    | none =>
        cases counted : (world.engine.db.execute (.countGrants (hexEncode hash.val))).1 with
        | error e => cases counted
        | ok others =>
            dsimp only
            split
            · rename_i none_left
              rw [none_left] at counted
              rw [run_attempt, Handler.send, run_ask]
              simp only [World.perform, Engine.perform, working 1]
              exact ⟨rfl, Or.inr ⟨rfl, world.engine.db.execute_countGrants counted⟩⟩
            · exact ⟨rfl, Or.inl rfl⟩
  · exact ⟨rfl, Or.inl rfl⟩

theorem deleteObject_run (ctx : TenantContext) (hash : Digest) (purge : Bool) (world : World)
    (working : world.Working) :
    FewerGrants world.engine.db
        ((deleteObject ctx hash purge).run (World.perform P) world).2.engine.db ∧
      Purged hash world.engine.blobs
        ((deleteObject ctx hash purge).run (World.perform P) world).2.engine := by
  have working : World.Working { world with outside := fun n => world.outside (n + 1) } :=
    fun n => working (n + 1)
  have clocked : World.perform P world .nowMillis = ((world.outside 0).clock,
      { world with outside := fun n => world.outside (n + 1) }) := rfl
  unfold deleteObject
  dsimp only
  rw [run_call, clocked]
  dsimp only
  rw [run_attempt, Handler.send, run_ask]
  generalize call : World.perform P { world with outside := fun n => world.outside (n + 1) }
    (.releaseGrant ctx.tenantId (hexEncode hash.val) purge (world.outside 0).clock) = released
  obtain ⟨answer, later⟩ := released
  have works : later.Working := by
    cases call
    exact fun n => working (n + 1)
  have blobs : later.engine.blobs = world.engine.blobs :=
    congrArg (fun ran => ran.2.engine.blobs) call.symm
  have fewer : FewerGrants world.engine.db later.engine.db := by
    intro tenant object row found
    rw [show later.engine.db = _ from congrArg (fun ran => ran.2.engine.db) call.symm] at found
    exact (world.engine.db.transact_releaseGrant (world.outside 1).statementFault ctx.tenantId
      (hexEncode hash.val) purge (world.outside 0).clock tenant object).1 row found
  clear call clocked
  cases answer with
  | error e => exact ⟨fewer, Or.inl blobs⟩
  | ok remaining =>
      cases remaining with
      | none => exact ⟨fewer, Or.inl blobs⟩
      | some remaining =>
          dsimp only
          obtain ⟨db, purged⟩ := purgeUngranted_run (P := P) hash remaining later works
          rw [run_attempt]
          generalize (purgeUngranted hash remaining).run (World.perform P) later = ran at *
          obtain ⟨result, last⟩ := ran
          dsimp only at db purged ⊢
          rw [blobs] at purged
          rw [← db] at fewer
          cases result with
          | error e => exact ⟨fewer, purged⟩
          | ok removed =>
              have recorded := last.engine.db.transact_record_grants
                (last.outside 1).statementFault
                (deleteEvent ctx (hexEncode hash.val) (last.outside 0).clock)
              have same : ∀ tenant object, (last.engine.db.transact
                  (last.outside 1).statementFault (Usage.record (deleteEvent ctx
                    (hexEncode hash.val) (last.outside 0).clock))).2.findGrant tenant object =
                  last.engine.db.findGrant tenant object := fun tenant object =>
                congrArg (fun grants => (grants.find (tenant, object)).map (·.2)) recorded
              refine ⟨fun tenant object row found => ?_, ?_⟩
              · exact fewer tenant object row ((same tenant object).symm.trans found)
              · rcases purged with kept | ⟨gone, ungranted⟩
                · exact Or.inl kept
                · exact Or.inr ⟨gone, fun tenantId => (same tenantId _).trans (ungranted tenantId)⟩

end Syntra

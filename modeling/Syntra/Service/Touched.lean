import Syntra.Service.Dangling

/-!
# What requests touch

The calls of uploads, deletions and reads with whose grant and which blob they are about,
what a read has seen when it answers, and what an upload leaves in the vault.
-/

set_option autoImplicit false

namespace Syntra

open Program Text

variable {P : Platform} {config : Config} {req : CompressRequest} {ctx : TenantContext}
  {data : Bytes}

/-- The bytes are an envelope that says it is of this hash. -/
def SealedFor (P : Platform) (hash : Digest) (bytes : Bytes) : Prop :=
  ∃ envelope : ProcessedFile, bytes = P.encodeFile envelope ∧ envelope.fileHash = hash.val

namespace EngineCall

/-- The calls that look at no tenant but the own one, and change nothing. -/
def peeking (tenantId : String) : EngineCall → Prop
  | findEvent tenant _ | findGrant tenant _ => tenant = tenantId
  | contains _ | readBlob _ | activeFor _ | ensurePath _ | nowMillis | elapsedMs => True
  | _ => False

def storing (P : Platform) (tenantId : String) (data : Bytes) (req : CompressRequest)
    (asked : EngineCall) : Prop :=
  asked.peeking tenantId ∨ match asked with
  | observe _ sample => sample = data
  | writeBlob written bytes => written = P.blake3 data ∧ SealedFor P written bytes
  | recordObject written name _ _ _ => written = P.blake3 data ∧ name = req.filename
  | addGrant tenant object name _ _ _ =>
    tenant = tenantId ∧ object = hexEncode (P.blake3 data).val ∧ name = req.filename
  | recordUsage event => event.tenantId = tenantId
  | _ => False

def removing (tenantId : String) (hash : Digest) : EngineCall → Prop
  | releaseGrant tenant object _ _ => tenant = tenantId ∧ object = hexEncode hash.val
  | purge purged => purged = hash
  | recordUsage event => event.tenantId = tenantId
  | countGrants _ | nowMillis => True
  | _ => False

end EngineCall

/-! ## Uploads -/

theorem existingBlob_stores :
    (existingBlob P (P.blake3 data) req).Uses (EngineCall.storing P ctx.tenantId data req) := by
  unfold existingBlob
  split
  · refine ⟨Or.inl trivial, fun present => ?_⟩
    cases present with
    | false => trivial
    | true =>
        refine ⟨Or.inl trivial, fun read => ?_⟩
        cases read <;> trivial
  · trivial

theorem persistSealed_stores {written : Sealed}
    (sealed : SealedFor P (P.blake3 data) written.bytes) :
    (persistSealed (P.blake3 data) req written).Uses
      (EngineCall.storing P ctx.tenantId data req) := by
  unfold persistSealed
  split
  · refine Uses.attempt (Uses.ask (EngineCall.ensurePath _) (Or.inl trivial)) fun _ => ?_
    refine Uses.attempt (Uses.ask (EngineCall.writeBlob _ _) (Or.inr ⟨rfl, sealed⟩)) fun _ => ?_
    refine ⟨Or.inl trivial, fun now => ?_⟩
    exact Uses.attempt (Uses.ask (EngineCall.recordObject _ _ _ _ _) (Or.inr ⟨rfl, rfl⟩))
      fun _ => trivial
  · trivial

def OfData (P : Platform) (data : Bytes) (result : Except EngineError BlockingOutcome) : Prop :=
  ∀ outcome, result = .ok outcome → outcome.hash = P.blake3 data

theorem compressFresh_stores :
    (compressFresh P config data req (P.blake3 data)).Safe
      (Monitor.only (EngineCall.storing P ctx.tenantId data req)) (fun _ => OfData P data) () := by
  refine ⟨Or.inl trivial, fun dict => ?_⟩
  dsimp only
  split
  · intro outcome failed
    cases failed
  · rename_i planned chosen
    refine ⟨Or.inl trivial, fun compressMs => safe_attempt.mpr ?_⟩
    have checks : (verifyWrite P planned data (dict.map (·.bytes)) req).Uses
        (EngineCall.storing P ctx.tenantId data req) := by
      unfold verifyWrite
      split
      · split
        · trivial
        · exact ⟨Or.inl trivial, fun _ => trivial⟩
      · trivial
    refine Safe.imp checks fun _ checked _ => ?_
    cases checked with
    | error e =>
        intro outcome failed
        cases failed
    | ok times =>
        refine ⟨Or.inr rfl, fun _ => ⟨Or.inl trivial, fun now => safe_attempt.mpr ?_⟩⟩
        refine Safe.imp (persistSealed_stores ⟨_, rfl, rfl⟩) fun _ persisted _ => ?_
        cases persisted with
        | error e =>
            intro outcome failed
            cases failed
        | ok done =>
            intro outcome made
            rw [← Except.ok.inj made]

theorem compressBlocking_stores :
    (compressBlocking P config data req).Safe
      (Monitor.only (EngineCall.storing P ctx.tenantId data req)) (fun _ => OfData P data) () := by
  refine safe_bind.mpr (Safe.imp existingBlob_stores fun _ found _ => ?_)
  cases found with
  | none => exact compressFresh_stores
  | some stored =>
      intro outcome made
      rw [← Except.ok.inj made]

theorem compressNew_stores :
    (compressNew P config ctx data req).Uses (EngineCall.storing P ctx.tenantId data req) := by
  refine safe_attempt.mpr (compressBlocking_stores.imp fun _ blocked ofData => ?_)
  cases blocked with
  | error e => trivial
  | ok outcome =>
      have own := ofData outcome rfl
      refine ⟨Or.inl trivial, fun now => ?_⟩
      dsimp only
      split
      · refine Uses.attempt (Uses.ask (EngineCall.findGrant _ _) (Or.inl rfl)) fun grant => ?_
        refine Uses.attempt (Uses.ask (EngineCall.addGrant _ _ _ _ _ _) ?_) fun granted => ?_
        · exact Or.inr ⟨rfl, by rw [own], rfl⟩
        · exact ⟨Or.inr rfl, fun _ => trivial⟩
      · trivial

theorem loadContainer_peeks (tenantId : String) (hash : Digest) :
    (loadContainer tenantId hash).Uses (EngineCall.peeking tenantId) := by
  refine Uses.attempt ?_ fun _ => ?_
  · refine Uses.attempt (Uses.ask (EngineCall.findGrant _ _) (by rfl)) fun grant => ?_
    split <;> trivial
  · exact Uses.attempt (Uses.ask (EngineCall.readBlob _) trivial) fun _ => trivial

theorem replay_peeks (tenantId : String) (prev : StoredEvent) :
    (replay P tenantId prev).Uses (EngineCall.peeking tenantId) := by
  unfold replay
  split
  · trivial
  · split
    · trivial
    · refine Uses.attempt ?_ fun envelope => ?_
      · exact Uses.attempt (loadContainer_peeks _ _) fun _ => trivial
      · refine Uses.attempt (loadContainer_peeks _ _) fun bytes => ?_
        exact ⟨rfl, fun _ => trivial⟩

theorem compress_stores :
    (compress P config ctx data req).Uses (EngineCall.storing P ctx.tenantId data req) := by
  unfold compress
  split
  · exact compressNew_stores
  · refine Uses.attempt (Uses.ask (EngineCall.findEvent _ _) (Or.inl rfl)) fun found => ?_
    cases found with
    | none => exact compressNew_stores
    | some prev => exact (replay_peeks _ prev).mono fun asked => Or.inl

/-! ## Deletions -/

theorem purgeUngranted_removes (tenantId : String) (hash : Digest) (remaining : Int) :
    (purgeUngranted hash remaining).Uses (EngineCall.removing tenantId hash) := by
  unfold purgeUngranted
  split
  · refine Uses.attempt (Uses.ask (EngineCall.countGrants _) trivial) fun others => ?_
    split
    · exact Uses.attempt (Uses.ask (EngineCall.purge _) (by rfl)) fun _ => trivial
    · trivial
  · trivial

theorem deleteObject_removes (ctx : TenantContext) (hash : Digest) (purge : Bool) :
    (deleteObject ctx hash purge).Uses (EngineCall.removing ctx.tenantId hash) := by
  refine ⟨trivial, fun now => ?_⟩
  refine Uses.attempt (Uses.ask (EngineCall.releaseGrant _ _ _ _) ⟨rfl, rfl⟩) fun released => ?_
  split
  · trivial
  · refine Uses.attempt (purgeUngranted_removes _ hash _) fun removed => ?_
    exact ⟨trivial, fun _ => ⟨rfl, fun _ => trivial⟩⟩

/-! ## Reads -/

abbrev EngineEntry := (asked : EngineCall) × asked.Answer

/-- The tenant was found to hold the object, and its blob was read. -/
structure Loaded (tenantId : String) (hash : Digest) (seen : List EngineEntry) (bytes : Bytes) :
    Prop where
  granted : ∃ row : GrantRow,
    (⟨.findGrant tenantId (hexEncode hash.val), .ok (some row)⟩ : EngineEntry) ∈ seen
  read : (⟨.readBlob hash, .ok bytes⟩ : EngineEntry) ∈ seen

/-- What a read of a container has seen when it answers. -/
def LoadedBy (tenantId : String) (hash : Digest) (seen : List EngineEntry)
    (result : Except EngineError Bytes) : Prop :=
  ∀ bytes, result = .ok bytes → Loaded tenantId hash seen bytes

theorem loadContainer_loads (tenantId : String) (hash : Digest) (seen : List EngineEntry) :
    (loadContainer tenantId hash).Safe (.seen fun _ asked => asked.peeking tenantId)
      (LoadedBy tenantId hash) seen := by
  have fails : ∀ (later : List EngineEntry) e, LoadedBy tenantId hash later (.error e) := by
    intro later e bytes failed
    cases failed
  unfold loadContainer requireGrant
  rw [safe_attempt, safe_attempt]
  refine ⟨rfl, fun grant => ?_⟩
  rcases grant with e | _ | row
  · exact fails _ _
  · exact fails _ _
  · show Safe _ _ (attempt (Handler.send (.readBlob hash)) _ _) _
    rw [safe_attempt]
    refine ⟨trivial, fun read => ?_⟩
    cases read with
    | error e => exact fails _ _
    | ok bytes =>
        intro own same
        cases same
        exact ⟨⟨row, List.mem_cons_of_mem _ List.mem_cons_self⟩, List.mem_cons_self⟩

/-- What a read of an envelope has seen when it answers. -/
def ParsedBy (P : Platform) (tenantId : String) (hash : Digest) (seen : List EngineEntry)
    (result : Except EngineError ProcessedFile) : Prop :=
  ∀ envelope, result = .ok envelope →
    ∃ bytes, Loaded tenantId hash seen bytes ∧ parse P bytes = .ok envelope

theorem loadObject_loads (tenantId : String) (hash : Digest) (seen : List EngineEntry) :
    (loadObject P tenantId hash).Safe (.seen fun _ asked => asked.peeking tenantId)
      (ParsedBy P tenantId hash) seen := by
  unfold loadObject
  rw [safe_attempt]
  refine (loadContainer_loads tenantId hash seen).imp fun later result loaded => ?_
  cases result with
  | error e =>
      intro envelope failed
      cases failed
  | ok bytes =>
      intro envelope parsed
      exact ⟨bytes, loaded bytes rfl, Fallible.mapError_eq_ok.mp parsed⟩

/-! ## What one call writes -/

def EngineCall.addsGrant (tenantId objectHash : String) : EngineCall → Prop
  | addGrant tenant object _ _ _ _ => (tenantId, objectHash) = (tenant, object)
  | _ => False

def EngineCall.records (tenantId : String) : EngineCall → Prop
  | recordUsage event => event.tenantId = tenantId
  | _ => False

def EngineCall.writesBlob (hash : Digest) : EngineCall → Prop
  | writeBlob written _ => written = hash
  | purge purged => purged = hash
  | _ => False

theorem Database.transact_releaseGrant_events (db : Database) (faults : Nat → Option DbError)
    (tenantId objectHash : String) (purge : Bool) (nowMs : Int) :
    (db.transact faults (releaseGrant tenantId objectHash purge nowMs)).2.events = db.events := by
  have quiet : (releaseGrant tenantId objectHash purge nowMs).Uses fun statement =>
      ∀ state : Database, (state.execute statement).2.events = state.events := by
    refine Uses.attempt (Uses.ask (Statement.findGrant _ _) fun _ => rfl) fun found => ?_
    unfold releaseGrantOf
    cases found with
    | none => trivial
    | some existing =>
        dsimp only
        split
        · exact Uses.attempt (Uses.ask (Statement.updateGrant _ _ _ _) fun _ => rfl)
            fun _ => trivial
        · exact Uses.attempt (Uses.ask (Statement.deleteGrant _ _) fun _ => rfl) fun _ => trivial
  exact db.transact_keeps faults quiet (fun state => state.events = db.events)
    (fun state statement held same => (same state).trans held) rfl

theorem Database.transact_record_others (db : Database) (faults : Nat → Option DbError)
    (event : UsageEvent) {tenantId : String} (other : event.tenantId ≠ tenantId) :
    (db.transact faults (Usage.record event)).2.events.rows.filter (·.tenantId = tenantId) =
      db.events.rows.filter (·.tenantId = tenantId) := by
  refine db.transact_keeps faults (record_asks event)
    (fun state => state.events.rows.filter (·.tenantId = tenantId) =
      db.events.rows.filter (·.tenantId = tenantId)) ?_ rfl
  intro state statement held records
  cases statement with
  | insertEvent own =>
      cases records
      simp only [execute]
      split
      · rename_i events inserted
        rw [(Table.insert_eq_some inserted).2, List.filter_append, held]
        simp [other]
      · exact held
  | findEvent => exact held
  | _ => exact records.elim

variable (engine : Engine) (outside : Outside) (call : EngineCall)

theorem Engine.perform_grant_same {tenantId objectHash : String}
    (unadded : ¬ call.addsGrant tenantId objectHash)
    (unreleased : ¬ call.releases tenantId objectHash) :
    (engine.perform P outside call).2.db.findGrant tenantId objectHash =
      engine.db.findGrant tenantId objectHash := by
  by_cases leaves : call.leavesDb
  · rw [engine.perform_db P outside call leaves]
  cases call with
  | addGrant tenant object name originalSize essenceSize nowMs =>
      rcases engine.db.transact_addGrant outside.statementFault tenant object name originalSize
        essenceSize nowMs with ⟨e, -, refused⟩ | ⟨-, next, done, -, rows⟩
      · simp only [perform, refused, withDb]
      · simp only [perform, done, withDb, rows]
        exact if_neg unadded
  | releaseGrant tenant object purge nowMs =>
      exact (engine.db.transact_releaseGrant outside.statementFault tenant object purge nowMs
        tenantId objectHash).2 unreleased
  | recordUsage event =>
      have same := engine.db.transact_record_grants outside.statementFault event
      simp only [perform, withDb, Database.findGrant, same]
  | _ => exact absurd trivial leaves

theorem Engine.perform_grant_new {tenantId objectHash : String}
    (absent : engine.db.findGrant tenantId objectHash = none)
    (granted : (engine.perform P outside call).2.db.findGrant tenantId objectHash ≠ none) :
    call.addsGrant tenantId objectHash := by
  by_cases releases : call.releases tenantId objectHash
  · cases call with
    | releaseGrant tenant object purge nowMs =>
        obtain ⟨row, found⟩ := Option.ne_none_iff_exists'.mp granted
        obtain ⟨old, before, -⟩ := (engine.db.transact_releaseGrant outside.statementFault tenant
          object purge nowMs tenantId objectHash).1 row found
        rw [absent] at before
        cases before
    | _ => exact releases.elim
  · by_contra unadded
    rw [engine.perform_grant_same outside call unadded releases] at granted
    exact granted absent

theorem Engine.perform_events_same {tenantId : String} (other : ¬ call.records tenantId) :
    (engine.perform P outside call).2.db.events.rows.filter (·.tenantId = tenantId) =
      engine.db.events.rows.filter (·.tenantId = tenantId) := by
  by_cases leaves : call.leavesDb
  · rw [engine.perform_db P outside call leaves]
  cases call with
  | addGrant tenant object name originalSize essenceSize nowMs =>
      rcases engine.db.transact_addGrant outside.statementFault tenant object name originalSize
        essenceSize nowMs with ⟨e, -, refused⟩ | ⟨-, next, done, same, -⟩
      · simp only [perform, refused, withDb]
      · simp only [perform, done, withDb, same]
  | releaseGrant tenant object purge nowMs =>
      have same := engine.db.transact_releaseGrant_events outside.statementFault tenant object
        purge nowMs
      simp only [perform, withDb, same]
  | recordUsage event =>
      exact engine.db.transact_record_others outside.statementFault event other
  | _ => exact absurd trivial leaves

theorem Engine.perform_blob_same {hash : Digest} (other : ¬ call.writesBlob hash) :
    (engine.perform P outside call).2.blobs hash = engine.blobs hash := by
  by_cases leaves : call.leavesBlobs
  · rw [engine.perform_blobs P outside call leaves]
  cases call with
  | writeBlob written bytes =>
      simp only [perform]
      cases outside.fault with
      | some e => rfl
      | none => exact Function.update_of_ne (fun same => other same.symm) _ _
  | purge purged =>
      simp only [perform]
      cases outside.fault with
      | some e => rfl
      | none => exact Function.update_of_ne (fun same => other same.symm) _ _
  | _ => exact absurd trivial leaves

theorem Engine.perform_blob_old {hash : Digest} {bytes : Bytes}
    (other : call ≠ .writeBlob hash bytes)
    (stored : (engine.perform P outside call).2.blobs hash = some bytes) :
    engine.blobs hash = some bytes := by
  by_cases writes : call.writesBlob hash
  · cases call with
    | writeBlob written own =>
        obtain rfl : written = hash := writes
        simp only [perform] at stored
        cases fault : outside.fault with
        | some e =>
            rw [fault] at stored
            exact stored
        | none =>
            rw [fault] at stored
            simp only [Function.update_self, Option.some.injEq] at stored
            rw [stored] at other
            exact absurd rfl other
    | purge purged =>
        obtain rfl : purged = hash := writes
        simp only [perform] at stored
        cases fault : outside.fault with
        | some e =>
            rw [fault] at stored
            exact stored
        | none =>
            rw [fault] at stored
            simp [Function.update_self] at stored
    | _ => exact writes.elim
  · rwa [engine.perform_blob_same outside call writes] at stored

/-! ## What an upload leaves -/

/-- Every blob is sealed for its address. -/
def Addressed (P : Platform) (engine : Engine) : Prop :=
  ∀ hash bytes, engine.blobs hash = some bytes → SealedFor P hash bytes

theorem storing_addressed {tenantId : String} (stores : call.storing P tenantId data req)
    (addressed : Addressed P engine) : Addressed P (engine.perform P outside call).2 := by
  intro hash bytes stored
  by_cases writes : call = .writeBlob hash bytes
  · subst writes
    exact (stores.resolve_left id).2
  · exact addressed hash bytes (engine.perform_blob_old outside call writes stored)

theorem storing_present {tenantId : String} {hash : Digest}
    (stores : call.storing P tenantId data req) (present : engine.blobs hash ≠ none) :
    (engine.perform P outside call).2.blobs hash ≠ none := by
  refine engine.perform_blobs_kept P outside call hash ?_ present
  rintro rfl
  exact stores.elim id id

theorem compress_addressed (P : Platform) (config : Config) (ctx : TenantContext) (data : Bytes)
    (req : CompressRequest) {world : World} (addressed : Addressed P world.engine) :
    Addressed P ((compress P config ctx data req).run (World.perform P) world).2.engine := by
  have uses : (compress P config ctx data req).Uses (EngineCall.storing P ctx.tenantId data req) :=
    compress_stores
  exact uses.run_keeps (World.perform P) (fun state => Addressed P state.engine)
    (fun _ _ held stores => storing_addressed _ _ _ stores held) world addressed

theorem compress_present (P : Platform) (config : Config) (ctx : TenantContext) (data : Bytes)
    (req : CompressRequest) {world : World} {hash : Digest}
    (present : world.engine.blobs hash ≠ none) :
    ((compress P config ctx data req).run (World.perform P) world).2.engine.blobs hash ≠ none := by
  have uses : (compress P config ctx data req).Uses (EngineCall.storing P ctx.tenantId data req) :=
    compress_stores
  exact uses.run_keeps (World.perform P) (fun state => state.engine.blobs hash ≠ none)
    (fun _ _ held stores => storing_present _ _ _ stores held) world present

theorem compressNew_shows (persist : req.persist = true)
    {seen : List ((made : EngineCall) × made.Answer)} :
    (compressNew P config ctx data req).Safe (shownFirst P (P.blake3 data))
      (fun later result => ∀ value, result = .ok value →
        ∃ entry ∈ later, Shows P (P.blake3 data) entry) seen := by
  refine safe_attempt.mpr ((compressBlocking_shown data req).imp fun later result shown => ?_)
  cases result with
  | error e =>
      intro value failed
      cases failed
  | ok outcome =>
      dsimp only
      unfold shownFirst
      exact safe_seen _ (fun _ _ there _ => there) (fun _ _ there _ _ => there)
        (shown.2 persist rfl)

/-- A new upload that persists and succeeds has been shown the blob of its data, and removes
none. -/
theorem compress_leaves (persist : req.persist = true) (unkeyed : req.idempotencyKey = none)
    {world after : World} {result : CompressResult}
    (ran : (compress P config ctx data req).run (World.perform P) world = (.ok result, after)) :
    after.engine.blobs (P.blake3 data) ≠ none := by
  have shown : (compress P config ctx data req).Safe (shownFirst P (P.blake3 data))
      (fun later result => ∀ value, result = .ok value →
        ∃ entry ∈ later, Shows P (P.blake3 data) entry) [] := by
    unfold compress
    rw [unkeyed]
    exact compressNew_shows persist
  have kept : ∀ (state : World) (known : List ((made : EngineCall) × made.Answer)) asked,
      ((∃ entry ∈ known, Shows P (P.blake3 data) entry) →
        state.engine.blobs (P.blake3 data) ≠ none) →
      asked.storing P ctx.tenantId data req →
      (∃ entry ∈ ⟨asked, (World.perform P state asked).1⟩ :: known,
        Shows P (P.blake3 data) entry) →
      (World.perform P state asked).2.engine.blobs (P.blake3 data) ≠ none := by
    rintro state known asked held stores ⟨entry, member, shown⟩
    rcases List.mem_cons.mp member with rfl | member
    · exact shows_perform state.engine (state.outside 0) asked shown
    · exact storing_present _ _ _ stores (held ⟨entry, member, shown⟩)
  obtain ⟨later, held, ends⟩ := (shown.and_uses compress_stores).run_keeps (World.perform P)
    (fun state known => (∃ entry ∈ known, Shows P (P.blake3 data) entry) →
      state.engine.blobs (P.blake3 data) ≠ none)
    (fun state known asked held allowed => kept state known asked held allowed.2) world (by simp)
  rw [ran] at held ends
  exact held (ends result rfl)

end Syntra

import Syntra.Service.Twins

/-!
# Requests in worlds that look alike

The calls of a request that does not look for a stored blob, and of reading,
come through alike in such worlds, and so do the requests.
-/

set_option autoImplicit false

namespace Syntra

open Program Text

variable {P : Platform} {config : Config} {tenantId : String} {req : CompressRequest}

/-! ## Calls -/

theorem findGrant_matches (object : String) :
    Matches (World.perform P) (Alike P tenantId) (Alike P tenantId)
      (Handler.send (.findGrant tenantId object)) (Handler.send (.findGrant tenantId object))
      fun found found' world _ => found.map (·.refs) = found'.map (·.refs) ∧
        (found ≠ none → world.engine.db.findGrant tenantId object ≠ none) := by
  intro world world' alike
  have kept := alike.leaves (.findGrant tenantId object) (.findGrant tenantId object)
    ⟨trivial, trivial⟩ ⟨trivial, trivial⟩
  have same : (World.perform P world (.findGrant tenantId object)).2.engine.db =
      world.engine.db := Engine.perform_db P _ _ (.findGrant tenantId object) trivial
  suffices answers : Agree (fun found found' => found.map (·.refs) = found'.map (·.refs) ∧
      (found ≠ none → world.engine.db.findGrant tenantId object ≠ none))
      (World.perform P world (.findGrant tenantId object)).1
      (World.perform P world' (.findGrant tenantId object)).1 by
    rw [← same] at answers
    exact ⟨kept, answers⟩
  have refs := alike.refs object
  simp only [World.perform, Engine.perform, Engine.withDb]
  rw [Database.transact_send, Database.transact_send, (alike.faults 0).2]
  cases (world'.outside 0).statementFault 0 with
  | some e => exact .error e
  | none => exact .ok ⟨refs, id⟩

theorem readBlob_matches (hash : Digest) :
    Matches (World.perform P) (Alike P tenantId)
      (fun world world' => Alike P tenantId world world' ∧ SameBlob P hash world world')
      (Handler.send (.readBlob hash)) (Handler.send (.readBlob hash))
      fun bytes bytes' _ _ => SameBytes P bytes bytes' := by
  intro world world' related
  obtain ⟨alike, same⟩ := related
  refine ⟨alike.leaves (.readBlob hash) (.readBlob hash) ⟨trivial, trivial⟩ ⟨trivial, trivial⟩, ?_⟩
  have faults := (alike.faults 0).1
  unfold SameBlob at same
  simp only [Handler.send, run_ask, World.perform, Engine.perform, faults]
  generalize world.engine.blobs hash = blob at same
  generalize world'.engine.blobs hash = blob' at same
  cases (world'.outside 0).fault with
  | some e => exact .error _
  | none =>
      cases same with
      | none => exact .error _
      | some same => exact .ok same

theorem ensurePath_matches (hash : Digest) :
    Matches (World.perform P) (Alike P tenantId) (Alike P tenantId)
      (Handler.send (.ensurePath hash)) (Handler.send (.ensurePath hash))
      fun _ _ _ _ => True := by
  intro world world' alike
  refine ⟨alike.leaves (.ensurePath hash) (.ensurePath hash) ⟨trivial, trivial⟩
    ⟨trivial, trivial⟩, ?_⟩
  have faults := (alike.faults 0).1
  simp only [Handler.send, run_ask, World.perform, Engine.perform, faults]
  cases (world'.outside 0).fault with
  | some e => exact .error e
  | none => exact .ok trivial

theorem writeBlob_matches (hash : Digest) {bytes bytes' : Bytes} (same : SameBytes P bytes bytes') :
    Matches (World.perform P) (Alike P tenantId) (Alike P tenantId)
      (Handler.send (.writeBlob hash bytes)) (Handler.send (.writeBlob hash bytes'))
      fun _ _ world world' => SameBlob P hash world world' := by
  intro world world' alike
  have tail := alike.faults.tail
  have faults := (alike.faults 0).1
  simp only [Handler.send, run_ask, World.perform, Engine.perform, faults]
  cases (world'.outside 0).fault with
  | some e => exact ⟨⟨tail, alike.refs, alike.blobs⟩, .error _⟩
  | none =>
      have written : Option.Rel (SameBytes P) (some bytes) (some bytes') := .some same
      refine ⟨⟨tail, alike.refs, fun own granted => ?_⟩, .ok ?_⟩
      · unfold SameBlob
        dsimp only
        rw [Function.update_apply, Function.update_apply]
        split
        · exact written
        · exact alike.blobs own granted
      · unfold SameBlob
        dsimp only
        rw [Function.update_self, Function.update_self]
        exact written

theorem recordObject_matches (hash : Digest) (name : String) (originalSize essenceSize : Nat)
    (now now' : Int) :
    Matches (World.perform P) (Alike P tenantId)
      (fun world world' => Alike P tenantId world world' ∧ SameBlob P hash world world')
      (Handler.send (.recordObject hash name originalSize essenceSize now))
      (Handler.send (.recordObject hash name originalSize essenceSize now'))
      fun _ _ world world' => SameBlob P hash world world' := by
  intro world world' related
  obtain ⟨alike, same⟩ := related
  have kept := alike.leaves (.recordObject hash name originalSize essenceSize now)
    (.recordObject hash name originalSize essenceSize now') ⟨trivial, trivial⟩ ⟨trivial, trivial⟩
  have blob := same.leaves (.recordObject hash name originalSize essenceSize now)
    (.recordObject hash name originalSize essenceSize now') trivial trivial
  refine ⟨kept, ?_⟩
  have faults := (alike.faults 0).1
  suffices answers : Agree (fun _ _ => True)
      (World.perform P world (.recordObject hash name originalSize essenceSize now)).1
      (World.perform P world' (.recordObject hash name originalSize essenceSize now')).1 by
    exact answers.imp fun _ _ _ => blob
  simp only [World.perform, Engine.perform, faults]
  cases (world'.outside 0).fault with
  | some e => exact .error e
  | none => exact .ok trivial

theorem addGrant_matches (hash : Digest) (name : String) (originalSize essenceSize now now' : Int) :
    Matches (World.perform P) (Alike P tenantId)
      (fun world world' => Alike P tenantId world world' ∧ SameBlob P hash world world')
      (Handler.send (.addGrant tenantId (hexEncode hash.val) name originalSize essenceSize now))
      (Handler.send (.addGrant tenantId (hexEncode hash.val) name originalSize essenceSize now'))
      fun granted granted' _ _ => granted = granted' := by
  intro world world' related
  obtain ⟨alike, same⟩ := related
  have tail := alike.faults.tail
  have statements := (alike.faults 0).2
  have held := alike.refs (hexEncode hash.val)
  have first : (world.engine.db.findGrant tenantId (hexEncode hash.val)).isNone =
      (world'.engine.db.findGrant tenantId (hexEncode hash.val)).isNone := by
    simpa using congrArg Option.isNone held
  have counted : (Database.granted (world.engine.db.findGrant tenantId (hexEncode hash.val))
      (hexEncode hash.val) name originalSize essenceSize now).refs =
      (Database.granted (world'.engine.db.findGrant tenantId (hexEncode hash.val))
        (hexEncode hash.val) name originalSize essenceSize now').refs := by
    rw [refs_granted, refs_granted, held]
  simp only [Handler.send, run_ask, World.perform, Engine.perform, Engine.withDb]
  rcases world.engine.db.transact_addGrant (world.outside 0).statementFault tenantId
    (hexEncode hash.val) name originalSize essenceSize now with
    ⟨e, fault, refused⟩ | ⟨fault, next, done, -, rows⟩
  · rcases world'.engine.db.transact_addGrant (world'.outside 0).statementFault tenantId
      (hexEncode hash.val) name originalSize essenceSize now' with
      ⟨e', fault', refused'⟩ | ⟨fault', -⟩
    · rw [statements, fault'] at fault
      rw [refused, refused', Option.some.inj fault]
      exact ⟨⟨tail, alike.refs, alike.blobs⟩, .error e⟩
    · rw [statements, fault'] at fault
      cases fault
  · rcases world'.engine.db.transact_addGrant (world'.outside 0).statementFault tenantId
      (hexEncode hash.val) name originalSize essenceSize now' with
      ⟨e', fault', -⟩ | ⟨-, next', done', -, rows'⟩
    · rw [statements, fault'] at fault
      cases fault
    · rw [done, done']
      refine ⟨⟨tail, fun object => ?_, fun own granted => ?_⟩, .ok ?_⟩
      · dsimp only
        rw [rows, rows']
        split
        · exact congrArg some counted
        · exact alike.refs object
      · dsimp only at granted
        rw [rows] at granted
        by_cases here : own = hash
        · rw [here]
          exact same
        · refine alike.blobs own ?_
          rwa [if_neg fun keys => here (hexEncode_digest_inj (Prod.mk.inj keys).2)] at granted
      · rw [counted, first]

theorem Alike.recordUsage {world world' : World} (alike : Alike P tenantId world world')
    (event event' : UsageEvent) :
    Alike P tenantId (World.perform P world (.recordUsage event)).2
      (World.perform P world' (.recordUsage event')).2 := by
  have kept : ∀ (before : World) (own : UsageEvent) (object : String),
      (World.perform P before (.recordUsage own)).2.engine.db.findGrant tenantId object =
        before.engine.db.findGrant tenantId object := by
    intro before own object
    have grants := before.engine.db.transact_record_grants (before.outside 0).statementFault own
    simp only [World.perform, Engine.perform, Engine.withDb, Database.findGrant, grants]
  refine ⟨alike.faults.tail, fun object => ?_, fun own granted => ?_⟩
  · rw [kept, kept]
    exact alike.refs object
  · rw [kept] at granted
    exact (alike.blobs own granted).leaves (.recordUsage event) (.recordUsage event') trivial trivial

def SameEvents (tenantId : String) (world world' : World) : Prop :=
  ∀ key, (world.engine.db.events.find (tenantId, key)).map (·.stored) =
    (world'.engine.db.events.find (tenantId, key)).map (·.stored)

/-! ## Reading -/

theorem requireGrant_matches (hash : Digest) :
    Matches (World.perform P) (Alike P tenantId) (Alike P tenantId)
      (requireGrant tenantId hash) (requireGrant tenantId hash)
      fun _ _ world world' => SameBlob P hash world world' := by
  refine Matches.attempt (findGrant_matches (hexEncode hash.val)) fun found found' => ?_
  intro world world' related
  obtain ⟨alike, refs, granted⟩ := related
  have present : found.isNone = found'.isNone := by
    simpa using congrArg Option.isNone refs
  rw [← present]
  cases found with
  | none => exact ⟨alike, .error _⟩
  | some row => exact ⟨alike, .ok (alike.blobs hash (granted (Option.some_ne_none row)))⟩

theorem loadContainer_matches (hash : Digest) :
    Matches (World.perform P) (Alike P tenantId) (Alike P tenantId)
      (loadContainer tenantId hash) (loadContainer tenantId hash)
      fun bytes bytes' _ _ => SameBytes P bytes bytes' := by
  refine Matches.attempt (requireGrant_matches hash) fun _ _ => ?_
  refine Matches.attempt (readBlob_matches hash) fun bytes bytes' => ?_
  exact Matches.ok fun world world' related => related

theorem loadObject_matches (framed : P.Framed) (hash : Digest) :
    Matches (World.perform P) (Alike P tenantId) (Alike P tenantId)
      (loadObject P tenantId hash) (loadObject P tenantId hash)
      fun envelope envelope' _ _ => envelope.untimed = envelope'.untimed := by
  refine Matches.attempt (loadContainer_matches hash) fun bytes bytes' => ?_
  intro world world' related
  exact ⟨related.1, (related.2.parse framed).mapError EngineError.container⟩

def SameResult (P : Platform) (result result' : CompressResult) : Prop :=
  result.untimed P = result'.untimed P

theorem replay_matches (framed : P.Framed) (prev : StoredEvent) :
    Matches (World.perform P) (Alike P tenantId) (Alike P tenantId)
      (replay P tenantId prev) (replay P tenantId prev)
      fun result result' _ _ => SameResult P result result' := by
  unfold replay
  cases prev.objectHash with
  | none => exact Matches.error fun _ _ alike => alike
  | some hashHex =>
      dsimp only
      cases parseId hashHex with
      | error e => exact Matches.error fun _ _ alike => alike
      | ok hash =>
          refine Matches.attempt (loadObject_matches framed hash) fun envelope envelope' => ?_
          refine Matches.assume fun opened => ?_
          refine Matches.attempt (loadContainer_matches hash) fun bytes bytes' => ?_
          refine Matches.assume fun read => ?_
          refine Couples.call (fun found found' world world' => Alike P tenantId world world' ∧
            found.toOption.bind (fun row => row.map (·.refs)) =
              found'.toOption.bind (fun row => row.map (·.refs))) ?_ fun found found' => ?_
          · intro world world' alike
            obtain ⟨kept, agree⟩ := findGrant_matches hashHex world world' alike
            refine ⟨kept, ?_⟩
            rw [Handler.send, run_ask, run_ask] at agree
            generalize (World.perform P world (.findGrant tenantId hashHex)).1 = found at agree ⊢
            generalize (World.perform P world' (.findGrant tenantId hashHex)).1 = found' at agree ⊢
            cases agree with
            | ok related => exact related.1
            | error e => rfl
          · intro world world' related
            refine ⟨related.1, .ok ?_⟩
            simp only [SameResult, CompressResult.untimed, opened, related.2,
              read.untimedBytes_eq framed]

/-! ## Compressing -/

theorem verifyWrite_matches (planned : Planned) (data : Bytes) (dict : Option Bytes) :
    Matches (World.perform P) (Alike P tenantId) (Alike P tenantId)
      (verifyWrite P planned data dict req) (verifyWrite P planned data dict req)
      fun checked checked' _ _ => checked.2 = checked'.2 := by
  unfold verifyWrite
  split
  · cases verifyRoundtrip P planned data dict with
    | error e => exact Matches.error fun _ _ alike => alike
    | ok _ =>
        refine Couples.call (fun _ _ => Alike P tenantId) (fun world world' alike => ?_)
          fun ms ms' => ?_
        · exact alike.leaves .elapsedMs .elapsedMs ⟨trivial, trivial⟩ ⟨trivial, trivial⟩
        · exact Matches.ok fun _ _ alike => ⟨alike, rfl⟩
  · exact Matches.ok fun _ _ alike => ⟨alike, rfl⟩

theorem sealEnvelope_sameBytes {envelope envelope' : ProcessedFile}
    (same : (sealEnvelope P envelope).envelope.untimed =
      (sealEnvelope P envelope').envelope.untimed) :
    SameBytes P (sealEnvelope P envelope).bytes (sealEnvelope P envelope').bytes :=
  Or.inr ⟨_, _, same, rfl, rfl⟩

theorem persistSealed_matches (persist : req.persist = true) (hash : Digest)
    {written written' : Sealed} (same : written.envelope.untimed = written'.envelope.untimed)
    (bytes : SameBytes P written.bytes written'.bytes) :
    Matches (World.perform P) (Alike P tenantId) (Alike P tenantId)
      (persistSealed hash req written) (persistSealed hash req written')
      fun _ _ world world' => SameBlob P hash world world' := by
  have original : written.envelope.originalSize = written'.envelope.originalSize := by
    simpa using congrArg ProcessedFile.originalSize same
  have processed : written.envelope.processedSize = written'.envelope.processedSize := by
    simpa using congrArg ProcessedFile.processedSize same
  unfold persistSealed
  rw [if_pos persist, if_pos persist, original, processed]
  refine Matches.attempt (ensurePath_matches hash) fun _ _ => ?_
  refine Matches.assume fun _ => ?_
  refine Matches.attempt (writeBlob_matches hash bytes) fun _ _ => ?_
  refine Couples.call (fun _ _ world world' => Alike P tenantId world world' ∧
    SameBlob P hash world world') (fun world world' related => ?_) fun now now' => ?_
  · exact ⟨related.1.leaves .nowMillis .nowMillis ⟨trivial, trivial⟩ ⟨trivial, trivial⟩,
      related.2.leaves .nowMillis .nowMillis trivial trivial⟩
  · refine Matches.attempt (recordObject_matches hash _ _ _ now now') fun _ _ => ?_
    exact Matches.ok fun _ _ related => related

structure SameOutcome (P : Platform) (hash : Digest) (outcome outcome' : BlockingOutcome) :
    Prop where
  hash_eq : outcome.hash = hash
  hash_eq' : outcome'.hash = hash
  envelope : outcome.envelope.untimed = outcome'.envelope.untimed
  bytes : SameBytes P outcome.bytes outcome'.bytes
  sampledDecision : outcome.sampledDecision = outcome'.sampledDecision

def SameActive (world world' : World) : Prop :=
  ∀ contentClass, world.engine.dictionaries.activeFor contentClass =
    world'.engine.dictionaries.activeFor contentClass

theorem compressFresh_matches (persist : req.persist = true) (data : Bytes) (hash : Digest) :
    Matches (World.perform P) (Alike P tenantId)
      (fun world world' => Alike P tenantId world world' ∧ SameActive world world')
      (compressFresh P config data req hash) (compressFresh P config data req hash)
      fun outcome outcome' world world' =>
        SameBlob P hash world world' ∧ SameOutcome P hash outcome outcome' := by
  unfold compressFresh
  dsimp only
  generalize classify P.floats P.infer data req.filename req.mimeHint = profile
  refine Couples.call (fun dict dict' world world' => Alike P tenantId world world' ∧ dict = dict')
    (fun world world' related => ?_) fun dict dict' => ?_
  · exact ⟨related.1.leaves (.activeFor profile.dictionaryKey) (.activeFor profile.dictionaryKey)
      ⟨trivial, trivial⟩ ⟨trivial, trivial⟩, related.2 profile.dictionaryKey⟩
  refine Matches.assume fun same => ?_
  subst same
  cases compressBest P.codecs P.floats data profile req.effort (dict.map (·.bytes)) req.forced
    config.limits with
  | error e => exact Matches.error fun _ _ alike => alike
  | ok planned =>
      dsimp only
      refine Couples.call (fun _ _ => Alike P tenantId) (fun world world' alike => ?_)
        fun compressMs compressMs' => ?_
      · exact alike.leaves .elapsedMs .elapsedMs ⟨trivial, trivial⟩ ⟨trivial, trivial⟩
      refine Matches.attempt (verifyWrite_matches planned data _) fun checked checked' => ?_
      obtain ⟨verifyMs, verified⟩ := checked
      obtain ⟨verifyMs', verified'⟩ := checked'
      refine Matches.assume fun same => ?_
      dsimp only at same ⊢
      subst same
      refine Couples.call (fun _ _ => Alike P tenantId) (fun world world' alike => ?_) fun _ _ => ?_
      · exact alike.leaves (.observe profile.dictionaryKey data) (.observe profile.dictionaryKey data)
          ⟨trivial, trivial⟩ ⟨trivial, trivial⟩
      refine Couples.call (fun _ _ => Alike P tenantId) (fun world world' alike => ?_)
        fun now now' => ?_
      · exact alike.leaves .nowMillis .nowMillis ⟨trivial, trivial⟩ ⟨trivial, trivial⟩
      have envelope : (sealEnvelope P (build P planned profile req.filename hash dict compressMs
          verified verifyMs now)).envelope.untimed = (sealEnvelope P (build P planned profile
            req.filename hash dict compressMs' verified verifyMs' now')).envelope.untimed := rfl
      have bytes := sealEnvelope_sameBytes envelope
      refine Matches.attempt (persistSealed_matches persist hash envelope bytes) fun _ _ => ?_
      exact Matches.ok fun world world' related =>
        ⟨related.1, related.2, rfl, rfl, envelope, bytes, rfl⟩

variable {ctx : TenantContext}

theorem account_matches (framed : P.Framed) (hash : Digest) (originalSize : Nat)
    {outcome outcome' : BlockingOutcome} (same : SameOutcome P hash outcome outcome')
    (now now' : Int) :
    Matches (World.perform P) (Alike P ctx.tenantId)
      (fun world world' => Alike P ctx.tenantId world world' ∧ SameBlob P hash world world')
      (account P ctx req originalSize outcome now) (account P ctx req originalSize outcome' now')
      fun result result' _ _ => SameResult P result result' := by
  have original : outcome.envelope.originalSize = outcome'.envelope.originalSize := by
    simpa using congrArg ProcessedFile.originalSize same.envelope
  have processed : outcome.envelope.processedSize = outcome'.envelope.processedSize := by
    simpa using congrArg ProcessedFile.processedSize same.envelope
  unfold account
  rw [same.hash_eq, same.hash_eq', original, processed]
  have looks : Matches (World.perform P) (Alike P ctx.tenantId)
      (fun world world' => Alike P ctx.tenantId world world' ∧ SameBlob P hash world world')
      (Handler.send (.findGrant ctx.tenantId (hexEncode hash.val)))
      (Handler.send (.findGrant ctx.tenantId (hexEncode hash.val)))
      fun found found' world world' =>
        SameBlob P hash world world' ∧ found.isSome = found'.isSome := by
    intro world world' related
    obtain ⟨alike, agree⟩ := findGrant_matches (hexEncode hash.val) world world' related.1
    have blob := related.2.leaves (.findGrant ctx.tenantId (hexEncode hash.val))
      (.findGrant ctx.tenantId (hexEncode hash.val)) trivial trivial
    refine ⟨alike, agree.imp fun found found' held => ⟨blob, ?_⟩⟩
    simpa using congrArg Option.isSome held.1
  refine Matches.attempt looks fun found found' => ?_
  refine Matches.weaken (Matches.assume fun present => ?_)
    (fun _ _ related => And.intro (And.intro related.1 related.2.1) related.2.2)
    fun _ _ _ _ _ same => same
  rw [present]
  refine Matches.attempt (addGrant_matches hash _ _ _ now now') fun granted granted' => ?_
  refine Matches.assume fun counted => ?_
  subst counted
  refine Couples.call (fun _ _ => Alike P ctx.tenantId)
    (fun world world' alike => alike.recordUsage _ _) fun _ _ => Matches.ok ?_
  intro world world' alike
  refine ⟨alike, ?_⟩
  simp only [SameResult, resultOf, CompressResult.untimed, same.hash_eq, same.hash_eq',
    same.envelope, same.bytes.untimedBytes_eq framed, same.sampledDecision]

theorem compressNew_matches (framed : P.Framed) (persist : req.persist = true)
    (fresh : req.allowDedup = false) (data : Bytes) :
    Matches (World.perform P) (Alike P ctx.tenantId)
      (fun world world' => Alike P ctx.tenantId world world' ∧ SameActive world world')
      (compressNew P config ctx data req) (compressNew P config ctx data req)
      fun result result' _ _ => SameResult P result result' := by
  have blocking : compressBlocking P config data req =
      compressFresh P config data req (P.blake3 data) := by
    simp [compressBlocking, existingBlob, fresh, Program.bind]
  unfold compressNew
  rw [blocking]
  refine Matches.attempt (compressFresh_matches persist data (P.blake3 data))
    fun outcome outcome' => ?_
  refine Matches.weaken (Matches.assume fun same => ?_)
    (fun _ _ related => And.intro (And.intro related.1 related.2.1) related.2.2)
    fun _ _ _ _ _ same => same
  refine Couples.call (fun _ _ world world' => Alike P ctx.tenantId world world' ∧
    SameBlob P (P.blake3 data) world world') (fun world world' related => ?_) fun now now' => ?_
  · exact ⟨related.1.leaves .nowMillis .nowMillis ⟨trivial, trivial⟩ ⟨trivial, trivial⟩,
      related.2.leaves .nowMillis .nowMillis trivial trivial⟩
  · rw [if_pos persist, if_pos persist]
    exact account_matches framed (P.blake3 data) data.length same now now'

theorem findEvent_matches (key : String) :
    Matches (World.perform P) (Alike P tenantId)
      (fun world world' => Alike P tenantId world world' ∧ SameEvents tenantId world world')
      (Handler.send (.findEvent tenantId key)) (Handler.send (.findEvent tenantId key))
      fun found found' world _ => found = found' ∧
        found = (world.engine.db.events.find (tenantId, key)).map (·.stored) := by
  intro world world' related
  obtain ⟨alike, same⟩ := related
  have kept := alike.leaves (.findEvent tenantId key) (.findEvent tenantId key)
    ⟨trivial, trivial⟩ ⟨trivial, trivial⟩
  have engine := perform_findEvent_engine (P := P) tenantId key world
  suffices answers : Agree (fun found found' => found = found' ∧
      found = (world.engine.db.events.find (tenantId, key)).map (·.stored))
      (World.perform P world (.findEvent tenantId key)).1
      (World.perform P world' (.findEvent tenantId key)).1 by
    rw [← engine] at answers
    exact ⟨kept, answers⟩
  rw [perform_findEvent_skip, perform_findEvent_skip]
  dsimp only
  rw [Database.transact_send, Database.transact_send, (alike.faults 0).2]
  cases (world'.outside 0).statementFault 0 with
  | some e => exact .error e
  | none => exact .ok ⟨same key, rfl⟩

/-- A request that does not look for a stored blob, or is answered by an earlier event,
ends alike where the tenant has the same events and the same dictionaries are in use. -/
theorem compress_matches (framed : P.Framed) (persist : req.persist = true) (data : Bytes) :
    Matches (World.perform P) (Alike P ctx.tenantId)
      (fun world world' => Alike P ctx.tenantId world world' ∧
        SameEvents ctx.tenantId world world' ∧ SameActive world world' ∧
        (req.allowDedup = false ∨ ¬ Unseen ctx req world.engine.db.events))
      (compress P config ctx data req) (compress P config ctx data req)
      fun result result' _ _ => SameResult P result result' := by
  have fresh : ∀ {world : World}, Unseen ctx req world.engine.db.events →
      (req.allowDedup = false ∨ ¬ Unseen ctx req world.engine.db.events) →
      req.allowDedup = false := fun unseen hides => hides.resolve_right (not_not.mpr unseen)
  intro world world' related
  obtain ⟨alike, events, active, hides⟩ := related
  unfold compress
  cases keyed : req.idempotencyKey with
  | none =>
      have unseen : Unseen ctx req world.engine.db.events := by
        intro key own
        rw [keyed] at own
        cases own
      exact compressNew_matches framed persist (fresh unseen hides) data world world'
        ⟨alike, active⟩
  | some key =>
      dsimp only
      have looked := findEvent_matches key world world' ⟨alike, events⟩
      have engine := perform_findEvent_engine (P := P) ctx.tenantId key world
      have engine' := perform_findEvent_engine (P := P) ctx.tenantId key world'
      rw [run_attempt, run_attempt]
      rw [Handler.send, run_ask, run_ask] at *
      generalize World.perform P world (.findEvent ctx.tenantId key) = ran at *
      generalize World.perform P world' (.findEvent ctx.tenantId key) = ran' at *
      obtain ⟨found, later⟩ := ran
      obtain ⟨found', later'⟩ := ran'
      dsimp only at looked engine engine' ⊢
      obtain ⟨alike, agree⟩ := looked
      cases agree with
      | error e => exact ⟨alike, .error _⟩
      | ok held =>
          obtain ⟨same, stored⟩ := held
          subst same
          rename_i found
          dsimp only
          cases found with
          | some prev => exact replay_matches framed prev later later' alike
          | none =>
              have unseen : Unseen ctx req world.engine.db.events := by
                intro own keyed'
                rw [keyed, Option.some.injEq] at keyed'
                rw [← keyed', ← engine]
                exact Option.map_eq_none_iff.mp stored.symm
              refine compressNew_matches framed persist (fresh unseen hides) data later later'
                ⟨alike, ?_⟩
              unfold SameActive
              rw [engine, engine']
              exact active

theorem received_untimed (framed : P.Framed) (persist : req.persist = true) (data : Bytes)
    (id : Digest) {world world' : World} (alike : Alike P ctx.tenantId world world')
    (events : SameEvents ctx.tenantId world world') (active : SameActive world world')
    (hides : req.allowDedup = false ∨ ¬ Unseen ctx req world.engine.db.events)
    {later later' : Nat → Outside} (faults : SameFaults later later') :
    (received P config ctx data req id world later).untimed P =
      (received P config ctx data req id world' later').untimed P := by
  have together : Matches (World.perform P) _ _ (compress P config ctx data req)
      (compress P config ctx data req) _ := compress_matches framed persist data
  obtain ⟨alike, compressed⟩ := together world world' ⟨alike, events, active, hides⟩
  unfold received
  generalize (compress P config ctx data req).run (World.perform P) world = ran at *
  generalize (compress P config ctx data req).run (World.perform P) world' = ran' at *
  obtain ⟨result, after⟩ := ran
  obtain ⟨result', after'⟩ := ran'
  dsimp only at alike compressed ⊢
  have reading : Alike P ctx.tenantId { after with outside := later }
      { after' with outside := later' } := ⟨faults, alike.refs, alike.blobs⟩
  obtain ⟨-, object⟩ := loadObject_matches framed id _ _ reading
  obtain ⟨-, container⟩ := loadContainer_matches id _ _ reading
  unfold Received.untimed
  congr 1
  · exact compressed.map_eq _ _ fun _ _ same => same
  · exact object.map_eq _ _ fun _ _ same => same
  · exact container.map_eq _ _ fun _ _ same => same.untimedBytes_eq framed

end Syntra

import Mathlib.Logic.Relation
import Syntra.Service.Coupled

/-!
# What other tenants' uploads disclose

Uploads of the same bytes by other tenants leave alone what a tenant has, but
for the blob of these bytes.  A request that may use the stored blob returns
the envelope of whoever stored it.
-/

set_option autoImplicit false

namespace Syntra

open Program Text

variable {P : Platform} {config : Config} {req : CompressRequest} {ctx : TenantContext}
  {data : Bytes}

/-! ## What an upload touches -/

def EngineCall.uploading (tenantId : String) (hash : Digest) (contentClass : String)
    (data : Bytes) : EngineCall → Prop
  | observe observed sample => observed = contentClass ∧ sample = data
  | writeBlob written _ => written = hash
  | addGrant tenant _ _ _ _ _ => tenant = tenantId
  | recordUsage event => event.tenantId = tenantId
  | releaseGrant _ _ _ _ | countGrants _ | purge _ => False
  | _ => True

abbrev Uploading (P : Platform) (tenantId : String) (data : Bytes) (req : CompressRequest) :
    EngineCall → Prop :=
  EngineCall.uploading tenantId (P.blake3 data)
    (classify P.floats P.infer data req.filename req.mimeHint).dictionaryKey data

theorem EngineCall.reading.uploads {asked : EngineCall} (reads : asked.reading) (tenantId : String)
    (req : CompressRequest) : Uploading P tenantId data req asked := by
  cases asked with
  | findGrant | readBlob => trivial
  | _ => exact reads.elim

theorem existingBlob_uploads (hash : Digest) :
    (existingBlob P hash req).Uses (Uploading P ctx.tenantId data req) := by
  unfold existingBlob
  split
  · refine ⟨trivial, fun present => ?_⟩
    cases present with
    | false => trivial
    | true =>
        refine ⟨trivial, fun read => ?_⟩
        cases read <;> trivial
  · trivial

theorem persistSealed_uploads (written : Sealed) :
    (persistSealed (P.blake3 data) req written).Uses (Uploading P ctx.tenantId data req) := by
  unfold persistSealed
  split
  · refine Uses.attempt (Uses.ask (EngineCall.ensurePath _) trivial) fun _ => ?_
    refine Uses.attempt (Uses.ask (EngineCall.writeBlob _ _) (by rfl)) fun _ => ?_
    refine ⟨trivial, fun now => ?_⟩
    exact Uses.attempt (Uses.ask (EngineCall.recordObject _ _ _ _ _) trivial) fun _ => trivial
  · trivial

theorem compressFresh_uploads :
    (compressFresh P config data req (P.blake3 data)).Uses
      (Uploading P ctx.tenantId data req) := by
  refine ⟨trivial, fun dict => ?_⟩
  dsimp only
  split
  · trivial
  · refine ⟨trivial, fun compressMs => Uses.attempt ?_ fun checked => ?_⟩
    · unfold verifyWrite
      split
      · split
        · trivial
        · exact ⟨trivial, fun _ => trivial⟩
      · trivial
    · refine ⟨⟨rfl, rfl⟩, fun _ => ⟨trivial, fun now => ?_⟩⟩
      exact Uses.attempt (persistSealed_uploads _) fun _ => trivial

theorem compressNew_uploads :
    (compressNew P config ctx data req).Uses (Uploading P ctx.tenantId data req) := by
  refine Uses.attempt ?_ fun outcome => ?_
  · refine Uses.bind (existingBlob_uploads _) fun found => ?_
    cases found with
    | none => exact compressFresh_uploads
    | some stored => trivial
  · refine ⟨trivial, fun now => ?_⟩
    split
    · refine Uses.attempt (Uses.ask (EngineCall.findGrant _ _) trivial) fun grant => ?_
      refine Uses.attempt (Uses.ask (EngineCall.addGrant _ _ _ _ _ _) (by rfl)) fun granted => ?_
      exact ⟨rfl, fun _ => trivial⟩
    · trivial

theorem compress_uploads :
    (compress P config ctx data req).Uses (Uploading P ctx.tenantId data req) := by
  unfold compress
  split
  · exact compressNew_uploads
  · refine Uses.attempt (Uses.ask (EngineCall.findEvent _ _) trivial) fun found => ?_
    cases found with
    | none => exact compressNew_uploads
    | some prev =>
        exact (replay_uses _ prev).mono fun asked reads => reads.uploads _ _

/-- What a tenant has, but for the blob of `hash`. -/
structure Spared (tenantId : String) (hash : Digest) (engine after : Engine) : Prop where
  grants : ∀ object, after.db.findGrant tenantId object = engine.db.findGrant tenantId object
  events : ∀ key, after.db.events.find (tenantId, key) = engine.db.events.find (tenantId, key)
  blobs : ∀ own, own ≠ hash → after.blobs own = engine.blobs own

namespace Spared

variable {tenantId : String} {hash : Digest} {engine between after : Engine}

theorem refl (engine : Engine) : Spared tenantId hash engine engine :=
  ⟨fun _ => rfl, fun _ => rfl, fun _ _ => rfl⟩

theorem trans (first : Spared tenantId hash engine between)
    (second : Spared tenantId hash between after) : Spared tenantId hash engine after :=
  ⟨fun object => (second.grants object).trans (first.grants object),
    fun key => (second.events key).trans (first.events key),
    fun own other => (second.blobs own other).trans (first.blobs own other)⟩

theorem leaves (engine : Engine) (outside : Outside) (asked : EngineCall)
    (leaves : asked.leavesDb ∧ asked.leavesBlobs) :
    Spared tenantId hash engine (engine.perform P outside asked).2 := by
  have db := engine.perform_db P outside asked leaves.1
  have blobs := engine.perform_blobs P outside asked leaves.2
  exact ⟨fun _ => by rw [db], fun _ => by rw [db], fun _ _ => by rw [blobs]⟩

theorem perform (engine : Engine) (outside : Outside) (asked : EngineCall)
    (other : ctx.tenantId ≠ tenantId) (uploads : Uploading P ctx.tenantId data req asked) :
    Spared tenantId (P.blake3 data) engine (engine.perform P outside asked).2 := by
  cases asked with
  | writeBlob written bytes =>
      have db := engine.perform_db P outside (.writeBlob written bytes) trivial
      refine ⟨fun _ => by rw [db], fun _ => by rw [db], fun own elsewhere => ?_⟩
      simp only [Engine.perform]
      cases outside.fault with
      | some e => rfl
      | none =>
          cases uploads
          exact Function.update_of_ne elsewhere _ _
  | addGrant tenant object name originalSize essenceSize nowMs =>
      cases uploads
      rcases engine.db.transact_addGrant outside.statementFault ctx.tenantId object name
        originalSize essenceSize nowMs with ⟨e, -, refused⟩ | ⟨-, next, done, events, rows⟩
      · simp only [Engine.perform, Engine.withDb, refused]
        exact refl engine
      · simp only [Engine.perform, Engine.withDb, done]
        refine ⟨fun own => ?_, fun key => by rw [events], fun _ _ => rfl⟩
        rw [rows, if_neg fun same => other (Prod.mk.inj same).1.symm]
  | recordUsage event =>
      have grants := engine.db.transact_record_grants outside.statementFault event
      refine ⟨fun own => ?_, fun key => ?_, fun _ _ => rfl⟩
      · simp only [Engine.perform, Engine.withDb, Database.findGrant, grants]
      · refine engine.db.transact_record_events outside.statementFault event fun same => ?_
        obtain ⟨own, -, keyed⟩ := Option.map_eq_some_iff.mp same
        have tenant : event.tenantId = ctx.tenantId := uploads
        exact other (tenant ▸ (Prod.mk.inj keyed).1)
  | releaseGrant | countGrants | purge => exact uploads.elim
  | findEvent | findGrant | readBlob | recordObject | contains | activeFor | observe | ensurePath
  | nowMillis | elapsedMs => exact leaves engine outside _ ⟨trivial, trivial⟩

theorem run {α : Type} {program : Handler α} (other : ctx.tenantId ≠ tenantId)
    (uploads : program.Uses (Uploading P ctx.tenantId data req)) (world : World) :
    Spared tenantId (P.blake3 data) world.engine
      (program.run (World.perform P) world).2.engine := by
  refine uploads.run_keeps (World.perform P)
    (fun later => Spared tenantId (P.blake3 data) world.engine later.engine) ?_ world
    (refl world.engine)
  intro state asked held allowed
  exact held.trans (perform state.engine (state.outside 0) asked other allowed)

end Spared

/-! ## Engines that differ in the uploads of others -/

variable (P config)

def OtherUpload (tenantId : String) (data : Bytes) (engine after : Engine) : Prop :=
  ∃ (ctx : TenantContext) (req : CompressRequest) (outside : Nat → Outside),
    ctx.tenantId ≠ tenantId ∧
    after = ((compress P config ctx data req).run (World.perform P) { engine, outside }).2.engine

/-- The vault of `twin` holds the blob of `data`, because other tenants uploaded it. -/
structure Twins (tenantId : String) (data : Bytes) (engine twin : Engine) : Prop where
  absent : engine.blobs (P.blake3 data) = none
  held : twin.blobs (P.blake3 data) ≠ none
  uploaded : Relation.ReflTransGen (OtherUpload P config tenantId data) engine twin
  active : ∀ contentClass, engine.dictionaries.activeFor contentClass =
    twin.dictionaries.activeFor contentClass

/-- What the tenant receives is the same, but for the times, whether or not others have
uploaded the bytes. -/
def Undisclosed (ctx : TenantContext) (data : Bytes) (req : CompressRequest) (engine : Engine) :
    Prop :=
  ∀ twin, Twins P config ctx.tenantId data engine twin →
    ∀ here there later later' : Nat → Outside, SameFaults here there → SameFaults later later' →
      ∀ id, (received P config ctx data req id { engine, outside := here } later).untimed P =
        (received P config ctx data req id { engine := twin, outside := there } later').untimed P

variable {P config} {tenantId : String} {engine twin : Engine}

theorem spared_of_uploaded
    (uploaded : Relation.ReflTransGen (OtherUpload P config tenantId data) engine twin) :
    Spared tenantId (P.blake3 data) engine twin := by
  induction uploaded with
  | refl => exact Spared.refl engine
  | tail earlier last ih =>
      obtain ⟨ctx, req, outside, other, rfl⟩ := last
      have uploads : (compress P config ctx data req).Uses (Uploading P ctx.tenantId data req) :=
        compress_uploads
      exact ih.trans (Spared.run other uploads { engine := _, outside })

theorem Twins.alike (twins : Twins P config tenantId data engine twin)
    (ungranted : engine.db.findGrant tenantId (hexEncode (P.blake3 data).val) = none)
    {here there : Nat → Outside} (faults : SameFaults here there) :
    Alike P tenantId { engine, outside := here } { engine := twin, outside := there } := by
  have spared := spared_of_uploaded twins.uploaded
  refine ⟨faults, fun object => ?_, fun own granted => ?_⟩
  · rw [spared.grants]
  · have other : own ≠ P.blake3 data := by
      intro same
      exact granted (same ▸ ungranted)
    unfold SameBlob
    dsimp only
    rw [spared.blobs own other]
    cases engine.blobs own with
    | none => exact .none
    | some bytes => exact .some (Or.inl rfl)

/-- Without a grant, nothing shows in a request that does not look for the blob. -/
theorem undisclosed_of_hidden (framed : P.Framed) (persist : req.persist = true)
    (ungranted : engine.db.findGrant ctx.tenantId (hexEncode (P.blake3 data).val) = none)
    (hides : req.allowDedup = false ∨ ¬ Unseen ctx req engine.db.events) :
    Undisclosed P config ctx data req engine := by
  intro twin twins here there later later' faults faults' id
  have spared := spared_of_uploaded twins.uploaded
  refine received_untimed framed persist data id (twins.alike ungranted faults) ?_ twins.active
    hides faults'
  intro key
  exact congrArg (Option.map UsageEvent.stored) (spared.events key).symm

/-! ## An upload that others notice -/

theorem perform_dictionaries (engine : Engine) (outside : Outside) (asked : EngineCall)
    (unobserved : ∀ contentClass sample, asked = .observe contentClass sample →
      contentClass = "" ∨ sample.isEmpty = true) :
    (engine.perform P outside asked).2.dictionaries = engine.dictionaries := by
  cases asked with
  | observe contentClass sample =>
      simp only [Engine.perform, DictStore.observe]
      rcases unobserved contentClass sample rfl with unclassed | empty
      · simp [unclassed]
      · simp [empty]
  | readBlob | writeBlob | recordObject | purge =>
      simp only [Engine.perform]
      split <;> rfl
  | _ => rfl

/-- No dictionary learns from an upload as it is: archives have no class of their own. -/
theorem plainUpload_unobserved (data : Bytes) (name : String) :
    (classify P.floats P.infer data (plainUpload name).filename
      (plainUpload name).mimeHint).dictionaryKey = "" ∨ data.isEmpty = true := by
  by_cases empty : data.isEmpty = true
  · exact Or.inr empty
  · left
    have archive : isPreCompressedMime "application/zip" = true := by decide
    simp [classify, plainUpload, empty, archive, dictionaryKeyFor]

theorem plainUpload_dictionaries (ctx : TenantContext) (data : Bytes) (name : String)
    (world : World) :
    ((compress P config ctx data (plainUpload name)).run (World.perform P)
      world).2.engine.dictionaries = world.engine.dictionaries := by
  refine compress_uploads.run_keeps (World.perform P)
    (fun later => later.engine.dictionaries = world.engine.dictionaries) ?_ world rfl
  intro state asked held allowed
  refine (perform_dictionaries (P := P) state.engine (state.outside 0) asked ?_).trans held
  rintro contentClass sample rfl
  obtain ⟨rfl, rfl⟩ := allowed
  exact plainUpload_unobserved sample name

variable (config) in
theorem exists_twin (framed : P.Framed) (tenantId : String) (engine : Engine)
    (absent : engine.blobs (P.blake3 data) = none) (name : String) :
    ∃ twin bytes envelope, Twins P config tenantId data engine twin ∧
      twin.Stores P (P.blake3 data) bytes envelope ∧ envelope.originalName = name := by
  let other : TenantContext := { tenantId := tenantId ++ "'", keyId := none }
  have different : other.tenantId ≠ tenantId := by
    intro same
    have lengths := congrArg String.length same
    simp [other] at lengths
  let world : World := { engine, outside := fun _ => quiet }
  have calm : world.Calm := fun n => ⟨rfl, fun _ => rfl⟩
  obtain ⟨result, after, bytes, envelope, run, stores, named, -⟩ :=
    plainUpload_stores P config other framed data name world calm
  refine ⟨after.engine, bytes, envelope, ⟨absent, ?_, ?_, ?_⟩, stores, named⟩
  · rw [stores.1]
    exact Option.some_ne_none bytes
  · refine Relation.ReflTransGen.single ⟨other, plainUpload name, fun _ => quiet, different, ?_⟩
    exact congrArg (fun ran => ran.2.engine) run.symm
  · intro contentClass
    have kept : ((compress P config other data (plainUpload name)).run (World.perform P)
        world).2.engine.dictionaries = engine.dictionaries :=
      plainUpload_dictionaries other data name world
    rw [run] at kept
    rw [kept]

/-! ## Whose envelope is returned -/

theorem account_envelope {originalSize : Nat} {outcome : BlockingOutcome} {now : Int}
    {world after : World} {result : CompressResult}
    (run : (account P ctx req originalSize outcome now).run (World.perform P) world =
      (.ok result, after)) : result.envelope = outcome.envelope := by
  obtain ⟨grant, looked, -, run⟩ := run_attempt_eq_ok.mp run
  obtain ⟨granted, counted, -, run⟩ := run_attempt_eq_ok.mp run
  have returned := Except.ok.inj (Prod.mk.inj run).1
  rw [← returned]
  rfl

theorem compressNew_blocked {world after : World} (working : world.Working)
    {result : CompressResult}
    (run : (compressNew P config ctx data req).run (World.perform P) world =
      (.ok result, after)) :
    ∃ outcome blobs, Blocked P config world.engine data req (.ok outcome) blobs ∧
      result.envelope = outcome.envelope := by
  obtain ⟨outcome, later, blocking, run⟩ := run_attempt_eq_ok.mp run
  have blocked := compressBlocking_run P config req data world working
  rw [blocking] at blocked
  refine ⟨outcome, _, blocked, ?_⟩
  rw [run_call] at run
  split at run
  · exact account_envelope run
  · have returned := Except.ok.inj (Prod.mk.inj run).1
    rw [← returned]
    rfl

theorem compress_blocked {world after : World} (working : world.Working)
    (unseen : Unseen ctx req world.engine.db.events) {result : CompressResult}
    (run : (compress P config ctx data req).run (World.perform P) world = (.ok result, after)) :
    ∃ outcome blobs, Blocked P config world.engine data req (.ok outcome) blobs ∧
      result.envelope = outcome.envelope := by
  unfold compress at run
  cases keyed : req.idempotencyKey with
  | none =>
      rw [keyed] at run
      exact compressNew_blocked working run
  | some key =>
      rw [keyed] at run
      dsimp only at run
      obtain ⟨found, later, looked, run⟩ := run_attempt_eq_ok.mp run
      rw [Handler.send, run_ask, perform_findEvent_eq_ok] at looked
      obtain ⟨-, answer, rfl⟩ := looked
      rw [unseen key keyed, Option.map_none] at answer
      subst answer
      have later : (world.skip 1).Working := fun n => working (n + 1)
      exact compressNew_blocked later run

theorem compress_own_name {world after : World} (working : world.Working)
    (unseen : Unseen ctx req world.engine.db.events)
    (absent : world.engine.blobs (P.blake3 data) = none) {result : CompressResult}
    (run : (compress P config ctx data req).run (World.perform P) world = (.ok result, after)) :
    result.envelope.originalName = req.filename := by
  obtain ⟨outcome, blobs, blocked, same⟩ := compress_blocked working unseen run
  cases blocked with
  | stored _ _ _ present =>
      rw [present.1] at absent
      cases absent
  | fresh _ written _ _ envelope sealed =>
      obtain ⟨planned, compressMs, verified, verifyMs, now, -, -, rfl⟩ := sealed
      rw [same, envelope]
      rfl

variable (config) in
theorem compress_stored_envelope (persist : req.persist = true) (dedup : req.allowDedup = true)
    {world : World} (calm : world.Calm) (unseen : Unseen ctx req world.engine.db.events)
    {bytes : Bytes} {envelope : ProcessedFile}
    (present : world.engine.Stores P (P.blake3 data) bytes envelope) :
    ∃ result after, (compress P config ctx data req).run (World.perform P) world =
      (.ok result, after) ∧ result.envelope = envelope := by
  obtain ⟨result, succeeds⟩ := compress_succeeds P config req ctx data world calm unseen
    fun later calm same => compressBlocking_finds P config req data later calm.working persist
      dedup (same ▸ present)
  have run : (compress P config ctx data req).run (World.perform P) world =
      (.ok result, ((compress P config ctx data req).run (World.perform P) world).2) :=
    Prod.ext succeeds rfl
  refine ⟨result, _, run, ?_⟩
  obtain ⟨outcome, blobs, blocked, same⟩ := compress_blocked calm.working unseen run
  cases blocked with
  | stored _ _ _ own =>
      have stored := Option.some.inj (present.1.symm.trans own.1)
      have parsed := own.2
      rw [← stored, present.2] at parsed
      rw [same, Except.ok.inj parsed]
  | fresh _ written absent => exact absurd present (absent persist dedup _ _)

/-! ## When uploads of others stay undisclosed -/

/-- A request that may use the stored blob tells whether there is one. -/
theorem disclosed_of_dedup (framed : P.Framed) (persist : req.persist = true)
    (absent : engine.blobs (P.blake3 data) = none) (dedup : req.allowDedup = true)
    (unseen : Unseen ctx req engine.db.events) : ¬ Undisclosed P config ctx data req engine := by
  intro undisclosed
  obtain ⟨twin, bytes, envelope, twins, stores, named⟩ :=
    exists_twin config framed ctx.tenantId engine absent (req.filename ++ "'")
  have spared := spared_of_uploaded twins.uploaded
  have calm : ∀ own : Engine, World.Calm { engine := own, outside := fun _ => quiet } :=
    fun own n => ⟨rfl, fun _ => rfl⟩
  have same := undisclosed twin twins (fun _ => quiet) (fun _ => quiet) (fun _ => quiet)
    (fun _ => quiet) (fun n => ⟨rfl, rfl⟩) (fun n => ⟨rfl, rfl⟩) (P.blake3 data)
  have unseen' : Unseen ctx req twin.db.events := fun key keyed =>
    (spared.events key).trans (unseen key keyed)
  obtain ⟨result, after, run, returned⟩ := compress_stored_envelope config persist
    dedup (calm twin) unseen' stores
  have compressed := congrArg Received.compressed same
  simp only [Received.untimed, received, run] at compressed
  generalize ran : (compress P config ctx data req).run (World.perform P)
    { engine, outside := fun _ => quiet } = own at compressed
  obtain ⟨answer, after'⟩ := own
  cases answer with
  | error e => cases compressed
  | ok own =>
      have names := congrArg (fun result => result.envelope.originalName)
        (Except.ok.inj compressed)
      have first := compress_own_name (calm engine).working unseen absent ran
      simp only [CompressResult.untimed, ProcessedFile.untimed_originalName] at names
      rw [first, returned, named] at names
      have lengths := congrArg String.length names
      simp at lengths

def refusing : Outside := { quiet with fault := some "Permission denied (os error 13)" }

theorem compress_refused (world : World) (refuses : ∀ n, (world.outside n).fault ≠ none) :
    ((compress P config ctx data req).run (World.perform P) world).2.engine.blobs =
      world.engine.blobs := by
  have uploads : (compress P config ctx data req).Uses (Uploading P ctx.tenantId data req) :=
    compress_uploads
  refine (uploads.run_keeps (World.perform P) (fun later => (∀ n, (later.outside n).fault ≠ none) ∧
    later.engine.blobs = world.engine.blobs) ?_ world ⟨refuses, rfl⟩).2
  intro state asked held allowed
  refine ⟨fun n => held.1 (n + 1), Eq.trans ?_ held.2⟩
  by_cases leaves : asked.leavesBlobs
  · exact Engine.perform_blobs P _ _ asked leaves
  cases asked with
  | writeBlob hash bytes =>
      obtain ⟨e, fault⟩ := Option.ne_none_iff_exists'.mp (held.1 0)
      simp only [World.perform, Engine.perform, fault]
  | purge => exact allowed.elim
  | _ => exact absurd trivial leaves

theorem compress_grant_kept (world : World) {tenantId object : String}
    (granted : world.engine.db.findGrant tenantId object ≠ none) :
    ((compress P config ctx data req).run (World.perform P) world).2.engine.db.findGrant
      tenantId object ≠ none := by
  refine compress_uploads.run_keeps (World.perform P)
    (fun later => later.engine.db.findGrant tenantId object ≠ none) ?_ world granted
  intro state asked held allowed
  refine Engine.perform_grant_kept P _ _ asked tenantId object ?_ held
  intro releases
  cases asked with
  | releaseGrant => exact allowed.elim
  | _ => exact releases.elim

theorem received_refused (own : Engine)
    (granted : own.db.findGrant ctx.tenantId (hexEncode (P.blake3 data).val) ≠ none)
    (bytes : Bytes) :
    (received P config ctx data req (P.blake3 data) { engine := own, outside := fun _ => refusing }
        fun _ => quiet).container = .ok bytes ↔
      own.blobs (P.blake3 data) = some bytes := by
  have blobs : ((compress P config ctx data req).run (World.perform P)
      { engine := own, outside := fun _ => refusing }).2.engine.blobs = own.blobs :=
    compress_refused _ fun n => Option.some_ne_none _
  have kept : ((compress P config ctx data req).run (World.perform P)
      { engine := own, outside := fun _ => refusing }).2.engine.db.findGrant ctx.tenantId
        (hexEncode (P.blake3 data).val) ≠ none := compress_grant_kept _ granted
  unfold received
  generalize (compress P config ctx data req).run (World.perform P)
    { engine := own, outside := fun _ => refusing } = ran at *
  obtain ⟨result, after⟩ := ran
  dsimp only at blobs kept ⊢
  have reads := loadContainer_eq_ok P { after with outside := fun _ => quiet }
  rw [← blobs]
  constructor
  · intro read
    exact ((reads _ _ _ _).mp (Prod.ext read rfl)).2.2.1
  · intro stored
    exact congrArg Prod.fst ((reads _ _ _ _).mpr ⟨⟨rfl, rfl⟩, kept, stored, rfl⟩)

/-- A tenant whose grant has no blob reads the blob of others. -/
theorem disclosed_of_granted (framed : P.Framed)
    (absent : engine.blobs (P.blake3 data) = none)
    (granted : engine.db.findGrant ctx.tenantId (hexEncode (P.blake3 data).val) ≠ none) :
    ¬ Undisclosed P config ctx data req engine := by
  intro undisclosed
  obtain ⟨twin, bytes, envelope, twins, stores, -⟩ :=
    exists_twin config framed ctx.tenantId engine absent req.filename
  have spared := spared_of_uploaded twins.uploaded
  have same := undisclosed twin twins (fun _ => refusing) (fun _ => refusing) (fun _ => quiet)
    (fun _ => quiet) (fun n => ⟨rfl, rfl⟩) (fun n => ⟨rfl, rfl⟩) (P.blake3 data)
  have container := congrArg Received.container same
  have found : (received P config ctx data req (P.blake3 data)
      { engine := twin, outside := fun _ => refusing } fun _ => quiet).container = .ok bytes := by
    refine (received_refused twin ?_ bytes).mpr stores.1
    rw [spared.grants]
    exact granted
  simp only [Received.untimed, found] at container
  cases read : (received P config ctx data req (P.blake3 data)
    { engine, outside := fun _ => refusing } fun _ => quiet).container with
  | error e =>
      rw [read] at container
      cases container
  | ok own =>
      rw [received_refused engine granted, absent] at read
      cases read

/-- What a tenant receives tells nothing of others' uploads exactly when it has no grant on
the object and does not ask for deduplication, or is answered by an earlier event. -/
theorem undisclosed_iff (framed : P.Framed) (ctx : TenantContext) (data : Bytes)
    (req : CompressRequest) (persist : req.persist = true) (engine : Engine)
    (absent : engine.blobs (P.blake3 data) = none) :
    Undisclosed P config ctx data req engine ↔
      engine.db.findGrant ctx.tenantId (hexEncode (P.blake3 data).val) = none ∧
        (req.allowDedup = false ∨ ¬ Unseen ctx req engine.db.events) := by
  constructor
  · intro undisclosed
    constructor
    · by_contra granted
      exact disclosed_of_granted framed absent granted undisclosed
    · by_contra shows
      obtain ⟨dedup, unseen⟩ := not_or.mp shows
      refine disclosed_of_dedup framed persist absent ?_ (not_not.mp unseen) undisclosed
      simpa using dedup
  · intro condition
    exact undisclosed_of_hidden framed persist condition.1 condition.2

def namedUpload (filename : String) : CompressRequest := { emptyUpload with filename }

theorem undisclosed_iff_namedUpload :
    Undisclosed framingPlatform sampleConfig otherTenant [1]
        { namedUpload "b.csv" with allowDedup := false } freshEngine ↔
      freshEngine.db.findGrant "u" (hexEncode (framingPlatform.blake3 [1]).val) = none ∧
        (false = false ∨ ¬ Unseen otherTenant { namedUpload "b.csv" with allowDedup := false }
          freshEngine.db.events) :=
  undisclosed_iff framingPlatform_decodeFile otherTenant [1] _ rfl freshEngine rfl

def namedUploaded : World :=
  ((compress framingPlatform sampleConfig sampleTenant [1] (namedUpload "a.csv")).run
    (World.perform framingPlatform) { engine := freshEngine, outside := fun _ => quiet }).2

/-- `u` uploads the same byte as `b.csv`, and learns the other name. -/
theorem namedUpload_discloses :
    ((compress framingPlatform sampleConfig otherTenant [1] (namedUpload "b.csv")).run
        (World.perform framingPlatform) namedUploaded).1.toOption.map
          (fun result => (result.envelope.originalName, result.deduplicated)) =
        some ("a.csv", false) ∧
      ¬ Undisclosed framingPlatform sampleConfig otherTenant [1] (namedUpload "b.csv")
        freshEngine := by
  refine ⟨by decide +kernel, ?_⟩
  refine disclosed_of_dedup framingPlatform_decodeFile rfl rfl rfl ?_
  intro key keyed
  cases keyed

end Syntra

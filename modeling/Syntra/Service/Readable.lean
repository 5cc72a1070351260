import Syntra.Container.Sealed
import Syntra.Service.Calm

/-!
# Verified writes

Every stored blob was sealed from an upload of its bytes, whatever failed.
After a request that asks for verification the blob is readable exactly when
the request seals a new one, or the stages of the one it finds fit.
-/

set_option autoImplicit false

namespace Syntra

open Program Text

variable {P : Platform} {config : Config} {req : CompressRequest}

/-! ## What a request writes -/

def EngineCall.looking : EngineCall → Prop
  | findEvent _ _ | contains _ | readBlob _ => True
  | _ => False

theorem Engine.perform_looking (engine : Engine) (outside : Outside) (asked : EngineCall)
    (looks : asked.looking) : (engine.perform P outside asked).2 = engine := by
  cases asked with
  | findEvent tenantId key =>
      have kept := engine.db.transact_reading outside.statementFault (.findEvent tenantId key) rfl
      simp only [perform, withDb, Usage.findByIdempotency, kept]
  | readBlob own =>
      simp only [perform]
      split <;> rfl
  | contains own => rfl
  | _ => exact looks.elim

theorem existingBlob_looks (hash : Digest) :
    (existingBlob P hash req).Uses EngineCall.looking := by
  unfold existingBlob
  split
  · refine ⟨trivial, fun present => ?_⟩
    cases present with
    | false => trivial
    | true =>
        refine ⟨trivial, fun read => ?_⟩
        cases read <;> trivial
  · trivial

theorem looking_run {α : Type} {program : Handler α} (looks : program.Uses EngineCall.looking)
    (world : World) : (program.run (World.perform P) world).2.engine = world.engine := by
  refine looks.run_keeps (World.perform P) (fun later => later.engine = world.engine) ?_ world rfl
  intro state asked same allowed
  exact (Engine.perform_looking state.engine _ asked allowed).trans same

def WritesSealed (P : Platform) (config : Config) (dictionaries : DictStore) (data : Bytes)
    (req : CompressRequest) (asked : EngineCall) : Prop :=
  asked.leavesBlobs ∨ ∃ written, SealedFrom P config dictionaries data req written ∧
    asked = .writeBlob (P.blake3 data) written.bytes

/-- Every blob is as it was, or sealed from the data. -/
def Sealing (P : Platform) (config : Config) (before : Engine) (data : Bytes)
    (req : CompressRequest) (blobs : Digest → Option Bytes) : Prop :=
  ∀ hash, blobs hash = before.blobs hash ∨
    P.blake3 data = hash ∧ ∃ written, SealedFrom P config before.dictionaries data req written ∧
      blobs hash = some written.bytes

theorem writesSealed_run {α : Type} {program : Handler α} (before : Engine) {data : Bytes}
    (writes : program.Uses (WritesSealed P config before.dictionaries data req)) (world : World)
    (start : Sealing P config before data req world.engine.blobs) :
    Sealing P config before data req (program.run (World.perform P) world).2.engine.blobs := by
  refine writes.run_keeps (World.perform P)
    (fun later => Sealing P config before data req later.engine.blobs) ?_ world start
  intro state asked held allowed hash
  rcases allowed with leaves | ⟨written, sealed, rfl⟩
  · rw [show (World.perform P state asked).2.engine.blobs = state.engine.blobs from
      Engine.perform_blobs P _ _ asked leaves]
    exact held hash
  · simp only [World.perform, Engine.perform]
    split
    · exact held hash
    · dsimp only
      by_cases own : P.blake3 data = hash
      · exact Or.inr ⟨own, written, sealed, by rw [own, Function.update_self]⟩
      · rw [Function.update_of_ne (Ne.symm own)]
        exact held hash

theorem verifyWrite_checks (config : Config) (req : CompressRequest) (dictionaries : DictStore)
    (planned : Planned) (data : Bytes) (dict : Option Bytes) :
    (verifyWrite P planned data dict req).Safe
      (Monitor.only (WritesSealed P config dictionaries data req))
      (fun _ result => ∀ times, result = .ok times → req.verify = true →
        verifyRoundtrip P planned data dict = .ok ()) () := by
  unfold verifyWrite
  split
  · split
    · exact fun _ failed => nomatch failed
    · rename_i verified
      exact ⟨Or.inl trivial, fun _ _ _ _ => verified⟩
  · rename_i unverified
    exact fun _ _ verify => absurd verify unverified

theorem persistSealed_writes {dictionaries : DictStore} {data : Bytes} {written : Sealed}
    (sealed : SealedFrom P config dictionaries data req written) :
    (persistSealed (P.blake3 data) req written).Uses
      (WritesSealed P config dictionaries data req) := by
  unfold persistSealed
  split
  · refine Uses.attempt (Uses.ask (EngineCall.ensurePath _) (Or.inl trivial)) fun _ => ?_
    refine Uses.attempt (Uses.ask (EngineCall.writeBlob _ _)
      (Or.inr ⟨written, sealed, rfl⟩)) fun _ => ?_
    refine ⟨Or.inl trivial, fun now => ?_⟩
    exact Uses.attempt (Uses.ask (EngineCall.recordObject _ _ _ _ _) (Or.inl trivial))
      fun _ => trivial
  · trivial

variable (P config req)

theorem compressFresh_seals (data : Bytes) (world : World) :
    Sealing P config world.engine data req
      ((compressFresh P config data req (P.blake3 data)).run (World.perform P)
        world).2.engine.blobs := by
  unfold compressFresh
  dsimp only
  generalize classified : classify P.floats P.infer data req.filename req.mimeHint = profile
  have asks : World.perform P world (.activeFor profile.dictionaryKey) =
      (world.engine.dictionaries.activeFor profile.dictionaryKey,
        { world with outside := fun n => world.outside (n + 1) }) := rfl
  rw [run_call, asks]
  dsimp only
  generalize inUse : world.engine.dictionaries.activeFor profile.dictionaryKey = dict
  refine writesSealed_run world.engine ?_ _ fun hash => Or.inl rfl
  split
  · trivial
  rename_i planned chosen
  refine ⟨Or.inl trivial, fun compressMs => safe_attempt.mpr ?_⟩
  have checks := verifyWrite_checks (P := P) config req world.engine.dictionaries planned data
    (dict.map (·.bytes))
  refine checks.imp fun _ checked verifies => ?_
  cases checked with
  | error e => trivial
  | ok times =>
      refine ⟨Or.inl trivial, fun _ => ⟨Or.inl trivial, fun now => ?_⟩⟩
      refine Uses.attempt (persistSealed_writes ?_) fun _ => trivial
      refine ⟨planned, compressMs, times.2, times.1, now, ?_⟩
      rw [classified, inUse]
      exact ⟨chosen, verifies times rfl, rfl⟩

theorem compressBlocking_seals (data : Bytes) (world : World) :
    Sealing P config world.engine data req
      ((compressBlocking P config data req).run (World.perform P) world).2.engine.blobs := by
  have looks : (existingBlob P (P.blake3 data) req).Uses EngineCall.looking := existingBlob_looks _
  have looked := looking_run (P := P) looks world
  unfold compressBlocking
  dsimp only
  rw [run_bind]
  generalize (existingBlob P (P.blake3 data) req).run (World.perform P) world = ran at *
  obtain ⟨found, later⟩ := ran
  dsimp only at looked ⊢
  rw [← looked]
  cases found with
  | some stored => exact fun hash => Or.inl rfl
  | none => exact compressFresh_seals P config req data later

variable (ctx : TenantContext)

theorem compressNew_seals (data : Bytes) (world : World) :
    Sealing P config world.engine data req
      ((compressNew P config ctx data req).run (World.perform P) world).2.engine.blobs := by
  have blocked := compressBlocking_seals P config req data world
  unfold compressNew
  rw [run_attempt]
  generalize (compressBlocking P config data req).run (World.perform P) world = ran at *
  obtain ⟨result, later⟩ := ran
  cases result with
  | error e => exact blocked
  | ok outcome =>
      have clocked : World.perform P later .nowMillis = ((later.outside 0).clock,
          { later with outside := fun n => later.outside (n + 1) }) := rfl
      dsimp only at blocked ⊢
      rw [run_call, clocked]
      dsimp only
      split
      · rw [(account_run P req ctx data.length outcome
          (later.outside 0).clock { later with outside := fun n => later.outside (n + 1) }).1]
        exact blocked
      · exact blocked

theorem compress_seals (data : Bytes) (world : World) :
    Sealing P config world.engine data req
      ((compress P config ctx data req).run (World.perform P) world).2.engine.blobs := by
  unfold compress
  cases req.idempotencyKey with
  | none => exact compressNew_seals P config req ctx data world
  | some key =>
      have looked := looking_run (P := P)
        (Uses.ask (EngineCall.findEvent ctx.tenantId key) trivial) world
      dsimp only
      rw [run_attempt, Handler.send]
      generalize (Program.ask (EngineCall.findEvent ctx.tenantId key)).run (World.perform P) world =
        ran at *
      obtain ⟨found, later⟩ := ran
      dsimp only at looked
      rw [← looked]
      cases found with
      | error e => exact fun hash => Or.inl rfl
      | ok found =>
          cases found with
          | some prev =>
              have leaves : Leaves (replay P ctx.tenantId prev) :=
                (replay_uses ctx.tenantId prev).mono fun _ => EngineCall.reading.leaves
              intro hash
              dsimp only
              rw [(leaves.run (P := P) later).2]
              exact Or.inl rfl
          | none => exact compressNew_seals P config req ctx data later

/-! ## What a run has stored -/

def CompressRequest.dictionary (P : Platform) (req : CompressRequest) (dictionaries : DictStore)
    (data : Bytes) : Option Dictionary :=
  dictionaries.activeFor (classify P.floats P.infer data req.filename req.mimeHint).dictionaryKey

/-- The bytes are those of an envelope sealed from the data, with a dictionary that was
handed out. -/
def SealedOf (P : Platform) (config : Config) (handedOut : Dictionary → Prop) (data bytes : Bytes) :
    Prop :=
  ∃ dictionaries req written, SealedFrom P config dictionaries data req written ∧
    (∀ dict, req.dictionary P dictionaries data = some dict → handedOut dict) ∧
    bytes = written.bytes

theorem serve_seals (world : World) (request : Request) (hash : Digest) :
    (world.serve P config request).engine.blobs hash = world.engine.blobs hash ∨
      (world.serve P config request).engine.blobs hash = none ∨
      ∃ ctx data req written, request = .compress ctx data req ∧ P.blake3 data = hash ∧
        SealedFrom P config world.engine.dictionaries data req written ∧
        (world.serve P config request).engine.blobs hash = some written.bytes := by
  unfold World.serve Request.handle
  cases request with
  | compress ctx data req =>
      dsimp only
      rw [run_bind]
      have seals := compress_seals P config req ctx data world hash
      generalize (compress P config ctx data req).run (World.perform P) world = ran at *
      obtain ⟨result, later⟩ := ran
      rcases seals with same | ⟨own, written, sealed, wrote⟩
      · exact Or.inl same
      · exact Or.inr (Or.inr ⟨ctx, data, req, written, rfl, own, sealed, wrote⟩)
  | delete ctx own purge =>
      dsimp only
      rw [run_bind]
      have kept := (deleteObject_uses ctx own purge).run_keeps (World.perform P)
        (fun later => later.engine.blobs hash = world.engine.blobs hash ∨
          later.engine.blobs hash = none) ?_ world (Or.inl rfl)
      · exact kept.imp_right Or.inl
      · intro state asked held deletes
        by_cases leaves : asked.leavesBlobs
        · rwa [show (World.perform P state asked).2.engine.blobs = state.engine.blobs from
            Engine.perform_blobs P _ _ asked leaves]
        · cases asked with
          | purge gone =>
              simp only [World.perform, Engine.perform]
              split
              · exact held
              · dsimp only
                rw [Function.update_apply]
                split
                · exact Or.inr rfl
                · exact held
          | writeBlob => exact deletes.elim
          | _ => exact absurd trivial leaves

def Uploaded (data : Bytes) (requests : List Request) : Prop :=
  ∃ ctx req, Request.compress ctx data req ∈ requests

/-- The store hands the dictionary to a request of the run. -/
def HandedOut (P : Platform) (config : Config) (world : World) :
    List Request → Dictionary → Prop
  | [], _ => False
  | request :: rest, dict =>
    (∃ ctx data req, request = .compress ctx data req ∧
      req.dictionary P world.engine.dictionaries data = some dict) ∨
      HandedOut P config (world.serve P config request) rest dict

variable {P config}

theorem handedOut_append {world : World} {earlier more : List Request} {dict : Dictionary} :
    HandedOut P config world (earlier ++ more) dict ↔ HandedOut P config world earlier dict ∨
      HandedOut P config (world.serveAll P config earlier) more dict := by
  induction earlier generalizing world with
  | nil => exact (iff_of_eq (false_or _)).symm
  | cons request rest ih =>
      rw [List.cons_append, HandedOut, HandedOut, ih, or_assoc]
      rfl

/-- A blob that a run leaves was there before, or was sealed from an upload of the run. -/
theorem serveAll_seals (world : World) (requests : List Request) (hash : Digest) (bytes : Bytes)
    (stored : (world.serveAll P config requests).engine.blobs hash = some bytes) :
    world.engine.blobs hash = some bytes ∨ ∃ data, Uploaded data requests ∧
      P.blake3 data = hash ∧ SealedOf P config (HandedOut P config world requests) data bytes := by
  induction requests generalizing world with
  | nil => exact Or.inl stored
  | cons request rest ih =>
      rcases ih (world.serve P config request) stored with
        before | ⟨data, ⟨ctx, req, member⟩, own, dictionaries, other, written, sealed, handed, same⟩
      · rcases serve_seals P config world request hash with
          kept | gone | ⟨ctx, data, req, written, rfl, own, sealed, wrote⟩
        · exact Or.inl (kept.symm.trans before)
        · rw [gone] at before
          cases before
        · refine Or.inr ⟨data, ⟨ctx, req, List.mem_cons_self⟩, own, _, req, written, sealed, ?_, ?_⟩
          · exact fun dict inUse => Or.inl ⟨ctx, data, req, rfl, inUse⟩
          · exact Option.some.inj (before.symm.trans wrote)
      · exact Or.inr ⟨data, ⟨ctx, req, List.mem_cons_of_mem _ member⟩, own, dictionaries, other,
          written, sealed, fun dict inUse => Or.inr (handed dict inUse), same⟩

/-! ## Reading it back -/

/-- The chain of the sealed envelope gives the data back exactly when its stages fit. -/
theorem SealedOf.restores (framed : P.Framed) (trusted : P.codecs.RoundTrip)
    {handedOut : Dictionary → Prop} {data bytes : Bytes}
    (sealed : SealedOf P config handedOut data bytes) (resolver : String → Option Dictionary)
    (resolves : ∀ dict, handedOut dict → dict.id ≠ "" ∧ resolver dict.id = some dict)
    (maxOut : Nat) (room : data.length ≤ maxOut) :
    ∃ envelope, parse P bytes = .ok envelope ∧
      ((∃ restored, restoreWithLimit P envelope resolver maxOut = .ok restored ∧
        restored.data = data) ↔ StagesFit (stageSlack data.length) data envelope.transforms) := by
  obtain ⟨dictionaries, req, written, sealed, handed, rfl⟩ := sealed
  refine ⟨written.envelope, sealed.parses framed, ?_⟩
  obtain ⟨planned, compressMs, verified, verifyMs, now, chosen, -, rfl⟩ := sealed
  exact restoreWithLimit_build trusted (executed_compressBest P.codecs P.floats chosen) _
    (classify_size P.floats P.infer data req.filename req.mimeHint) _ _ _ _ _ resolver
    (fun dict inUse => resolves dict (handed dict inUse)) maxOut room

theorem SealedFrom.stagesFit (trusted : P.codecs.RoundTrip) {dictionaries : DictStore}
    {data : Bytes} {req : CompressRequest} {written : Sealed}
    (sealed : SealedFrom P config dictionaries data req written) (verify : req.verify = true) :
    StagesFit (stageSlack data.length) data written.envelope.transforms := by
  obtain ⟨planned, compressMs, verified, verifyMs, now, chosen, verifies, rfl⟩ := sealed
  exact stagesFit_of_verifyRoundtrip trusted (executed_compressBest P.codecs P.floats chosen)
    (verifies verify)

def DictStore.resolver (P : Platform) (store : DictStore) (mtime : Nat) (online written : Bool)
    (id : String) : Option Dictionary :=
  (store.resolve P id mtime online written).1

theorem DictStore.resolver_named {store : DictStore} {mtime : Nat} {online written : Bool}
    {id : String} {dict : Dictionary}
    (found : store.resolver P mtime online written id = some dict) : id ≠ "" := by
  rintro rfl
  cases found

/-- The vault has an envelope that restores to the data. -/
def Readable (P : Platform) (resolver : String → Option Dictionary) (maxOut : Nat)
    (engine : Engine) (data : Bytes) : Prop :=
  ∃ bytes envelope, engine.Stores P (P.blake3 data) bytes envelope ∧
    ∃ restored, restoreWithLimit P envelope resolver maxOut = .ok restored ∧ restored.data = data

/-- The request seals a new envelope: it is no replay and finds no blob it may use. -/
def SealsAnew (P : Platform) (ctx : TenantContext) (data : Bytes) (req : CompressRequest)
    (engine : Engine) : Prop :=
  Unseen ctx req engine.db.events ∧
    (req.allowDedup = true → ∀ bytes envelope, ¬ engine.Stores P (P.blake3 data) bytes envelope)

/-- The vault has an envelope of the data whose stages fit. -/
def StoresFitting (P : Platform) (data : Bytes) (engine : Engine) : Prop :=
  ∃ bytes envelope, engine.Stores P (P.blake3 data) bytes envelope ∧
    StagesFit (stageSlack data.length) data envelope.transforms

/-- What the vault has of the data, sealed from it, is readable exactly when it fits. -/
theorem readable_iff_storesFitting (framed : P.Framed) (trusted : P.codecs.RoundTrip)
    {handedOut : Dictionary → Prop} {engine : Engine} {data : Bytes}
    (stored : ∀ bytes, engine.blobs (P.blake3 data) = some bytes →
      SealedOf P config handedOut data bytes)
    (resolver : String → Option Dictionary)
    (resolves : ∀ dict, handedOut dict → dict.id ≠ "" ∧ resolver dict.id = some dict)
    (maxOut : Nat) (room : data.length ≤ maxOut) :
    Readable P resolver maxOut engine data ↔ StoresFitting P data engine := by
  constructor
  · rintro ⟨bytes, envelope, present, restores⟩
    obtain ⟨own, parsed, fits⟩ :=
      (stored bytes present.1).restores framed trusted resolver resolves maxOut room
    obtain rfl : envelope = own := Except.ok.inj (present.2.symm.trans parsed)
    exact ⟨bytes, envelope, present, fits.mp restores⟩
  · rintro ⟨bytes, envelope, present, fit⟩
    obtain ⟨own, parsed, fits⟩ :=
      (stored bytes present.1).restores framed trusted resolver resolves maxOut room
    obtain rfl : envelope = own := Except.ok.inj (present.2.symm.trans parsed)
    exact ⟨bytes, envelope, present, fits.mpr fit⟩

/-- After a request that persists, verifies and succeeds, in any state that earlier requests
leave, the vault gives the data back exactly when the request seals anew or the vault had
an envelope that fits. -/
theorem verified_write_readable_iff (P : Platform) (framed : P.Framed)
    (trusted : P.codecs.RoundTrip) (config : Config) (dictionaries : DictStore)
    (outside : Nat → Outside) (earlier : List Request) (ctx : TenantContext) (data : Bytes)
    (req : CompressRequest) (mtime : Nat) (online written : Bool) (maxOut : Nat)
    (start before after : World) (result : CompressResult)
    (fresh : start = { engine := .empty dictionaries, outside })
    (reached : before = start.serveAll P config earlier) (working : before.Working)
    (succeeds : (compress P config ctx data req).run (World.perform P) before =
      (.ok result, after))
    (persist : req.persist = true) (verify : req.verify = true)
    (noCollision : ∀ other, Uploaded other earlier → P.blake3 other = P.blake3 data →
      other = data)
    (resolves : ∀ dict, HandedOut P config start (earlier ++ [.compress ctx data req]) dict →
      after.engine.dictionaries.resolver P mtime online written dict.id = some dict)
    (room : data.length ≤ maxOut) :
    Readable P (after.engine.dictionaries.resolver P mtime online written) maxOut after.engine
        data ↔
      SealsAnew P ctx data req before.engine ∨ StoresFitting P data before.engine := by
  have named : ∀ dict, HandedOut P config start (earlier ++ [.compress ctx data req]) dict →
      dict.id ≠ "" ∧
        after.engine.dictionaries.resolver P mtime online written dict.id = some dict :=
    fun dict handed => ⟨DictStore.resolver_named (resolves dict handed), resolves dict handed⟩
  have stored : ∀ bytes, before.engine.blobs (P.blake3 data) = some bytes →
      SealedOf P config (HandedOut P config start (earlier ++ [.compress ctx data req])) data
        bytes := by
    intro bytes present
    rw [reached] at present
    rcases serveAll_seals start earlier _ bytes present with
      old | ⟨other, uploaded, same, store, own, written, sealed, handed, rfl⟩
    · rw [fresh] at old
      cases old
    · rw [← noCollision other uploaded same]
      exact ⟨store, own, written, sealed,
        fun dict inUse => handedOut_append.mpr (Or.inl (handed dict inUse)), rfl⟩
  have untouched : after.engine.blobs = before.engine.blobs →
      ¬ SealsAnew P ctx data req before.engine →
      (Readable P (after.engine.dictionaries.resolver P mtime online written) maxOut after.engine
        data ↔ SealsAnew P ctx data req before.engine ∨ StoresFitting P data before.engine) := by
    intro same served
    have reads := readable_iff_storesFitting framed trusted (same ▸ stored) _ named maxOut room
    rw [or_iff_right served, reads]
    simp only [StoresFitting, Engine.Stores, same]
  have compressed := compress_run P config req ctx data before working
  rw [succeeds] at compressed
  cases compressed with
  | replayed _ _ seen blobs => exact untouched blobs fun anew => seen anew.1
  | unpersisted _ _ idle => exact absurd persist (by rw [idle]; decide)
  | persisted _ _ outcome now unseen _ blocked grants =>
      generalize left : after.engine.blobs = blobs at blocked
      cases blocked with
      | stored _ dedup same present =>
          exact untouched left fun anew => anew.2 dedup _ _ present
      | fresh _ own absent same envelope sealed =>
          have anew : SealsAnew P ctx data req before.engine := ⟨unseen, absent persist⟩
          rw [if_pos persist] at left
          have wrote : after.engine.blobs (P.blake3 data) = some own.bytes := by
            rw [left, Function.update_self]
          have rewritten : ∀ bytes, after.engine.blobs (P.blake3 data) = some bytes →
              SealedOf P config
                (HandedOut P config start (earlier ++ [.compress ctx data req])) data bytes := by
            intro bytes present
            obtain rfl := Option.some.inj (wrote.symm.trans present)
            refine ⟨before.engine.dictionaries, req, own, sealed, fun dict inUse => ?_, rfl⟩
            rw [handedOut_append, ← reached]
            exact Or.inr (Or.inl ⟨ctx, data, req, rfl, inUse⟩)
          have reads := readable_iff_storesFitting framed trusted rewritten _ named maxOut room
          refine iff_of_true (reads.mpr ?_) (Or.inl anew)
          exact ⟨own.bytes, own.envelope, ⟨wrote, sealed.parses framed⟩,
            sealed.stagesFit trusted verify⟩

def verifiedUpload : CompressRequest := { emptyUpload with verify := true }

/-- The byte that `u` uploads to be verified has been stored by `t`, unverified. -/
theorem verified_write_readable_iff_dedup :
    ∃ first stored result after,
      (compress framingPlatform sampleConfig sampleTenant [1] (plainUpload "a.bin")).run
          (World.perform framingPlatform) { engine := freshEngine, outside := fun _ => quiet } =
        (.ok first, stored) ∧
      (compress framingPlatform sampleConfig otherTenant [1] verifiedUpload).run
          (World.perform framingPlatform) stored = (.ok result, after) ∧
      ¬ SealsAnew framingPlatform otherTenant [1] verifiedUpload stored.engine ∧
      Readable framingPlatform
        (after.engine.dictionaries.resolver framingPlatform 1 false true) 1 after.engine [1] := by
  have calm : World.Calm { engine := freshEngine, outside := fun _ => quiet } :=
    fun n => ⟨rfl, fun _ => rfl⟩
  obtain ⟨first, stored, bytes, envelope, run, present, -, plain⟩ :=
    plainUpload_stores framingPlatform sampleConfig sampleTenant framingPlatform_decodeFile
      [1] "a.bin" _ calm
  have served : stored = World.serveAll framingPlatform sampleConfig
      { engine := freshEngine, outside := fun _ => quiet }
      [.compress sampleTenant [1] (plainUpload "a.bin")] :=
    (congrArg Prod.snd run).symm
  have stillCalm : stored.Calm := served ▸ calm.serveAll _
  obtain ⟨result, succeeds⟩ := compress_succeeds framingPlatform sampleConfig verifiedUpload
    otherTenant [1] stored stillCalm (by intro key impossible; cases impossible)
    fun later calm same => compressBlocking_finds framingPlatform sampleConfig verifiedUpload [1]
      later calm.working rfl rfl (same ▸ present)
  refine ⟨first, stored, result, _, run, Prod.ext succeeds rfl, ?_, ?_⟩
  · exact fun anew => anew.2 rfl _ _ present
  refine (verified_write_readable_iff framingPlatform framingPlatform_decodeFile
    framingCodecs_roundTrip sampleConfig (DictStore.load framingPlatform true none [])
    (fun _ => quiet) [.compress sampleTenant [1] (plainUpload "a.bin")] otherTenant [1]
    verifiedUpload 1 false true 1 _ _ _ _ rfl served stillCalm.working
    (Prod.ext succeeds rfl) rfl rfl ?_ ?_ (le_refl _)).mpr (Or.inr ⟨bytes, envelope, present, ?_⟩)
  · rintro other ⟨ctx, req, member⟩ -
    exact (Request.compress.inj (List.mem_singleton.mp member)).2.1
  · rintro dict (⟨_, _, _, same, inUse⟩ | ⟨_, _, _, same, inUse⟩ | impossible)
    · cases same
      cases inUse
    · cases same
      cases inUse
    · exact impossible.elim
  · rw [plain]
    exact ⟨by simp [stages], by decide +kernel⟩

/-- A verified upload that finds a blob too long for the codecs succeeds, and cannot be
read back. -/
theorem oversized_unreadable (P : Platform) (config : Config) (ctx : TenantContext) (data : Bytes)
    (req : CompressRequest) (large : maxDecompressed < data.length) (world : World)
    (calm : world.Calm) (persist : req.persist = true) (dedup : req.allowDedup = true)
    (unseen : Unseen ctx req world.engine.db.events) {bytes : Bytes} {envelope : ProcessedFile}
    (present : world.engine.Stores P (P.blake3 data) bytes envelope)
    (plain : envelope.transforms = []) :
    ∃ result after, (compress P config ctx data req).run (World.perform P) world =
        (.ok result, after) ∧
      ∀ resolver maxOut, ¬ Readable P resolver maxOut after.engine data := by
  obtain ⟨result, succeeds⟩ := compress_succeeds P config req ctx data world calm unseen
    fun later calm same => compressBlocking_finds P config req data later calm.working persist
      dedup (same ▸ present)
  have compressed := compress_run P config req ctx data world calm.working
  generalize (compress P config ctx data req).run (World.perform P) world = ran
    at succeeds compressed ⊢
  obtain ⟨answer, after⟩ := ran
  dsimp only at succeeds
  subst succeeds
  refine ⟨result, after, rfl, fun resolver maxOut readable => ?_⟩
  have kept : after.engine.blobs (P.blake3 data) = some bytes := by
    cases compressed with
    | replayed _ _ seen => exact absurd unseen seen
    | unpersisted _ _ idle => exact absurd persist (by rw [idle]; decide)
    | persisted _ _ outcome now _ _ blocked grants =>
        generalize left : after.engine.blobs = blobs at blocked
        cases blocked with
        | stored => exact present.1
        | fresh _ written absent => exact absurd present (absent persist dedup _ _)
  obtain ⟨own, found, ⟨stored, parsed⟩, restored, run, same⟩ := readable
  obtain rfl := Option.some.inj (kept.symm.trans stored)
  obtain rfl : envelope = found := Except.ok.inj (present.2.symm.trans parsed)
  have short := restoreWithLimit_plain plain run
  rw [same] at short
  exact absurd large (not_lt.mpr short)

/-- One byte more than the codecs ever restore. -/
def hugeZeros : Bytes := List.replicate (maxDecompressed + 1) 0

/-- An unverified upload stores them as they are; the verified one that follows is served
by that blob, and nobody can restore it. -/
theorem verified_write_unreadable :
    ∃ first stored result after,
      (compress framingPlatform sampleConfig sampleTenant hugeZeros (plainUpload "a.bin")).run
          (World.perform framingPlatform) { engine := freshEngine, outside := fun _ => quiet } =
        (.ok first, stored) ∧
      (compress framingPlatform sampleConfig otherTenant hugeZeros verifiedUpload).run
          (World.perform framingPlatform) stored = (.ok result, after) ∧
      ∀ resolver maxOut, ¬ Readable framingPlatform resolver maxOut after.engine hugeZeros := by
  have calm : World.Calm { engine := freshEngine, outside := fun _ => quiet } :=
    fun n => ⟨rfl, fun _ => rfl⟩
  obtain ⟨first, stored, bytes, envelope, run, present, -, plain⟩ :=
    plainUpload_stores framingPlatform sampleConfig sampleTenant framingPlatform_decodeFile
      hugeZeros "a.bin" _ calm
  have stillCalm := calm.run framingPlatform
    (compress framingPlatform sampleConfig sampleTenant hugeZeros (plainUpload "a.bin"))
  rw [run] at stillCalm
  have large : maxDecompressed < hugeZeros.length := by
    rw [hugeZeros, List.length_replicate]
    exact Nat.lt_succ_self _
  obtain ⟨result, after, served, unreadable⟩ :=
    oversized_unreadable framingPlatform sampleConfig otherTenant hugeZeros verifiedUpload large
      stored stillCalm rfl rfl (by intro key impossible; cases impossible) present plain
  exact ⟨first, stored, result, after, run, served, unreadable⟩

end Syntra

import Syntra.Service.Essence

/-!
# Requests while nothing fails

A persisting request succeeds in a calm world when its blocking part does.
-/

set_option autoImplicit false

namespace Syntra

open Program Text

def World.Calm (world : World) : Prop := ∀ n, (world.outside n).Calm

theorem World.Calm.working {world : World} (calm : world.Calm) : world.Working :=
  fun n => (calm n).fault

theorem World.Calm.run {α : Type} {world : World} (calm : world.Calm) (P : Platform)
    (program : Handler α) : (program.run (World.perform P) world).2.Calm := by
  intro n
  rw [World.run_outside]
  exact calm _

theorem World.Calm.perform {world : World} (calm : world.Calm) (P : Platform)
    (asked : EngineCall) : (World.perform P world asked).2.Calm :=
  fun n => calm (n + 1)

theorem World.Calm.serveAll {P : Platform} {config : Config} {world : World} (calm : world.Calm)
    (requests : List Request) : (world.serveAll P config requests).Calm := by
  induction requests generalizing world with
  | nil => exact calm
  | cons request requests ih => exact ih (calm.run P _)

variable (P : Platform) (config : Config) (req : CompressRequest) (ctx : TenantContext)

theorem perform_addGrant_calm (world : World) (calm : (world.outside 0).Calm)
    (tenantId objectHash name : String) (originalSize essenceSize nowMs : Int) :
    ∃ granted, (World.perform P world
      (.addGrant tenantId objectHash name originalSize essenceSize nowMs)).1 = .ok granted := by
  rcases world.engine.db.transact_addGrant (world.outside 0).statementFault tenantId
    objectHash name originalSize essenceSize nowMs with
    ⟨e, fault, -⟩ | ⟨-, next, done, -⟩
  · rw [calm.statements, calm.statements] at fault
    cases fault
  · exact ⟨_, congrArg Prod.fst done⟩

theorem account_succeeds (originalSize : Nat) (outcome : BlockingOutcome) (now : Int)
    (world : World) (calm : world.Calm) :
    ∃ result,
      ((account P ctx req originalSize outcome now).run (World.perform P) world).1 =
        .ok result := by
  unfold account
  dsimp only
  rw [run_attempt, Handler.send, run_ask, perform_findGrant (calm 0)]
  dsimp only
  rw [run_attempt, Handler.send, run_ask]
  obtain ⟨granted, call⟩ := perform_addGrant_calm P
    { world with outside := fun n => world.outside (n + 1) } (calm 1) ctx.tenantId
    (hexEncode outcome.hash.val) req.filename (asI64 outcome.envelope.originalSize)
    (asI64 outcome.envelope.processedSize) now
  generalize World.perform P _ _ = ran at call ⊢
  obtain ⟨answer, later⟩ := ran
  dsimp only at call
  rw [call]
  exact ⟨_, rfl⟩

theorem compressNew_succeeds (data : Bytes) (world : World) (calm : world.Calm)
    (blocked : ∃ outcome,
      ((compressBlocking P config data req).run (World.perform P) world).1 = .ok outcome) :
    ∃ result, ((compressNew P config ctx data req).run (World.perform P) world).1 =
      .ok result := by
  obtain ⟨outcome, ends⟩ := blocked
  have calm := calm.run P (compressBlocking P config data req)
  unfold compressNew
  rw [run_attempt]
  generalize (compressBlocking P config data req).run (World.perform P) world = ran at *
  obtain ⟨answer, later⟩ := ran
  dsimp only at ends calm
  subst ends
  dsimp only
  rw [run_call]
  split
  · exact account_succeeds P req ctx _ outcome _ _ (calm.perform P .nowMillis)
  · exact ⟨_, rfl⟩

/-- A request that is no replay succeeds where its blocking part does. -/
theorem compress_succeeds (data : Bytes) (world : World) (calm : world.Calm)
    (unseen : Unseen ctx req world.engine.db.events)
    (blocked : ∀ later : World, later.Calm → later.engine = world.engine → ∃ outcome,
      ((compressBlocking P config data req).run (World.perform P) later).1 = .ok outcome) :
    ∃ result, ((compress P config ctx data req).run (World.perform P) world).1 = .ok result := by
  unfold compress
  cases key : req.idempotencyKey with
  | none => exact compressNew_succeeds P config req ctx data world calm (blocked world calm rfl)
  | some own =>
      dsimp only
      have looked : World.perform P world (.findEvent ctx.tenantId own) =
          (.ok none, world.skip 1) := by
        refine (perform_findEvent_eq_ok P _ _ _ _ _).mpr ⟨(calm 0).statements 0, ?_, rfl⟩
        rw [unseen own key, Option.map_none]
      have still : (world.skip 1).Calm := fun n => calm (n + 1)
      rw [run_attempt, Handler.send, run_ask, looked]
      exact compressNew_succeeds P config req ctx data (world.skip 1) still
        (blocked (world.skip 1) still rfl)

theorem compressBlocking_finds (data : Bytes) (world : World) (working : world.Working)
    (persist : req.persist = true) (dedup : req.allowDedup = true) {bytes : Bytes}
    {envelope : ProcessedFile} (present : world.engine.Stores P (P.blake3 data) bytes envelope) :
    ∃ outcome,
      ((compressBlocking P config data req).run (World.perform P) world).1 = .ok outcome := by
  have found := (existingBlob_run P req (P.blake3 data) world working).2 (envelope, bytes)
  have answer := found.mpr ⟨persist, dedup, present⟩
  unfold compressBlocking
  dsimp only
  rw [run_bind, answer]
  exact ⟨_, rfl⟩

theorem compressFresh_succeeds (data : Bytes) (world : World) (working : world.Working)
    {planned : Planned}
    (chosen : compressBest P.codecs P.floats data
      (classify P.floats P.infer data req.filename req.mimeHint) req.effort
      ((world.engine.dictionaries.activeFor
        (classify P.floats P.infer data req.filename req.mimeHint).dictionaryKey).map (·.bytes))
      req.forced config.limits = .ok planned)
    (unverified : req.verify = false) :
    ∃ outcome, ((compressFresh P config data req (P.blake3 data)).run (World.perform P)
      world).1 = .ok outcome := by
  unfold compressFresh
  dsimp only
  have asks : World.perform P world (.activeFor
      (classify P.floats P.infer data req.filename req.mimeHint).dictionaryKey) =
      (world.engine.dictionaries.activeFor
        (classify P.floats P.infer data req.filename req.mimeHint).dictionaryKey,
        { world with outside := fun n => world.outside (n + 1) }) := rfl
  rw [run_call, asks]
  dsimp only
  rw [chosen]
  dsimp only
  rw [run_call, verifyWrite, if_neg (by rw [unverified]; decide)]
  rw [run_attempt, run_done]
  dsimp only
  rw [run_call, run_call, run_attempt]
  generalize sealEnvelope P _ = written
  have done := (persistSealed_run P req (P.blake3 data) written
    (World.perform P (World.perform P (World.perform P
      { world with outside := fun n => world.outside (n + 1) } .elapsedMs).2
      (.observe (classify P.floats P.infer data req.filename req.mimeHint).dictionaryKey data)).2
      .nowMillis).2 (fun n => working (n + 4))).1
  generalize (persistSealed (P.blake3 data) req written).run (World.perform P) _ = ran at done ⊢
  obtain ⟨answer, later⟩ := ran
  dsimp only at done
  rw [done]
  exact ⟨_, rfl⟩

/-! ## Reading -/

theorem World.Calm.answers {world : World} (calm : world.Calm) (n : Nat) :
    (world.skip n).Answers where
  grant := (calm _).statements 0
  blob := (calm _).fault

theorem loadObject_eq_ok (world later : World) (tenantId : String) (hash : Digest)
    (envelope : ProcessedFile) :
    (loadObject P tenantId hash).run (World.perform P) world = (.ok envelope, later) ↔
      world.Answers ∧ world.engine.db.findGrant tenantId (hexEncode hash.val) ≠ none ∧
        (∃ bytes, world.engine.Stores P hash bytes envelope) ∧ world.skip 2 = later := by
  unfold loadObject
  rw [run_attempt_eq_ok]
  constructor
  · rintro ⟨bytes, between, loaded, opened⟩
    obtain ⟨answers, granted, stored, rfl⟩ := (loadContainer_eq_ok P _ _ _ _ _).mp loaded
    obtain ⟨parsed, rfl⟩ := Prod.mk.inj opened
    exact ⟨answers, granted, ⟨bytes, stored, Fallible.mapError_eq_ok.mp parsed⟩, rfl⟩
  · rintro ⟨answers, granted, ⟨bytes, stored, parsed⟩, rfl⟩
    refine ⟨bytes, world.skip 2, (loadContainer_eq_ok P _ _ _ _ _).mpr
      ⟨answers, granted, stored, rfl⟩, ?_⟩
    exact Prod.ext (Fallible.mapError_eq_ok.mpr parsed) rfl

/-! ## An upload that is stored as it is -/

/-- A request to store the data without compression, unverified and without looking for it. -/
def plainUpload (filename : String) : CompressRequest where
  filename
  mimeHint := some "application/zip"
  effort := .fast
  forced := { codec := some .stored, level := none, useDictionary := none }
  verify := false
  persist := true
  allowDedup := false
  idempotencyKey := none
  requestId := none

theorem plainUpload_unseen (filename : String) (events : Table eventKey) :
    Unseen ctx (plainUpload filename) events := by
  intro key impossible
  cases impossible

theorem plainUpload_blocking (data : Bytes) (filename : String) (world : World)
    (working : world.Working) :
    ∃ outcome, ((compressBlocking P config data (plainUpload filename)).run (World.perform P)
      world).1 = .ok outcome := by
  unfold compressBlocking
  have skips : existingBlob P (P.blake3 data) (plainUpload filename) = .done none := rfl
  dsimp only
  rw [skips]
  exact compressFresh_succeeds P config (plainUpload filename) data world working
    (compressBest_stored _ _ _ _ _ _ _ _ rfl) rfl

/-- The upload succeeds, and leaves an envelope with its name and no transforms. -/
theorem plainUpload_stores (framed : P.Framed) (data : Bytes) (filename : String) (world : World)
    (calm : world.Calm) :
    ∃ result after bytes envelope,
      (compress P config ctx data (plainUpload filename)).run (World.perform P) world =
        (.ok result, after) ∧
      after.engine.Stores P (P.blake3 data) bytes envelope ∧
      envelope.originalName = filename ∧ envelope.transforms = [] := by
  obtain ⟨result, succeeds⟩ := compress_succeeds P config (plainUpload filename) ctx data world
    calm (plainUpload_unseen ctx filename _)
    fun later calm _ => plainUpload_blocking P config data filename later calm.working
  have compressed := compress_run P config (plainUpload filename) ctx data world calm.working
  generalize (compress P config ctx data (plainUpload filename)).run (World.perform P) world = ran
    at succeeds compressed ⊢
  obtain ⟨answer, after⟩ := ran
  dsimp only at succeeds
  subst succeeds
  cases compressed with
  | replayed _ _ seen => exact absurd (plainUpload_unseen ctx filename _) seen
  | unpersisted _ _ idle => cases idle
  | persisted _ _ outcome now unseen persist blocked grants =>
      generalize left : after.engine.blobs = blobs at blocked
      cases blocked with
      | stored _ dedup => cases dedup
      | fresh _ written absent same envelope sealed =>
          refine ⟨result, after, written.bytes, written.envelope, rfl,
            ⟨?_, sealed.parses framed⟩, ?_⟩
          · rw [left, if_pos persist, Function.update_self]
          · obtain ⟨planned, compressMs, verified, verifyMs, now, chosen, -, rfl⟩ := sealed
            rw [compressBest_stored _ _ _ _ _ _ _ _ rfl] at chosen
            cases chosen
            exact ⟨rfl, rfl⟩

end Syntra

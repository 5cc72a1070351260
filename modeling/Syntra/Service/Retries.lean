import Syntra.Service.Replay

/-!
# Retries that overlap

Requests with one key, run together.  When each looks for the key only while no
other has looked in vain and not yet ended, the first counts and the others are
replays of it.
-/

set_option autoImplicit false

namespace Syntra

open Program Text

abbrev Compressions := Pool World EngineCall EngineCall.Answer (Except EngineError CompressResult)

def lookedInVain : (made : EngineCall) × made.Answer → Bool
  | ⟨.findEvent _ _, .ok none⟩ => true
  | _ => false

/-- A request begins only while no other, having found no event of the key, goes on. -/
abbrev LooksAlone : Compressions → Nat → Prop := Pool.Exclusive fun entry => lookedInVain entry = true

variable {P : Platform} {config : Config} {ctx : TenantContext} {req : CompressRequest}

/-- What a request with a key does with the answer of its lookup. -/
def afterLookup (P : Platform) (config : Config) (ctx : TenantContext) (data : Bytes)
    (req : CompressRequest) :
    Except DbError (Option StoredEvent) → Handler (Except EngineError CompressResult)
  | .ok (some prev) => replay P ctx.tenantId prev
  | .ok none => compressNew P config ctx data req
  | .error e => .done (.error (.internal e))

theorem compress_keyed (data : Bytes) {key : String} (keyed : req.idempotencyKey = some key) :
    compress P config ctx data req =
      .call (.findEvent ctx.tenantId key) (afterLookup P config ctx data req) := by
  unfold compress
  rw [keyed]
  refine congrArg (Program.call (EngineCall.findEvent ctx.tenantId key)) (funext fun answer => ?_)
  cases answer with
  | error e => rfl
  | ok found => cases found <;> rfl

theorem afterLookup_replays (data : Bytes) (world : World) {key id : String} {prev : UsageEvent}
    (found : world.engine.db.events.find (ctx.tenantId, key) = some prev)
    (names : prev.objectHash = some id) :
    (afterLookup P config ctx data req
        (World.perform P world (.findEvent ctx.tenantId key)).1).Safe
      (Monitor.only EngineCall.reading)
      (fun _ reply => ∀ result, reply = .ok result → result.id = id) () := by
  generalize looked : World.perform P world (.findEvent ctx.tenantId key) = ran
  obtain ⟨answer, later⟩ := ran
  cases answer with
  | error e => exact fun result impossible => nomatch impossible
  | ok event =>
      obtain ⟨-, rfl, -⟩ :=
        (perform_findEvent_eq_ok P world later ctx.tenantId key event).mp looked
      rw [found]
      refine (replay_answers ctx.tenantId prev.stored).imp fun _ reply answers result ends => ?_
      have own := (answers result ends).2
      exact (Option.some.inj (names.symm.trans own)).symm

/-- `count` requests with a key that is new, of which a single one succeeds: when each looks
alone they leave the database as the single one does, with one reference more and one event
of the key, and all successes name one object. -/
theorem looksAlone_counts_once (P : Platform) (config : Config) (ctx : TenantContext)
    (data : Bytes) (req : CompressRequest) (key : String) (persist : req.persist = true)
    (keyed : req.idempotencyKey = some key) (world : World) (calm : world.Calm)
    (absent : world.engine.db.events.find (ctx.tenantId, key) = none)
    (result : CompressResult) (single : World)
    (alone : (compress P config ctx data req).run (World.perform P) world = (.ok result, single))
    (count : Nat) (positive : 0 < count) (moves : List Nat) (final : Compressions)
    (looksAlone : Run.Meets (Pool.step (World.perform P)) LooksAlone
      (Pool.start world (List.replicate count (compress P config ctx data req))) moves)
    (run : Run.exec (Pool.step (World.perform P))
      (Pool.start world (List.replicate count (compress P config ctx data req))) moves =
        some final)
    (finished : ∀ call ∈ final.calls, call.returned.isSome = true) :
    final.state.engine.db = single.engine.db ∧
      final.state.engine.db.refs ctx.tenantId (hexEncode (P.blake3 data).val) =
        world.engine.db.refs ctx.tenantId (hexEncode (P.blake3 data).val) + 1 ∧
      final.state.engine.db.events.rows.countP
        (fun row => eventKey row = some (ctx.tenantId, key)) = 1 ∧
      ∀ index own, final.returned index = some (.ok own) → own.id = result.id := by
  have unseen : Unseen ctx req world.engine.db.events := by
    intro own same
    rw [keyed, Option.some.injEq] at same
    rw [← same, absent]
  obtain ⟨-, recorded⟩ := compress_names P config ctx req data world keyed persist alone
  obtain ⟨event, found, names⟩ := recorded calm
  obtain ⟨_, _, _, -, -, charged⟩ :=
    (compress_accounts P config ctx data req world persist unseen).2.accepted result single alone
  have phase := Pool.exclusive_once (fun later => later.engine.db = single.engine.db)
    EngineCall.reading (fun reply => ∀ own, reply = .ok own → own.id = result.id)
    (compress_keyed data keyed) ?_ alone ⟨rfl, ?_⟩ ?_ ?_ count final moves looksAlone run
  · have calls : final.calls ≠ [] := by
      intro none_left
      have same := Pool.length_run run
      rw [none_left] at same
      simp [Pool.start] at same
      omega
    obtain ⟨db, answers⟩ := phase.finished (compress_keyed data keyed) calls finished
    refine ⟨db, by rw [db]; exact charged.refs, ?_, ?_⟩
    · rw [db]
      exact Table.countP_key found
    · intro index own returned
      exact answers index _ returned own rfl
  · have looked := (perform_findEvent_eq_ok P world _ ctx.tenantId key _).mpr
      ⟨(calm 0).statements 0, rfl, rfl⟩
    rw [looked, absent]
    rfl
  · intro own same
    cases same
    rfl
  · intro later same
    refine ⟨?_, afterLookup_replays data later ?_ names⟩
    · rw [perform_findEvent_engine]
      exact same
    · rw [same, found]
  · intro later asked same reads
    exact (Engine.perform_db P _ _ asked reads.leaves.1).trans same

def twoRetries : Compressions :=
  Pool.start quietWorld
    (List.replicate 2 (compress framingPlatform sampleConfig sampleTenant [] keyedUpload))

/-- The second looks for the key after the first has ended, and is a replay. -/
theorem looksAlone_counts_once_twoRetries :
    ∃ final, Run.exec (Pool.step (World.perform framingPlatform)) twoRetries
        (List.replicate 14 0 ++ List.replicate 6 1) = some final ∧
      final.state.engine.db.refs "t" (hexEncode emptyHash.val) = 1 := by
  have shown : (Run.exec (Pool.step (World.perform framingPlatform)) twoRetries
      (List.replicate 14 0 ++ List.replicate 6 1)).map
        (fun final => final.calls.all fun call => call.returned.isSome) = some true := by
    decide +kernel
  obtain ⟨final, run, ended⟩ := Option.map_eq_some_iff.mp shown
  obtain ⟨result, succeeds, -⟩ := keyedUploaded_ok
  refine ⟨final, run, (looksAlone_counts_once framingPlatform sampleConfig sampleTenant []
    keyedUpload "k" rfl rfl quietWorld (fun _ => ⟨rfl, fun _ => rfl⟩) rfl result keyedUploaded.2
    (Prod.ext succeeds rfl) 2 (by decide) _ final ?_ run ?_).2.1⟩
  · decide +kernel
  · exact List.all_eq_true.mp ended

/-- Both look for the key before the first ends, and both count. -/
theorem overlapping_retries_count_twice :
    ∃ final, Run.exec (Pool.step (World.perform framingPlatform)) twoRetries
        ([0, 1] ++ List.replicate 13 0 ++ List.replicate 6 1) = some final ∧
      (∀ call ∈ final.calls, call.returned.isSome = true) ∧
      final.state.engine.db.refs "t" (hexEncode emptyHash.val) = 2 ∧
      keyedUploaded.2.engine.db.refs "t" (hexEncode emptyHash.val) = 1 := by
  have shown : (Run.exec (Pool.step (World.perform framingPlatform)) twoRetries
      ([0, 1] ++ List.replicate 13 0 ++ List.replicate 6 1)).map
        (fun final => (final.calls.all fun call => call.returned.isSome,
          final.state.engine.db.refs "t" (hexEncode emptyHash.val))) = some (true, 2) := by
    decide +kernel
  obtain ⟨final, run, seen⟩ := Option.map_eq_some_iff.mp shown
  rw [Prod.mk.injEq, List.all_eq_true] at seen
  exact ⟨final, run, seen.1, seen.2, by decide +kernel⟩

end Syntra

import Syntra.Service.Touched
import Syntra.Watcher.Invariant
import Syntra.Watcher.Restart

/-!
# Removing the source

The ingest removes by name, after a long time of reading and compressing, what is
there then.  That is what it archived when nobody touched the file in between.
-/

set_option autoImplicit false

namespace Syntra.Watcher

open Program

/-- A file about to be removed has not been replaced since the ingest opened it, nor
written to since the ingest began to read it. -/
def Undisturbed (state : Observation) (move : Move) : Prop :=
  (match move, state.system.asks move with
    | .task key _, some (.removeFile _) => !state.seen.replaced key && !state.seen.written key
    | _, _ => true) = true

instance (state : Observation) (move : Move) : Decidable (Undisturbed state move) :=
  inferInstanceAs (Decidable (_ = true))

/-- The content that a move removes from the directory has been archived under the
name of the file. -/
def RemovesArchived (state : Observation) (move : Move) : Prop :=
  (match state.system.asks move with
    | some (.removeFile path) =>
      (state.system.watch.contentAt path.components).all fun content =>
        state.system.watch.archived.contains (fileNameOf path.components, content)
    | _ => true) = true

instance (state : Observation) (move : Move) : Decidable (RemovesArchived state move) :=
  inferInstanceAs (Decidable (_ = true))

variable {P : Platform}

theorem Inv.start (careful : Prop) (watch : Watch) : Inv P careful (.start watch) where
  inflight := by simp [Observation.start]
  scanner := nofun
  notifier := nofun
  paths key := ⟨.start, rfl, Tracks.start, nofun⟩

theorem next?_eq_some {α : Type} {action : Action α} {asked : WatchCall}
    (asks : action.next? = some asked) : ∃ rest, action = .call asked rest := by
  cases action with
  | done value => cases asks
  | call first rest =>
      cases asks
      exact ⟨rest, rfl⟩

/-- Only the ingest of a path removes its file, and it has archived what it read. -/
theorem Inv.removes {careful : Prop} {state : Observation} {move : Move} (inv : Inv P careful state)
    {path : PathBuf} (asks : state.system.asks move = some (.removeFile path)) :
    ∃ chance known, move = .task path.components chance ∧
      Tracks P (fileNameOf path.components) state.system.watch.archived
        (view state.system.watch state.seen path.components) known ∧
      known.whole = true ∧ ∃ id, known.archived = some (known.data, id) := by
  cases move with
  | scanner chance =>
      obtain ⟨action, present, asks⟩ := Option.bind_eq_some_iff.mp asks
      obtain ⟨rest, rfl⟩ := next?_eq_some asks
      exact (inv.scanner _ present).1.elim
  | notifier chance =>
      obtain ⟨action, present, asks⟩ := Option.bind_eq_some_iff.mp asks
      obtain ⟨rest, rfl⟩ := next?_eq_some asks
      exact (inv.notifier _ present).1.elim
  | task key chance =>
      obtain ⟨⟨own, action⟩, present, asks⟩ := Option.bind_eq_some_iff.mp asks
      obtain ⟨rest, rfl⟩ := next?_eq_some asks
      obtain ⟨known, ingests, holds⟩ := inv.paths key
      rw [present] at ingests
      obtain ⟨rfl, ⟨rfl, whole, -, archived⟩, -⟩ := ingests
      exact ⟨chance, known, rfl, holds.tracks, whole, archived⟩
  | change | beginPass | event | drain | dispatch => cases asks

theorem Inv.removesArchived {careful : Prop} {state : Observation} {move : Move}
    (inv : Inv P careful state) (undisturbed : Undisturbed state move) :
    RemovesArchived state move := by
  unfold RemovesArchived
  split
  · rename_i path asks
    cases here : state.system.watch.contentAt path.components with
    | none => rfl
    | some content =>
        obtain ⟨chance, known, rfl, tracks, whole, id, archived⟩ := inv.removes asks
        obtain ⟨inode, found, rfl⟩ := Option.map_eq_some_iff.mp here
        have still : state.seen.replaced path.components = false ∧
            state.seen.written path.components = false := by
          simpa [Undisturbed, asks] using undisturbed
        have file : state.system.watch.fileAt path.components =
            some (inode, (state.system.watch.inodes inode).content) := by
          rw [Watch.fileAt, found, Option.map_some]
        have read := (tracks.data inode _ (tracks.begun whole) still.1 still.2 file).2 whole
        have member := (tracks.archived known.data id archived).2.2.1
        rw [Option.all_some, List.contains_iff_mem, ← read]
        exact member
  · rfl

/-! ## What has been archived is in the vault -/

/-- Every blob is sealed for its address, and what has been archived has one. -/
structure Archives (P : Platform) (watch : Watch) : Prop where
  addressed : Addressed P watch.world.engine
  present : ∀ entry ∈ watch.archived, watch.world.engine.blobs (P.blake3 entry.2) ≠ none

variable {config : WatchConfig} {chance : Chance} {watch : Watch}

theorem Archives.unchanged {later : Watch} (archives : Archives P watch)
    (world : later.world = watch.world) (archived : later.archived = watch.archived) :
    Archives P later :=
  ⟨by rw [world]; exact archives.addressed, by rw [world, archived]; exact archives.present⟩

theorem perform_world (asked : WatchCall) (idle : asked.stores = false) :
    (watch.perform P config chance asked).2.world = watch.world := by
  unfold Watch.perform
  cases asked with
  | compress ctx data req => cases idle
  | _ =>
      dsimp only
      repeat' split
      all_goals rfl

theorem Archives.compress (archives : Archives P watch) {ctx : TenantContext} {data : Bytes}
    {req : CompressRequest} (unkeyed : req.idempotencyKey = none) (persist : req.persist = true) :
    Archives P (watch.perform P config chance (.compress ctx data req)).2 := by
  have addressed := compress_addressed P config.engine ctx data req archives.addressed
  have kept := fun entry member =>
    compress_present P config.engine ctx data req (archives.present entry member)
  simp only [Watch.perform]
  generalize ran : (Syntra.compress P config.engine ctx data req).run (World.perform P)
    watch.world = outcome at addressed kept
  obtain ⟨result, after⟩ := outcome
  refine ⟨addressed, fun entry member => ?_⟩
  cases result with
  | error e => exact kept entry member
  | ok result =>
      rcases List.mem_append.mp member with earlier | now
      · exact kept entry earlier
      · rw [List.mem_singleton.mp now]
        exact compress_leaves persist unkeyed ran

theorem Archives.perform (archives : Archives P watch) (asked : WatchCall)
    (kept : ∀ ctx data req, asked = .compress ctx data req →
      req.idempotencyKey = none ∧ req.persist = true) :
    Archives P (watch.perform P config chance asked).2 := by
  cases stores : asked.stores with
  | false =>
      exact archives.unchanged (perform_world asked stores)
        (perform_archived P config chance watch asked stores)
  | true =>
      cases asked with
      | compress ctx data req =>
          obtain ⟨unkeyed, persist⟩ := kept ctx data req rfl
          exact archives.compress unkeyed persist
      | _ => cases stores

/-- Only ingests archive, without a key and to persist. -/
theorem Inv.compresses {careful : Prop} {state : Observation} {move : Move}
    (inv : Inv P careful state) {ctx : TenantContext} {data : Bytes} {req : CompressRequest}
    (asks : state.system.asks move = some (.compress ctx data req)) :
    req.idempotencyKey = none ∧ req.persist = true := by
  cases move with
  | scanner chance =>
      obtain ⟨action, present, asks⟩ := Option.bind_eq_some_iff.mp asks
      obtain ⟨rest, rfl⟩ := next?_eq_some asks
      exact (inv.scanner _ present).1.elim
  | notifier chance =>
      obtain ⟨action, present, asks⟩ := Option.bind_eq_some_iff.mp asks
      obtain ⟨rest, rfl⟩ := next?_eq_some asks
      exact (inv.notifier _ present).1.elim
  | task key chance =>
      obtain ⟨⟨own, action⟩, present, asks⟩ := Option.bind_eq_some_iff.mp asks
      obtain ⟨rest, rfl⟩ := next?_eq_some asks
      obtain ⟨known, ingests, -⟩ := inv.paths key
      rw [present] at ingests
      obtain ⟨-, ⟨-, -, unkeyed, persist⟩, -⟩ := ingests
      exact ⟨unkeyed, persist⟩
  | change | beginPass | event | drain | dispatch => cases asks

theorem Archives.step {careful : Prop} {state next : Observation} {move : Move}
    (archives : Archives P state.system.watch) (inv : Inv P careful state)
    (taken : state.step P config move = some next) : Archives P next.system.watch := by
  obtain ⟨system, moved, rfl⟩ := Option.map_eq_some_iff.mp taken
  have calls : ∀ chance asked, state.system.asks move = some asked →
      Archives P (state.system.watch.perform P config chance asked).2 := fun chance asked asks =>
    archives.perform asked fun ctx data req same => inv.compresses (same ▸ asks)
  cases move with
  | change change =>
      cases moved
      cases change <;> exact archives.unchanged rfl rfl
  | scanner chance =>
      simp only [System.step] at moved
      split at moved
      · cases moved
      · cases moved
        exact archives
      · rename_i asked rest present
        cases moved
        exact calls chance asked (by simp only [System.asks, present, Option.bind_some, next?])
  | notifier chance =>
      simp only [System.step] at moved
      split at moved
      · cases moved
      · cases moved
        exact archives
      · rename_i asked rest present
        cases moved
        exact calls chance asked (by simp only [System.asks, present, Option.bind_some, next?])
  | task key chance =>
      simp only [System.step] at moved
      split at moved
      · cases moved
      · cases moved
        exact archives.unchanged rfl rfl
      · rename_i path asked rest present
        cases moved
        exact calls chance asked (by simp only [System.asks, present, Option.bind_some, next?])
  | beginPass | event | drain | dispatch =>
      simp only [System.step] at moved
      repeat' split at moved
      all_goals cases moved
      all_goals exact archives.unchanged rfl rfl

/-- The content that a move removes from the directory has an essence in the vault. -/
def RemovesSealed (P : Platform) (state : Observation) (move : Move) : Prop :=
  ∀ path content, state.system.asks move = some (.removeFile path) →
    state.system.watch.contentAt path.components = some content →
      ∃ bytes, state.system.watch.world.engine.blobs (P.blake3 content) = some bytes ∧
        SealedFor P (P.blake3 content) bytes

theorem Archives.removesSealed {state : Observation} {move : Move}
    (archives : Archives P state.system.watch) (removes : RemovesArchived state move) :
    RemovesSealed P state move := by
  intro path content asks here
  simp only [RemovesArchived, asks, here, Option.all_some, List.contains_iff_mem] at removes
  obtain ⟨bytes, stored⟩ := Option.ne_none_iff_exists'.mp (archives.present _ removes)
  exact ⟨bytes, stored, archives.addressed _ _ stored⟩

/-- As long as files are not touched between the reading and the removal, what the
ingests remove from the directory has been archived, and is in the vault if what was archived
before is. -/
theorem removals_archived (P : Platform) (config : WatchConfig) (watch : Watch) (moves : List Move)
    (undisturbed : Run.Meets (Observation.step P config) Undisturbed (.start watch) moves) :
    Run.Meets (Observation.step P config) RemovesArchived (.start watch) moves ∧
      (Archives P watch →
        Run.Meets (Observation.step P config) (RemovesSealed P) (.start watch) moves) := by
  refine ⟨?_, fun archives => ?_⟩
  · exact Run.meets_of_invariant Undisturbed RemovesArchived (Inv P False)
      (fun _ _ _ inv _ taken => inv.step taken fun _ _ _ _ careful => careful.elim)
      (fun _ _ inv undisturbed => inv.removesArchived undisturbed)
      _ moves (Inv.start False watch) undisturbed
  · refine Run.meets_of_invariant Undisturbed (RemovesSealed P)
      (fun state => Inv P False state ∧ Archives P state.system.watch) ?_ ?_ _ moves
      ⟨Inv.start False watch, archives.unchanged rfl rfl⟩ undisturbed
    · rintro state move next ⟨inv, archives⟩ - taken
      exact ⟨inv.step taken fun _ _ _ _ careful => careful.elim, archives.step inv taken⟩
    · rintro state move ⟨inv, archives⟩ undisturbed
      exact archives.removesSealed (inv.removesArchived undisturbed)

/-! ## A file that grows -/

def deletingConfig : WatchConfig := { sampleWatchConfig with deleteSource := true }

/-- A file of one byte is put into the directory, and its ingest dispatched. -/
def dispatched : List Move :=
  [.change (.write 0 [1] 5), .change (.place (sampleDir.join "a") (.file 0)),
    .event [sampleDir.join "a"], .notifier .calm, .notifier .calm, .drain, .dispatch 3 2]

def calls (count : Nat) : List Move :=
  List.replicate count (.task (sampleDir.join "a").components .calm)

theorem freshWatch_archives : Archives framingPlatform freshWatch where
  addressed := nofun
  present := nofun

theorem removals_archived_calmly :
    (Run.Meets (Observation.step framingPlatform deletingConfig) RemovesArchived (.start freshWatch)
        (dispatched ++ calls 12) ∧
      Run.Meets (Observation.step framingPlatform deletingConfig) (RemovesSealed framingPlatform)
        (.start freshWatch) (dispatched ++ calls 12)) ∧
      (Run.exec (Observation.step framingPlatform deletingConfig) (.start freshWatch)
          (dispatched ++ calls 12)).map (fun state =>
            (state.system.watch.contentAt (sampleDir.join "a").components,
              state.system.watch.archived)) = some (none, [("a", [1])]) :=
  ⟨(removals_archived framingPlatform deletingConfig freshWatch _ (by decide +kernel)).imp_right
    fun sealed => sealed freshWatch_archives, by decide +kernel⟩

/-- A second byte is written after the file was read: it is removed and never archived. -/
theorem appended_byte_is_lost :
    ¬ Run.Meets (Observation.step framingPlatform deletingConfig) RemovesArchived
        (.start freshWatch) (dispatched ++ calls 11 ++ [.change (.write 0 [1, 2] 6)] ++ calls 1) ∧
      (Run.exec (Observation.step framingPlatform deletingConfig) (.start freshWatch)
          (dispatched ++ calls 11 ++ [.change (.write 0 [1, 2] 6)] ++ calls 1)).map (fun state =>
            (state.system.watch.contentAt (sampleDir.join "a").components,
              state.system.watch.archived)) = some (none, [("a", [1])]) :=
  ⟨by decide +kernel, by decide +kernel⟩

end Syntra.Watcher

import Syntra.Watcher.Removal

/-!
# Archiving once

A pass that reads the whole directory sees every file that is in it all the time.
So it forgets the record of a file only when the file has been gone, provided
nothing it looked at failed and the record is older than the pass; and what the
registry remembers is not archived again.
-/

set_option autoImplicit false

namespace Syntra.Watcher

open Program

/-! ## What a pass has seen -/

structure Sighted where
  opened : Bool
  presentes : List Key
  /-- An entry reported and not yet looked at. -/
  current : Option PathBuf
  ausentes : List PathBuf

def Sighted.start : Sighted := { opened := false, presentes := [], current := none, ausentes := [] }

def Sighted.advance (sighted : Sighted) : (asked : WatchCall) → asked.Answer → Sighted
  | .readDir, .ok _ => { opened := true, presentes := [], current := none, ausentes := [] }
  | .nextEntry, .ok (some path) => { sighted with current := some path }
  | .lstat path, some (.file _) =>
    { sighted with presentes := sighted.presentes ++ [path.components], current := none }
  | .lstat _, _ => { sighted with current := none }
  | .seenAbsent _, paths => { sighted with ausentes := paths }
  | _, _ => sighted

/-- Nothing that was reported waits to be looked at. -/
def Sighted.Handled (sighted : Sighted) : Prop :=
  ∀ path, sighted.current = some path → nameAllowed path = false

def Sighted.Allows (sighted : Sighted) : WatchCall → Prop
  | .readDir => sighted.opened = false ∧ sighted.ausentes = []
  | .nextEntry => sighted.Handled ∧ sighted.ausentes = []
  | .lstat path => sighted.current = some path ∧ sighted.ausentes = []
  | .seenAbsent presentes =>
    sighted.opened = true ∧ sighted.presentes = presentes.map (·.components)
  | .seenRemove path => path ∈ sighted.ausentes
  | .removeRow _ | .inflightContains _ | .seenGet _ | .enqueue _ => True
  | _ => False

def scanMonitor : Monitor WatchCall WatchCall.Answer Sighted where
  advance := Sighted.advance
  allows := Sighted.Allows

structure Sighted.Between (sighted : Sighted) (presentes : List PathBuf) : Prop where
  opened : sighted.opened = true
  presentes : sighted.presentes = presentes.map (·.components)
  handled : sighted.Handled
  ausentes : sighted.ausentes = []

/-- What a sighting adds to the paths that are there. -/
def Sighting.extends (path : PathBuf) (presentes : List PathBuf) : Sighting → List PathBuf
  | .passed => presentes
  | .present | .found => presentes ++ [path]

variable {sighted : Sighted}

theorem examine_safe {presentes : List PathBuf} (between : sighted.Between presentes) (path : PathBuf) :
    (examine path).Safe scanMonitor
      (fun later sighting => later.Between (sighting.extends path presentes))
      { sighted with current := some path } := by
  unfold examine
  split
  · refine ⟨⟨rfl, between.ausentes⟩, fun reply => ?_⟩
    have passed : ({ sighted with current := none } : Sighted).Between presentes :=
      ⟨between.opened, between.presentes, nofun, between.ausentes⟩
    have present : ({ sighted with
        presentes := sighted.presentes ++ [path.components], current := none } : Sighted).Between
          (presentes ++ [path]) :=
      ⟨between.opened, by simp [between.presentes], nofun, between.ausentes⟩
    rcases reply with _ | (metadata | _ | _ | _)
    case some.file =>
      refine ⟨trivial, fun busy => ?_⟩
      cases busy with
      | true => exact present
      | false =>
          refine ⟨trivial, fun previous => ?_⟩
          dsimp only
          split <;> exact present
    all_goals exact passed
  · rename_i refused
    refine ⟨between.opened, between.presentes, ?_, between.ausentes⟩
    intro other same
    cases same
    exact Bool.eq_false_iff.mpr refused

theorem endPass_safe {presentes : List PathBuf} (between : sighted.Between presentes)
    (found : List PathBuf) :
    (endPass presentes found).Safe scanMonitor (fun _ _ => True) sighted := by
  have forgets : ∀ paths : List PathBuf, ∀ known : Sighted, paths ⊆ known.ausentes →
      (forgetAll paths).Safe scanMonitor (fun _ _ => True) known := by
    intro paths
    induction paths with
    | nil => exact fun _ _ => trivial
    | cons path paths ih =>
        intro known among
        exact ⟨among List.mem_cons_self, fun _ => ⟨trivial, fun _ =>
          ih known fun other member => among (List.mem_cons_of_mem _ member)⟩⟩
  have retains : (retainPresent presentes).Safe scanMonitor (fun _ _ => True) sighted :=
    ⟨⟨between.opened, between.presentes⟩, fun paths => forgets paths _ (List.Subset.refl _)⟩
  refine safe_bind.mpr (retains.imp fun later _ _ => ?_)
  split
  · trivial
  · exact ⟨trivial, fun _ => trivial⟩

theorem scanEntries_safe (entries : Nat) {presentes : List PathBuf}
    (between : sighted.Between presentes) (found : List PathBuf) :
    (scanEntries entries presentes found).Safe scanMonitor (fun _ _ => True) sighted := by
  induction entries generalizing sighted presentes found with
  | zero => exact endPass_safe between found
  | succ entries ih =>
      refine ⟨⟨between.handled, between.ausentes⟩, fun reply => ?_⟩
      rcases reply with e | (_ | path)
      · exact endPass_safe between found
      · exact endPass_safe between found
      · refine safe_bind.mpr ((examine_safe between path).imp fun later sighting after => ?_)
        cases sighting <;> exact ih after _

theorem scanPass_safe (entries : Nat) :
    (scanPass entries).Safe scanMonitor (fun _ _ => True) .start := by
  refine ⟨⟨rfl, rfl⟩, fun reply => ?_⟩
  cases reply with
  | error e => trivial
  | ok opened =>
      have between : ({ opened := true, presentes := [], current := none, ausentes := [] } :
          Sighted).Between [] := ⟨rfl, rfl, nofun, rfl⟩
      exact scanEntries_safe entries between []

/-! ## What a pass can rely on -/

/-- The record of a path is older than the pass, the pass lets the path through and has
not failed to read it, and its file has been there all the time. -/
structure Watched (watch : Watch) (seen : Observed) (key : Key) : Prop where
  named : ∀ path : PathBuf, path.components = key → nameAllowed path = true
  recorded : (watch.recordAt key).isSome = true
  older : seen.put key = false
  read : seen.failed key = false
  present : seen.absent key = false

def Watch.Owes (watch : Watch) (key : Key) : Prop := key ∈ watch.owed.map (·.components)

/-- Every path that is watched is owed by the directory stream, or reported, or seen. -/
structure Sees (watch : Watch) (seen : Observed) (sighted : Sighted) : Prop where
  listed : sighted.opened = true → ∀ key, Watched watch seen key →
    watch.Owes key ∨ (∃ path, sighted.current = some path ∧ path.components = key) ∨
      key ∈ sighted.presentes
  complete : sighted.opened = true → seen.complete = true → ∀ key, Watched watch seen key →
    key ∈ sighted.presentes
  ausentes : ∀ path ∈ sighted.ausentes,
    sighted.opened = true ∧ path.components ∉ sighted.presentes

/-- The files of registered paths are there unless they have been seen to leave. -/
def StillThere (watch : Watch) (seen : Observed) : Prop :=
  ∀ key, (watch.recordAt key).isSome = true → seen.absent key = false →
    (watch.fileAt key).isSome = true

structure Scans (state : Observation) : Prop where
  there : StillThere state.system.watch state.seen
  scanner : ∀ action, state.system.scanner = some action → ∃ sighted,
    action.Safe scanMonitor (fun _ _ => True) sighted ∧
      Sees state.system.watch state.seen sighted

variable {watch later : Watch} {seen noticed : Observed} {key : Key}

theorem Sees.start : Sees watch seen .start where
  listed := nofun
  complete := nofun
  ausentes := nofun

/-- What others do only takes paths from the watched ones. -/
theorem Sees.weaken (sees : Sees watch seen sighted)
    (fewer : ∀ key, Watched later noticed key → Watched watch seen key)
    (owed : ∀ key, Watched later noticed key → watch.Owes key → later.Owes key)
    (complete : noticed.complete = true → seen.complete = true) : Sees later noticed sighted where
  listed opened key watched :=
    (sees.listed opened key (fewer key watched)).imp_left (owed key watched)
  complete opened ended key watched := sees.complete opened (complete ended) key (fewer key watched)
  ausentes := sees.ausentes

theorem nameAllowed_congr {path other : PathBuf} (same : path.components = other.components) :
    nameAllowed path = nameAllowed other := by
  simp only [nameAllowed, PathBuf.fileName, same]

/-! ## The calls of the scanner -/

variable {P : Platform} {config : WatchConfig} {chance : Chance}

theorem Watch.entries_of_fileAt (there : (watch.fileAt key).isSome = true) :
    ∃ path inode, watch.entries.find key = some (path, .file inode) ∧ path.components = key := by
  unfold Watch.fileAt Watch.inodeAt at there
  cases found : watch.entries.find key with
  | none => simp [found] at there
  | some entry =>
      obtain ⟨path, entry⟩ := entry
      cases entry with
      | file inode =>
          exact ⟨path, inode, rfl, Option.some.inj (Table.find_eq_some.mp found).2⟩
      | symlink target => simp [found] at there
      | directory => simp [found] at there
      | special => simp [found] at there

theorem Sees.readDir (there : StillThere watch seen) (sees : Sees watch seen sighted) (allowed : sighted.Allows .readDir) :
    Sees (watch.perform P config chance .readDir).2 (seen.scanner watch chance .readDir)
      (sighted.advance .readDir (watch.perform P config chance .readDir).1) := by
  simp only [Watch.perform]
  cases chance.fault with
  | some e =>
      have closed := allowed.1
      exact
        { listed := fun opened => absurd (closed.symm.trans opened) Bool.false_ne_true
          complete := fun opened => absurd (closed.symm.trans opened) Bool.false_ne_true
          ausentes := sees.ausentes }
  | none =>
      refine ⟨fun _ key watched => Or.inl ?_, fun _ ended => ?_,
        fun _ member => absurd member List.not_mem_nil⟩
      · obtain ⟨path, inode, found, same⟩ :=
          Watch.entries_of_fileAt (there key watched.recorded watched.present)
        have member := (Table.find_eq_some.mp found).1
        exact List.mem_map.mpr ⟨path, List.mem_map.mpr ⟨_, member, rfl⟩, same⟩
      · cases ended

/-- Being watched is about the registry and the observer only. -/
theorem Watched.untimed {owed : List PathBuf} {complete : Bool}
    (watched : Watched { watch with owed } { seen with complete } key) : Watched watch seen key :=
  ⟨watched.named, watched.recorded, watched.older, watched.read, watched.present⟩

theorem Sees.nextEntry (sees : Sees watch seen sighted) (allowed : sighted.Allows .nextEntry) :
    Sees (watch.perform P config chance .nextEntry).2 (seen.scanner watch chance .nextEntry)
      (sighted.advance .nextEntry (watch.perform P config chance .nextEntry).1) := by
  obtain ⟨handled, idle⟩ := allowed
  -- what was reported before has been looked at, so a watched path is owed or seen
  have pending : sighted.opened = true → ∀ key, Watched watch seen key →
      watch.Owes key ∨ key ∈ sighted.presentes := by
    intro opened key watched
    rcases sees.listed opened key watched with owed | ⟨path, current, same⟩ | there
    · exact Or.inl owed
    · have refused := handled path current
      rw [watched.named path same] at refused
      cases refused
    · exact Or.inr there
  cases fault : chance.fault with
  | some e =>
      have answered : watch.perform P config chance .nextEntry = (.error (.other e), watch) := by
        simp [Watch.perform, fault]
      have noted : seen.scanner watch chance .nextEntry = { seen with complete := false } := by
        simp [Observed.scanner, fault]
      rw [answered, noted]
      exact ⟨fun opened key watched => sees.listed opened key watched.untimed,
        fun _ ended => absurd ended Bool.false_ne_true, sees.ausentes⟩
  | none =>
      cases report : chance.report with
      | some path =>
          have answered : watch.perform P config chance .nextEntry = (.ok (some path),
              { watch with
                owed := watch.owed.filter fun other => other.components ≠ path.components }) := by
            simp [Watch.perform, fault, report]
          have noted : seen.scanner watch chance .nextEntry = { seen with complete := false } := by
            simp [Observed.scanner, fault, report]
          rw [answered, noted]
          refine ⟨fun opened key watched => ?_, fun _ ended => absurd ended Bool.false_ne_true, sees.ausentes⟩
          rcases pending opened key watched.untimed with owed | there
          · by_cases own : path.components = key
            · exact Or.inr (Or.inl ⟨path, rfl, own⟩)
            · refine Or.inl ?_
              obtain ⟨other, member, same⟩ := List.mem_map.mp owed
              refine List.mem_map.mpr ⟨other, List.mem_filter.mpr ⟨member, ?_⟩, same⟩
              simpa [same] using Ne.symm own
          · exact Or.inr (Or.inr there)
      | none =>
          cases owed : watch.owed with
          | nil =>
              have answered : watch.perform P config chance .nextEntry = (.ok none, watch) := by
                simp [Watch.perform, fault, report, owed]
              have noted : seen.scanner watch chance .nextEntry = { seen with complete := true } := by
                simp [Observed.scanner, fault, report, owed]
              have all : sighted.opened = true → ∀ key, Watched watch seen key →
                  key ∈ sighted.presentes := by
                intro opened key watched
                refine (pending opened key watched).resolve_left fun member => ?_
                rw [Watch.Owes, owed] at member
                cases member
              rw [answered, noted]
              exact ⟨fun opened key watched => Or.inr (Or.inr (all opened key watched.untimed)),
                fun opened _ key watched => all opened key watched.untimed, sees.ausentes⟩
          | cons path rest =>
              have answered : watch.perform P config chance .nextEntry =
                  (.ok (some path), { watch with owed := rest }) := by
                simp [Watch.perform, fault, report, owed]
              have noted : seen.scanner watch chance .nextEntry =
                  { seen with complete := false } := by
                simp [Observed.scanner, fault, report, owed]
              rw [answered, noted]
              refine ⟨fun opened key watched => ?_, fun _ ended => absurd ended Bool.false_ne_true, sees.ausentes⟩
              rcases pending opened key watched.untimed with member | there
              · rw [Watch.Owes, owed, List.map_cons, List.mem_cons] at member
                rcases member with own | further
                · exact Or.inr (Or.inl ⟨path, rfl, own.symm⟩)
                · exact Or.inl further
              · exact Or.inr (Or.inr there)

theorem Sees.lstat (there : StillThere watch seen) (sees : Sees watch seen sighted)
    (path : PathBuf) (allowed : sighted.Allows (.lstat path)) :
    Sees (watch.perform P config chance (.lstat path)).2 (seen.scanner watch chance (.lstat path))
      (sighted.advance (.lstat path) (watch.perform P config chance (.lstat path)).1) := by
  obtain ⟨current, idle⟩ := allowed
  have before : ∀ key, Watched watch (seen.scanner watch chance (.lstat path)) key →
      Watched watch seen key ∧ (key = path.components → chance.fault = none) := by
    intro key watched
    have read := watched.read
    by_cases own : key = path.components
    · subst own
      simp only [Observed.scanner, Function.update_self, Bool.or_eq_false_iff] at read
      exact ⟨⟨watched.named, watched.recorded, watched.older, read.1, watched.present⟩,
        fun _ => by simpa using read.2⟩
    · simp only [Observed.scanner, Function.update_of_ne own] at read
      exact ⟨⟨watched.named, watched.recorded, watched.older, read, watched.present⟩,
        fun same => absurd same own⟩
  -- what was reported is there when it is watched, so it is seen
  have answer : ∀ key, Watched watch (seen.scanner watch chance (.lstat path)) key →
      path.components = key → ∃ metadata,
        (watch.perform P config chance (.lstat path)).1 = some (.file metadata) := by
    intro key watched own
    subst own
    obtain ⟨known, readable⟩ := before path.components watched
    obtain ⟨other, inode, found, same⟩ :=
      Watch.entries_of_fileAt (there path.components known.recorded known.present)
    refine ⟨watch.metadata inode, ?_⟩
    simp [Watch.perform, readable rfl, Watch.lstat, Watch.entry, found]
  have complete : sighted.opened = true →
      (seen.scanner watch chance (.lstat path)).complete = true → ∀ key,
        Watched watch (seen.scanner watch chance (.lstat path)) key → key ∈ sighted.presentes :=
    fun opened ended key watched => sees.complete opened ended key (before key watched).1
  have listed : sighted.opened = true → ∀ key,
      Watched watch (seen.scanner watch chance (.lstat path)) key →
        watch.Owes key ∨ path.components = key ∨ key ∈ sighted.presentes := by
    intro opened key watched
    rcases sees.listed opened key (before key watched).1 with owed | ⟨other, same, own⟩ | there
    · exact Or.inl owed
    · rw [current] at same
      cases same
      exact Or.inr (Or.inl own)
    · exact Or.inr (Or.inr there)
  have ausentes : ∀ presentes : List Key, ∀ path ∈ sighted.ausentes,
      sighted.opened = true ∧ path.components ∉ presentes := by
    intro presentes path member
    rw [idle] at member
    exact absurd member List.not_mem_nil
  have passed : (∀ metadata,
        (watch.perform P config chance (.lstat path)).1 ≠ some (.file metadata)) →
      Sees watch (seen.scanner watch chance (.lstat path)) { sighted with current := none } := by
    intro other
    refine ⟨fun opened key watched => ?_, complete, ausentes _⟩
    refine (listed opened key watched).imp_right fun further => Or.inr (further.resolve_left ?_)
    intro own
    obtain ⟨metadata, answered⟩ := answer key watched own
    exact other metadata answered
  cases answered : (watch.perform P config chance (.lstat path)).1 with
  | none =>
      exact passed fun metadata same => Option.some_ne_none _ (same.symm.trans answered)
  | some metadata =>
      cases metadata with
      | file metadata =>
          refine ⟨fun opened key watched => ?_, fun opened ended key watched => ?_, ausentes _⟩
          · rcases listed opened key watched with owed | rfl | there
            · exact Or.inl owed
            · exact Or.inr (Or.inr (List.mem_append_right _ List.mem_cons_self))
            · exact Or.inr (Or.inr (List.mem_append_left _ there))
          · exact List.mem_append_left _ (complete opened ended key watched)
      | symlink =>
          refine passed fun metadata same => ?_
          rw [answered] at same
          cases same
      | directory =>
          refine passed fun metadata same => ?_
          rw [answered] at same
          cases same
      | special =>
          refine passed fun metadata same => ?_
          rw [answered] at same
          cases same

theorem Sees.seenAbsent (sees : Sees watch seen sighted) (presentes : List PathBuf)
    (allowed : sighted.Allows (.seenAbsent presentes)) :
    Sees watch seen { sighted with ausentes := watch.absent presentes } := by
  obtain ⟨opened, same⟩ := allowed
  refine ⟨sees.listed, sees.complete, fun path member => ⟨opened, fun there => ?_⟩⟩
  have unseen := (List.mem_filter.mp member).2
  rw [same] at there
  obtain ⟨present, listed, equal⟩ := List.mem_map.mp there
  rw [Bool.not_eq_true', List.any_eq_false] at unseen
  exact unseen present listed (decide_eq_true equal)

theorem Watch.recordAt_of_erase {path : PathBuf}
    (there : (Watch.recordAt { watch with cache := watch.cache.erase path.components } key).isSome
      = true) : (watch.recordAt key).isSome = true := by
  by_cases own : key = path.components
  · simp [Watch.recordAt, Table.find_erase, own] at there
  · simpa [Watch.recordAt, Table.find_erase, own] using there

theorem Sees.call (there : StillThere watch seen) (sees : Sees watch seen sighted)
    (asked : WatchCall) (allowed : sighted.Allows asked) :
    Sees (watch.perform P config chance asked).2 (seen.scanner watch chance asked)
      (sighted.advance asked (watch.perform P config chance asked).1) := by
  cases asked with
  | readDir => exact sees.readDir there allowed
  | nextEntry => exact sees.nextEntry allowed
  | lstat path => exact sees.lstat there path allowed
  | seenAbsent presentes => exact sees.seenAbsent presentes allowed
  | seenRemove path =>
      exact sees.weaken (fun key watched => ⟨watched.named, Watch.recordAt_of_erase watched.recorded,
        watched.older, watched.read, watched.present⟩) (fun _ _ owed => owed) id
  | inflightContains | seenGet => exact sees
  | enqueue paths => exact sees.weaken (fun _ watched => ⟨watched.named, watched.recorded, watched.older,
      watched.read, watched.present⟩) (fun _ _ owed => owed) id
  | removeRow path =>
      have kept : Sees (watch.perform P config chance (.removeRow path)).2 seen sighted := by
        unfold Watch.perform
        cases chance.dbFault with
        | some e => exact sees
        | none => exact sees.weaken (fun _ watched => ⟨watched.named, watched.recorded, watched.older,
            watched.read, watched.present⟩) (fun _ _ owed => owed) id
      exact kept
  | openFile | fstat | read | removeFile | seenInsert | upsert | nowMillis | compress =>
      exact allowed.elim

/-! ## What others do -/

/-- What happens beside the scanner keeps what it relies on. -/
structure Aside (watch : Watch) (seen : Observed) (later : Watch) (noticed : Observed) : Prop where
  fewer : ∀ key, Watched later noticed key → Watched watch seen key
  owed : ∀ key, Watched later noticed key → watch.Owes key → later.Owes key
  complete : noticed.complete = true → seen.complete = true
  there : StillThere watch seen → StillThere later noticed

theorem Aside.same (cache : later.cache = watch.cache) (owed : later.owed = watch.owed)
    (files : ∀ key, (watch.fileAt key).isSome = true → (later.fileAt key).isSome = true)
    (absent : noticed.absent = seen.absent) (put : noticed.put = seen.put)
    (failed : noticed.failed = seen.failed) (complete : noticed.complete = seen.complete) :
    Aside watch seen later noticed where
  fewer key watched :=
    { named := watched.named
      recorded := by simpa only [Watch.recordAt, cache] using watched.recorded
      older := put ▸ watched.older
      read := failed ▸ watched.read
      present := absent ▸ watched.present }
  owed key _ := by
    unfold Watch.Owes
    rw [owed]
    exact id
  complete ended := complete ▸ ended
  there before key recorded here := files key (before key
    (by simpa only [Watch.recordAt, cache] using recorded) (absent ▸ here))

theorem Aside.gone (path : PathBuf) (cache : later.cache = watch.cache)
    (owed : ∀ key, key ≠ path.components → watch.Owes key → later.Owes key)
    (files : ∀ key, key ≠ path.components →
      (watch.fileAt key).isSome = true → (later.fileAt key).isSome = true) :
    Aside watch seen later (seen.gone path.components) := by
  have apart : ∀ key, (seen.gone path.components).absent key = false →
      key ≠ path.components ∧ seen.absent key = false := by
    intro key present
    by_cases own : key = path.components
    · simp [Observed.gone, own] at present
    · exact ⟨own, by simpa [Observed.gone, own] using present⟩
  have recordAt : ∀ key, later.recordAt key = watch.recordAt key := by
    intro key
    rw [Watch.recordAt, cache]
    rfl
  refine ⟨fun key watched => ?_, fun key watched => owed key (apart key watched.present).1, id,
    fun before key recorded present => ?_⟩
  · exact ⟨watched.named, recordAt key ▸ watched.recorded, watched.older, watched.read,
      (apart key watched.present).2⟩
  · obtain ⟨other, here⟩ := apart key present
    exact files key other (before key (recordAt key ▸ recorded) here)

theorem Watch.Owes.filter {path : PathBuf} {owed : List PathBuf} (apart : key ≠ path.components)
    (member : key ∈ owed.map (·.components)) :
    key ∈ (owed.filter fun other => other.components ≠ path.components).map (·.components) := by
  obtain ⟨other, listed, same⟩ := List.mem_map.mp member
  refine List.mem_map.mpr ⟨other, List.mem_filter.mpr ⟨listed, ?_⟩, same⟩
  simpa [same] using apart

theorem Aside.change (change : Change) :
    Aside watch seen (watch.change change) (seen.change watch change) := by
  cases change with
  | write inode content modifiedNs =>
      refine Aside.same rfl rfl (fun key there => ?_) rfl rfl rfl rfl
      simpa [Watch.fileAt, Watch.inodeAt, Watch.change] using there
  | place path entry =>
      refine Aside.gone path rfl (fun key apart => Watch.Owes.filter apart) fun key apart there => ?_
      have kept : (watch.place path entry).entries.find key = watch.entries.find key :=
        (Table.find_upsert watch.entries rfl _ _ _).trans (if_neg apart)
      simpa only [Watch.change, Watch.fileAt, Watch.inodeAt, kept, Option.isSome_map] using there
  | remove path =>
      refine Aside.gone path rfl (fun key apart => Watch.Owes.filter apart) fun key apart there => ?_
      simpa only [Watch.change, Watch.fileAt, Watch.inodeAt, find_erase_other apart,
        Option.isSome_map] using there

def WatchCall.lists : WatchCall → Bool
  | .readDir | .nextEntry => true
  | _ => false

theorem perform_owed (asked : WatchCall) (stays : asked.removes = false)
    (aside : asked.lists = false) :
    (watch.perform P config chance asked).2.owed = watch.owed := by
  unfold Watch.perform
  cases asked with
  | removeFile path => cases stays
  | readDir | nextEntry => cases aside
  | _ =>
      dsimp only
      repeat' split
      all_goals rfl

theorem Aside.removeFile (path : PathBuf) :
    Aside watch seen (watch.perform P config chance (.removeFile path)).2
      (seen.task watch (watch.perform P config chance (.removeFile path)).2 path.components
        (.removeFile path)) := by
  rcases @perform_removeFile P config chance watch path with ⟨-, after⟩ | ⟨-, after⟩
  · rw [after, show seen.task watch (watch.remove path) path.components (.removeFile path) =
      seen.gone path.components from if_pos (by rw [find_remove]; rfl)]
    exact Aside.change (.remove path)
  · rw [after]
    simp only [Observed.task]
    split
    · exact Aside.gone path rfl (fun _ _ => id) fun _ _ => id
    · exact Aside.same rfl rfl (fun _ => id) rfl rfl rfl rfl

theorem Aside.seenInsert (path : PathBuf) (record : SeenRecord) :
    Aside watch seen (watch.insertSeen path record)
      (seen.task watch (watch.insertSeen path record) path.components
        (.seenInsert path record)) := by
  have others : ∀ key, key ≠ path.components →
      (watch.insertSeen path record).recordAt key = watch.recordAt key := by
    intro key apart
    have found : (watch.insertSeen path record).cache.find key = watch.cache.find key :=
      (Table.find_upsert watch.cache rfl _ _ key).trans (if_neg apart)
    rw [Watch.recordAt, found]
    rfl
  refine ⟨fun key watched => ?_, fun _ _ => id, id, fun before key recorded present => ?_⟩
  · by_cases own : key = path.components
    · have older := watched.older
      simp [Observed.task, own] at older
    · exact ⟨watched.named, others key own ▸ watched.recorded, by simpa [Observed.task, own] using watched.older,
        watched.read, by simpa [Observed.task, own] using watched.present⟩
  · by_cases own : key = path.components
    · subst own
      simp only [Observed.task, Function.update_self] at present
      rw [Option.isNone_eq_false_iff] at present
      simpa [Watch.fileAt] using present
    · simp only [Observed.task, Function.update_of_ne own] at present
      exact before key (others key own ▸ recorded) present

theorem Aside.task {path : PathBuf} {name : String} {known : Known} (asked : WatchCall)
    (allowed : known.Allows P path name asked) :
    Aside watch seen (watch.perform P config chance asked).2
      (seen.task watch (watch.perform P config chance asked).2 path.components asked) := by
  cases asked with
  | removeFile other =>
      obtain ⟨rfl, -⟩ := allowed
      exact Aside.removeFile other
  | seenInsert other record =>
      obtain ⟨rfl, -⟩ := allowed
      exact Aside.seenInsert other record
  | seenRemove other =>
      refine ⟨fun key watched => ⟨watched.named, Watch.recordAt_of_erase watched.recorded,
        watched.older, watched.read, watched.present⟩, fun _ _ => id, id, fun before key recorded =>
          before key (Watch.recordAt_of_erase recorded)⟩
  | read file position =>
      have same := fun noticed => @Aside.same watch (watch.perform P config chance (.read file position)).2
        seen noticed (perform_cache P config chance watch _ rfl rfl)
        (perform_owed _ rfl rfl) (fun key => by rw [fileAt_perform _ rfl]; exact id)
      cases position <;> exact same _ rfl rfl rfl rfl
  | readDir | nextEntry | seenAbsent | inflightContains | enqueue => exact allowed.elim
  | lstat | openFile | fstat | seenGet | upsert | removeRow | nowMillis | compress =>
      exact Aside.same (perform_cache P config chance watch _ rfl rfl)
        (perform_owed _ rfl rfl) (fun key => by rw [fileAt_perform _ rfl]; exact id)
        rfl rfl rfl rfl

theorem StillThere.call (there : StillThere watch seen) (asked : WatchCall) (scans : asked.scans) :
    StillThere (watch.perform P config chance asked).2 (seen.scanner watch chance asked) := by
  have noted : (seen.scanner watch chance asked).absent = seen.absent := by cases asked <;> rfl
  intro key recorded present
  rw [noted] at present
  cases asked with
  | removeFile | seenInsert | compress => exact scans.elim
  | seenRemove path => exact there key (Watch.recordAt_of_erase recorded) present
  | _ =>
      rw [recordAt_perform _ rfl rfl] at recorded
      rw [fileAt_perform _ rfl]
      exact there key recorded present

/-! ## Runs -/

variable {state next : Observation}

theorem Scans.aside {system : System} {noticed : Observed} (scans : Scans state)
    (scanner : system.scanner = state.system.scanner)
    (aside : Aside state.system.watch state.seen system.watch noticed) :
    Scans { system, seen := noticed } where
  there := aside.there scans.there
  scanner action there := by
    obtain ⟨sighted, safe, sees⟩ := scans.scanner action (scanner ▸ there)
    exact ⟨sighted, safe, sees.weaken aside.fewer aside.owed aside.complete⟩

theorem Scans.step {careful : Prop} {move : Move} (scans : Scans state) (inv : Inv P careful state)
    (taken : state.step P config move = some next) : Scans next := by
  obtain ⟨system, moved, rfl⟩ := Option.map_eq_some_iff.mp taken
  have still : ∀ watch : Watch, watch.cache = state.system.watch.cache →
      watch.owed = state.system.watch.owed → watch.entries = state.system.watch.entries →
      watch.inodes = state.system.watch.inodes →
      Aside state.system.watch state.seen watch state.seen := by
    intro watch cache owed entries inodes
    refine Aside.same cache owed (fun key => ?_) rfl rfl rfl rfl
    rw [Watch.fileAt, Watch.fileAt, Watch.inodeAt, Watch.inodeAt, entries, inodes]
    exact id
  cases move with
  | change change =>
      cases moved
      exact scans.aside rfl (Aside.change change)
  | beginPass entries =>
      simp only [System.step] at moved
      split at moved
      · cases moved
      · cases moved
        refine ⟨scans.there, fun action same => ⟨.start, ?_, Sees.start⟩⟩
        exact Option.some.inj same ▸ scanPass_safe entries
  | event paths =>
      simp only [System.step] at moved
      split at moved
      · cases moved
      · cases moved
        exact scans.aside rfl (still _ rfl rfl rfl rfl)
  | drain =>
      simp only [System.step] at moved
      split at moved
      · cases moved
      · cases moved
        exact scans.aside rfl (still _ rfl rfl rfl rfl)
  | dispatch polls reads =>
      simp only [System.step] at moved
      split at moved
      · cases moved
      · split at moved
        · cases moved
          exact scans.aside rfl (still _ rfl rfl rfl rfl)
        · cases moved
          exact scans.aside rfl (still _ rfl rfl rfl rfl)
  | scanner chance =>
      simp only [System.step] at moved
      split at moved
      · cases moved
      · rename_i value present
        cases moved
        have noted : state.seen.next state.system (.scanner chance)
            { state.system with scanner := none } = state.seen := by
          simp only [Observed.next, System.asks, present, Option.bind_some, next?]
        rw [noted]
        exact ⟨scans.there, fun action left => (Option.some_ne_none action left.symm).elim⟩
      · rename_i asked rest present
        cases moved
        have asks : state.system.asks (.scanner chance) = some asked := by
          simp only [System.asks, present, Option.bind_some, next?]
        rw [show state.seen.next state.system (.scanner chance) _ =
          state.seen.scanner state.system.watch chance asked by simp only [Observed.next, asks]]
        obtain ⟨sighted, ⟨allowed, goes_on⟩, sees⟩ := scans.scanner _ present
        exact ⟨scans.there.call asked (inv.scanner _ present).1, fun action same =>
          ⟨_, Option.some.inj same ▸ goes_on _, sees.call scans.there asked allowed⟩⟩
  | notifier chance =>
      simp only [System.step] at moved
      split at moved
      · cases moved
      · cases moved
        exact scans.aside rfl (still _ rfl rfl rfl rfl)
      · rename_i asked rest present
        cases moved
        refine scans.aside rfl (still _ ?_ ?_ ?_ (perform_inodes P config chance _ asked))
        all_goals
          have notifies := (inv.notifier _ present).1
          cases asked with
          | lstat | enqueue => rfl
          | _ => exact notifies.elim
  | task key chance =>
      simp only [System.step] at moved
      split at moved
      · cases moved
      · rename_i path result present
        cases moved
        have noted : ∀ later, state.seen.next state.system (.task key chance) later = state.seen := by
          intro later
          simp only [Observed.next, System.asks, present, Option.bind_some, next?]
        rw [noted]
        exact scans.aside rfl (still _ rfl rfl rfl rfl)
      · rename_i path asked rest present
        cases moved
        have asks : state.system.asks (.task key chance) = some asked := by
          simp only [System.asks, present, Option.bind_some, next?]
        have noted : ∀ later, state.seen.next state.system (.task key chance) later =
            state.seen.task state.system.watch later.watch key asked := by
          intro later
          simp only [Observed.next, asks]
        rw [noted]
        obtain ⟨known, ingests, -⟩ := inv.paths key
        rw [present] at ingests
        obtain ⟨rfl, allowed, -⟩ := ingests
        exact scans.aside rfl (Aside.task asked allowed)

theorem Scans.start (watch : Watch) : Scans (.start watch) where
  there key _ present := by
    simp only [Observation.start, Option.isNone_eq_false_iff] at present
    simpa [Observation.start, Watch.fileAt, Watch.inodeAt] using present
  scanner := nofun

/-- The scanner forgets a path only when the pass lets the path through, has read the
directory to its end and has not failed to read the path, and the record is older than
the pass. -/
def Careful (state : Observation) (move : Move) : Prop :=
  (match move, state.system.asks move with
    | .scanner _, some (.seenRemove path) =>
      nameAllowed path && state.seen.complete && !state.seen.failed path.components &&
        !state.seen.put path.components
    | _, _ => true) = true

instance (state : Observation) (move : Move) : Decidable (Careful state move) :=
  inferInstanceAs (Decidable (_ = true))

/-- A record that a move forgets is that of a file that has been out of the directory
since the record was put. -/
def ForgetsAbsent (state : Observation) (move : Move) : Prop :=
  (match state.system.asks move with
    | some (.seenRemove path) =>
      (state.system.watch.recordAt path.components).isNone || state.seen.absent path.components
    | _ => true) = true

instance (state : Observation) (move : Move) : Decidable (ForgetsAbsent state move) :=
  inferInstanceAs (Decidable (_ = true))

/-- A file that has been archived and left alone since is not archived again. -/
def ArchivesOnce (state : Observation) (move : Move) : Prop :=
  (match move, state.system.asks move with
    | .task key _, some (.compress _ _ _) => !state.seen.settled key
    | _, _ => true) = true

instance (state : Observation) (move : Move) : Decidable (ArchivesOnce state move) :=
  inferInstanceAs (Decidable (_ = true))

/-- What a careful pass forgets has been seen to leave. -/
theorem Scans.forgets {move : Move} (scans : Scans state) (careful : Careful state move) :
    Forgets True state move := by
  rintro chance path rfl asks -
  have looked : nameAllowed path = true ∧ state.seen.complete = true ∧
      state.seen.failed path.components = false ∧ state.seen.put path.components = false := by
    simpa [Careful, asks, and_assoc] using careful
  obtain ⟨named, complete, read, older⟩ := looked
  obtain ⟨action, present, asked⟩ := Option.bind_eq_some_iff.mp asks
  obtain ⟨rest, rfl⟩ := next?_eq_some asked
  obtain ⟨sighted, ⟨among, -⟩, sees⟩ := scans.scanner _ present
  obtain ⟨opened, unseen⟩ := sees.ausentes path among
  by_cases recorded : state.system.watch.recordAt path.components = none
  · exact Or.inl recorded
  · refine Or.inr (Bool.of_not_eq_false fun here => unseen ?_)
    exact sees.complete opened complete path.components
      { named := fun other same => nameAllowed_congr same ▸ named
        recorded := Option.isSome_iff_ne_none.mpr recorded
        older, read, present := here }

theorem Inv.forgetsAbsent {move : Move} (inv : Inv P True state)
    (forgets : Forgets True state move) : ForgetsAbsent state move := by
  unfold ForgetsAbsent
  split
  · rename_i path asks
    rw [Bool.or_eq_true, Option.isNone_iff_eq_none]
    cases move with
    | scanner chance => exact forgets chance path rfl asks trivial
    | notifier chance =>
        obtain ⟨action, present, asks⟩ := Option.bind_eq_some_iff.mp asks
        obtain ⟨rest, rfl⟩ := next?_eq_some asks
        exact (inv.notifier _ present).1.elim
    | task key chance =>
        obtain ⟨⟨own, action⟩, present, asks⟩ := Option.bind_eq_some_iff.mp asks
        obtain ⟨rest, rfl⟩ := next?_eq_some asks
        obtain ⟨known, ingests, holds⟩ := inv.paths key
        rw [present] at ingests
        obtain ⟨rfl, ⟨rfl, removed⟩, -⟩ := ingests
        exact Or.inr (holds.tracks.removed removed).1
    | change | beginPass | event | drain | dispatch => cases asks
  · rfl

theorem Inv.archivesOnce {move : Move} (inv : Inv P True state) : ArchivesOnce state move := by
  unfold ArchivesOnce
  split
  · rename_i key chance ctx data req asks
    rw [Bool.not_eq_true']
    refine Bool.of_not_eq_true fun settled => ?_
    obtain ⟨⟨own, action⟩, present, asks⟩ := Option.bind_eq_some_iff.mp asks
    obtain ⟨rest, rfl⟩ := next?_eq_some asks
    obtain ⟨known, ingests, holds⟩ := inv.paths key
    rw [present] at ingests
    obtain ⟨-, ⟨owes, -⟩, -⟩ := ingests
    exact Settles.not_owes holds.tracks (holds.settles trivial settled) data owes
  · rfl

/-- When the scanner is careful, the registry forgets only files that were gone, and a
file that is left alone after it was archived is not archived again. -/
theorem unchanged_archived_once (P : Platform) (config : WatchConfig) (watch : Watch)
    (moves : List Move)
    (careful : Run.Meets (Observation.step P config) Careful (.start watch) moves) :
    Run.Meets (Observation.step P config)
      (fun state move => ForgetsAbsent state move ∧ ArchivesOnce state move)
      (.start watch) moves :=
  Run.meets_of_invariant Careful _ (fun state => Inv P True state ∧ Scans state)
    (fun _ _ _ held careful taken =>
      ⟨held.1.step taken (held.2.forgets careful), held.2.step held.1 taken⟩)
    (fun _ _ held careful =>
      ⟨held.1.forgetsAbsent (held.2.forgets careful), held.1.archivesOnce⟩)
    _ moves ⟨Inv.start True watch, Scans.start watch⟩ careful

/-! ## A listing cut short -/

def scans (count : Nat) : List Move := List.replicate count (.scanner .calm)

def stored : List Move := dispatched ++ calls 15

/-- A pass over the file, and another once the file has been removed. -/
def passes : List Move :=
  [.beginPass 3] ++ scans 8 ++ [.change (.remove (sampleDir.join "a")), .beginPass 3] ++ scans 6

theorem unchanged_archived_once_calmly :
    Run.Meets (Observation.step framingPlatform sampleWatchConfig)
        (fun state move => ForgetsAbsent state move ∧ ArchivesOnce state move)
        (.start freshWatch) (stored ++ passes) ∧
      (Run.exec (Observation.step framingPlatform sampleWatchConfig) (.start freshWatch)
          (stored ++ passes)).map (fun state =>
            (state.system.watch.archived, state.system.watch.cache.rows.isEmpty)) =
        some ([("a", [1])], true) :=
  ⟨unchanged_archived_once framingPlatform sampleWatchConfig freshWatch _ (by decide +kernel),
    by decide +kernel⟩

/-- A pass whose first entry cannot be read, and the next pass. -/
def cutShort : List Move :=
  [.beginPass 3, .scanner .calm,
    .scanner { Chance.calm with fault := some "Input/output error (os error 5)" }] ++ scans 4 ++
  [.beginPass 3] ++ scans 8 ++ [.drain, .dispatch 3 2] ++ calls 11

/-- The pass forgets the file, which has never left, and the next archives it again. -/
theorem cut_listing_archives_again :
    ¬ Run.Meets (Observation.step framingPlatform sampleWatchConfig)
        (fun state move => ForgetsAbsent state move ∧ ArchivesOnce state move)
        (.start freshWatch) (stored ++ cutShort) ∧
      (Run.exec (Observation.step framingPlatform sampleWatchConfig) (.start freshWatch)
          (stored ++ cutShort)).map (fun state =>
            (state.system.watch.contentAt (sampleDir.join "a").components,
              state.system.watch.archived)) = some (some [1], [("a", [1]), ("a", [1])]) :=
  ⟨by decide +kernel, by decide +kernel⟩

end Syntra.Watcher

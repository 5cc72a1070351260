import Syntra.Service.Replay
import Syntra.Watcher.State

/-!
# Restarts

A restart loads the registry from its rows.  `put` and `forget` change the map
and the rows alike, so what is loaded is what was there, and a run does not show
where the process was restarted.
-/

set_option autoImplicit false

namespace Syntra.Watcher

open Program

variable {dir : PathBuf}

/-! ## The registry and its rows -/

def loadedRow (dir : PathBuf) (row : WatchRecord) : Option (PathBuf × SeenRecord) :=
  if (PathBuf.mk row.path).parent = some dir.components then some (⟨row.path⟩, row.record) else none

/-- A file of the directory has one path in the rows, that of the directory with its name. -/
def Spelled (dir : PathBuf) (rows : List WatchRecord) : Prop :=
  ∀ row ∈ rows, (PathBuf.mk row.path).parent = some dir.components →
    ∃ name, EntryName name ∧ PathBuf.mk row.path = dir.join name

theorem loadedRow_eq_some {row : WatchRecord} {entry : PathBuf × SeenRecord} :
    loadedRow dir row = some entry ↔
      (PathBuf.mk row.path).parent = some dir.components ∧ (⟨row.path⟩, row.record) = entry := by
  unfold loadedRow
  split <;> simp [*]

theorem Spelled.same_path {rows : List WatchRecord} (spelled : Spelled dir rows) {row : WatchRecord}
    (member : row ∈ rows) (inside : (PathBuf.mk row.path).parent = some dir.components)
    {name : String} (named : EntryName name)
    (same : (PathBuf.mk row.path).components = (dir.join name).components) :
    row.path = (dir.join name).text := by
  obtain ⟨other, otherNamed, path⟩ := spelled row member inside
  rw [path] at same
  rw [(PathBuf.components_join_inj dir otherNamed named).mp same] at path
  exact congrArg PathBuf.text path

theorem foldl_load (rows : List WatchRecord) (spelled : Spelled dir rows)
    (unique : (rows.map (·.path)).Nodup) (cache : Cache)
    (apart : ∀ row ∈ rows, (PathBuf.mk row.path).parent = some dir.components →
      cache.find (PathBuf.mk row.path).components = none) :
    (rows.foldl (fun (cache : Cache) row =>
      let path : PathBuf := ⟨row.path⟩
      if path.parent = some dir.components then
        cache.upsert (path, row.record) (fun old => (old.1, row.record)) fun _ => rfl
      else cache) cache).rows = cache.rows ++ rows.filterMap (loadedRow dir) := by
  induction rows generalizing cache with
  | nil => simp
  | cons row rows ih =>
      rw [List.map_cons, List.nodup_cons] at unique
      have later : Spelled dir rows := fun other member => spelled other (List.mem_cons_of_mem _ member)
      rw [List.foldl_cons]
      by_cases inside : (PathBuf.mk row.path).parent = some dir.components
      · have absent := apart row List.mem_cons_self inside
        have loaded : loadedRow dir row = some (⟨row.path⟩, row.record) :=
          loadedRow_eq_some.mpr ⟨inside, rfl⟩
        rw [if_pos inside, ih later unique.2, Table.rows_upsert cache rfl, absent,
          List.filterMap_cons_some loaded]
        · simp
        · intro other member otherInside
          rw [Table.find_upsert cache rfl, if_neg, apart other (List.mem_cons_of_mem _ member) otherInside]
          intro same
          obtain ⟨name, named, path⟩ := spelled row List.mem_cons_self inside
          have text := later.same_path member otherInside named (path ▸ same)
          rw [← path] at text
          exact unique.1 (List.mem_map.mpr ⟨other, member, text⟩)
      · have passed : loadedRow dir row = none := by simp [loadedRow, inside]
        rw [if_neg inside, List.filterMap_cons_none passed]
        exact ih later unique.2 cache fun other member => apart other (List.mem_cons_of_mem _ member)

theorem load_rows (rows : WatchSeen) (spelled : Spelled dir rows.rows) :
    (load dir rows.rows).rows = rows.rows.filterMap (loadedRow dir) := by
  have unique : (rows.rows.map (·.path)).Nodup := by
    have all := rows.unique
    rwa [List.filterMap_eq_map'] at all
  rw [load, foldl_load rows.rows spelled unique Table.empty fun _ _ _ => rfl]
  rfl

/-- What is in memory is what a restart would load. -/
structure Persisted (dir : PathBuf) (watch : Watch) : Prop where
  loaded : watch.cache = load dir watch.rows.rows
  spelled : Spelled dir watch.rows.rows
  sizes : ∀ inode, (watch.inodes inode).content.length < 2 ^ 63

theorem record_of (path : PathBuf) (record : SeenRecord) (now : Int)
    (small : record.stamp.size < 2 ^ 63) : (WatchRecord.of path record now).record = record := by
  have size : (WatchRecord.of path record now).size = record.stamp.size := if_pos small
  rw [WatchRecord.record, size, Int.max_eq_left (Int.natCast_nonneg _), Int.toNat_natCast]
  rfl

namespace Persisted

variable {watch : Watch} {name : String}

theorem entries (persisted : Persisted dir watch) :
    watch.cache.rows = watch.rows.rows.filterMap (loadedRow dir) := by
  rw [persisted.loaded, load_rows watch.rows persisted.spelled]

theorem loadedRow_join (named : EntryName name) {row : WatchRecord}
    (path : row.path = (dir.join name).text) :
    loadedRow dir row = some (dir.join name, row.record) := by
  rw [loadedRow_eq_some, path]
  exact ⟨PathBuf.parent_join dir named, rfl⟩

theorem find_isNone (persisted : Persisted dir watch) (named : EntryName name) :
    (watch.cache.find (dir.join name).components).isNone =
      (watch.rows.find (dir.join name).text).isNone := by
  rw [Bool.eq_iff_iff, Option.isNone_iff_eq_none, Option.isNone_iff_eq_none, Table.find_eq_none,
    Table.find_eq_none, persisted.entries]
  constructor
  · intro absent row member same
    rw [Option.some.injEq] at same
    exact absent _ (List.mem_filterMap.mpr ⟨row, member, loadedRow_join named same⟩) rfl
  · intro absent entry member same
    obtain ⟨row, present, loaded⟩ := List.mem_filterMap.mp member
    obtain ⟨inside, rfl⟩ := loadedRow_eq_some.mp loaded
    rw [Option.some.injEq] at same
    exact absent row present (congrArg some (persisted.spelled.same_path present inside named same))

theorem path_eq_iff (persisted : Persisted dir watch) (named : EntryName name) {row : WatchRecord}
    (member : row ∈ watch.rows.rows) {entry : PathBuf × SeenRecord}
    (loaded : loadedRow dir row = some entry) :
    row.path = (dir.join name).text ↔ entry.1.components = (dir.join name).components := by
  obtain ⟨inside, rfl⟩ := loadedRow_eq_some.mp loaded
  constructor
  · intro same
    rw [same]
  · exact persisted.spelled.same_path member inside named

theorem rows_put (watch : Watch) (path : PathBuf) (record : SeenRecord) (now : Int) :
    (watch.upsertRow (.of path record now)).rows.rows =
      if (watch.rows.find path.text).isNone then watch.rows.rows ++ [.of path record now]
      else watch.rows.rows.map fun other =>
        if other.path = path.text then { WatchRecord.of path record now with path := other.path }
        else other := by
  refine (Table.rows_upsert watch.rows (k := path.text) rfl _ _).trans ?_
  simp only [Option.some.injEq]

theorem rows_insertSeen (watch : Watch) (path : PathBuf) (record : SeenRecord) :
    (watch.insertSeen path record).cache.rows =
      if (watch.cache.find path.components).isNone then watch.cache.rows ++ [(path, record)]
      else watch.cache.rows.map fun other =>
        if some other.1.components = some path.components then (other.1, record) else other :=
  Table.rows_upsert watch.cache rfl _ _

theorem spelled_put (persisted : Persisted dir watch) (named : EntryName name)
    (record : SeenRecord) (now : Int) :
    Spelled dir (watch.upsertRow (.of (dir.join name) record now)).rows.rows := by
  intro row member inside
  rw [rows_put] at member
  split at member
  · rcases List.mem_append.mp member with before | last
    · exact persisted.spelled row before inside
    · rw [List.mem_singleton.mp last]
      exact ⟨name, named, rfl⟩
  · obtain ⟨source, present, rfl⟩ := List.mem_map.mp member
    by_cases own : source.path = (dir.join name).text
    · rw [if_pos own]
      exact ⟨name, named, congrArg PathBuf.mk own⟩
    · rw [if_neg own] at inside ⊢
      exact persisted.spelled source present inside

theorem put (persisted : Persisted dir watch) (named : EntryName name) (record : SeenRecord)
    (now : Int) (small : record.stamp.size < 2 ^ 63) :
    Persisted dir ((watch.insertSeen (dir.join name) record).upsertRow
      (.of (dir.join name) record now)) := by
  have spelled := persisted.spelled_put named record now
  refine ⟨Table.ext_rows ?_, spelled, persisted.sizes⟩
  show (watch.insertSeen (dir.join name) record).cache.rows =
    (load dir (watch.upsertRow (.of (dir.join name) record now)).rows.rows).rows
  rw [load_rows _ spelled, rows_insertSeen, persisted.find_isNone named, persisted.entries]
  by_cases free : (watch.rows.find (dir.join name).text).isNone = true
  · have after : (watch.upsertRow (.of (dir.join name) record now)).rows.rows = _ :=
      (rows_put _ _ _ _).trans (if_pos free)
    rw [if_pos free, after, List.filterMap_append,
      List.filterMap_cons_some (loadedRow_join named rfl), record_of _ _ _ small]
    rfl
  · have after : (watch.upsertRow (.of (dir.join name) record now)).rows.rows = _ :=
      (rows_put _ _ _ _).trans (if_neg free)
    rw [if_neg free, after, List.map_filterMap, List.filterMap_map]
    refine List.filterMap_congr fun row member => ?_
    simp only [Function.comp_apply, Option.some.injEq]
    by_cases own : row.path = (dir.join name).text
    · rw [if_pos own, loadedRow_join named own, Option.map_some, if_pos rfl,
        loadedRow_join named (by exact own)]
      exact congrArg (fun record => some (dir.join name, record))
        (record_of (dir.join name) record now small).symm
    · rw [if_neg own]
      cases loaded : loadedRow dir row with
      | none => rfl
      | some entry =>
          have other := mt (persisted.path_eq_iff named member loaded).mpr own
          rw [Option.map_some, if_neg other]

theorem forget (persisted : Persisted dir watch) (named : EntryName name) :
    Persisted dir { watch with
      cache := watch.cache.erase (dir.join name).components
      rows := watch.rows.erase (dir.join name).text } := by
  have spelled : Spelled dir (watch.rows.erase (dir.join name).text).rows := by
    intro row member
    exact persisted.spelled row (List.mem_of_mem_filter member)
  refine ⟨Table.ext_rows ?_, spelled, persisted.sizes⟩
  rw [load_rows _ spelled]
  show watch.cache.rows.filter _ = (watch.rows.rows.filter _).filterMap _
  rw [persisted.entries, List.filter_filterMap, List.filterMap_filter]
  refine List.filterMap_congr fun row member => ?_
  cases loaded : loadedRow dir row with
  | none => simp
  | some entry =>
      have same := persisted.path_eq_iff named member loaded
      by_cases own : row.path = (dir.join name).text
      · simp [own, same.mp own]
      · simp [own, mt same.mpr own]

end Persisted

/-! ## Operations one after the other -/

abbrev Session := Watch × (Nat → Chance)

variable (P : Platform) (config : WatchConfig)

def Session.perform (session : Session) (call : WatchCall) : call.Answer × Session :=
  let (answer, watch) := session.1.perform P config (session.2 0) call
  (answer, (watch, fun n => session.2 (n + 1)))

inductive Op where
  | change (change : Change)
  | scan (entries : Nat) (chances : Nat → Chance)
  | ingest (path : PathBuf) (polls reads : Nat) (chances : Nat → Chance)
  | restart

def Op.isRestart : Op → Bool
  | restart => true
  | _ => false

def Watch.apply (dir : PathBuf) (watch : Watch) : Op → Watch
  | .change change => watch.change change
  | .scan entries chances =>
    ((scanPass entries).run (Session.perform P config) (watch, chances)).2.1
  | .ingest path polls reads chances =>
    ((ingest P config path polls reads).run (Session.perform P config) (watch, chances)).2.1
  | .restart => { watch with cache := load dir watch.rows.rows }

def Written (chances : Nat → Chance) : Prop := ∀ n, (chances n).dbFault = none

/-- Files stay below 2^63 bytes, ingested paths are directly in the directory and
writes to the database succeed. -/
def Op.Allowed (dir : PathBuf) : Op → Prop
  | change (.write _ content _) => content.length < 2 ^ 63
  | change _ => True
  | scan _ chances => Written chances
  | ingest path _ _ chances => Written chances ∧ ∃ name, EntryName name ∧ path = dir.join name
  | restart => True

/-! ## What the programs keep -/

/-- The state is persisted and the database will take the writes to come. -/
def Sound (dir : PathBuf) (session : Session) : Prop :=
  Persisted dir session.1 ∧ Written session.2

def WatchCall.leavesSeen : WatchCall → Prop
  | .seenInsert _ _ | .seenRemove _ | .upsert _ | .removeRow _ => False
  | _ => True

theorem perform_leaves (chance : Chance) (watch : Watch) (call : WatchCall)
    (leaves : call.leavesSeen) :
    (watch.perform P config chance call).2.cache = watch.cache ∧
      (watch.perform P config chance call).2.rows = watch.rows ∧
      (watch.perform P config chance call).2.inodes = watch.inodes := by
  unfold Watch.perform
  cases call with
  | seenInsert | seenRemove | upsert | removeRow => exact leaves.elim
  | _ =>
      dsimp only
      repeat' split
      all_goals exact ⟨rfl, rfl, rfl⟩

variable {P config}

theorem Sound.skip {session : Session} (sound : Sound dir session) (call : WatchCall)
    (leaves : call.leavesSeen) : Sound dir (session.perform P config call).2 := by
  obtain ⟨cache, rows, inodes⟩ := perform_leaves P config (session.2 0) session.1 call leaves
  refine ⟨⟨?_, ?_, ?_⟩, fun n => sound.2 (n + 1)⟩
  · exact cache.trans (sound.1.loaded.trans (congrArg (fun rows => load dir rows.rows) rows.symm))
  · exact (congrArg (fun rows => Spelled dir rows.rows) rows).mpr sound.1.spelled
  · exact (congrArg (fun inodes => ∀ n, (inodes n).content.length < 2 ^ 63) inodes).mpr sound.1.sizes

variable (dir P config) in
/-- The action keeps a sound session and comes to a value of some kind. -/
abbrev KeepsSound {α : Type} (post : α → Prop) (action : Action α) : Prop :=
  action.Keeps (Session.perform P config) (Sound dir) post

theorem KeepsSound.of_uses {α : Type} {action : Action α}
    (uses : action.Uses WatchCall.leavesSeen) : KeepsSound dir P config (fun _ => True) action :=
  fun session sound =>
    ⟨uses.run_keeps _ (Sound dir) (fun _ call sound leaves => sound.skip call leaves) session sound,
      trivial⟩

theorem keeps_put {name : String} (named : EntryName name) (record : SeenRecord)
    (small : record.stamp.size < 2 ^ 63) :
    KeepsSound dir P config (fun _ => True) (put (dir.join name) record) := by
  intro session sound
  refine ⟨?_, trivial⟩
  have written : (session.2 2).dbFault = none := sound.2 2
  have after : ((put (dir.join name) record).run (Session.perform P config) session).2 =
      ((session.1.insertSeen (dir.join name) record).upsertRow
        (.of (dir.join name) record (session.2 1).clock), fun n => session.2 (n + 3)) := by
    simp only [put, run_call, run_done, Session.perform, Watch.perform, written]
  rw [after]
  exact ⟨sound.1.put named record _ small, fun n => sound.2 (n + 3)⟩

theorem keeps_forget {name : String} (named : EntryName name) :
    KeepsSound dir P config (fun _ => True) (forget (dir.join name)) := by
  intro session sound
  refine ⟨?_, trivial⟩
  have written : (session.2 1).dbFault = none := sound.2 1
  have after : ((forget (dir.join name)).run (Session.perform P config) session).2 =
      ({ session.1 with
        cache := session.1.cache.erase (dir.join name).components
        rows := session.1.rows.erase (dir.join name).text }, fun n => session.2 (n + 2)) := by
    simp only [forget, run_call, run_done, Session.perform, Watch.perform, written]
  rw [after]
  exact ⟨sound.1.forget named, fun n => sound.2 (n + 2)⟩

/-! ## Looking at files -/

theorem uses_readOpen (file : Handle) (reads : Nat) (data : Bytes) :
    (readOpen file reads data).Uses WatchCall.leavesSeen := by
  induction reads generalizing data with
  | zero => trivial
  | succ reads ih =>
      refine ⟨trivial, fun reply => ?_⟩
      rcases reply with _ | (_ | _)
      · trivial
      · trivial
      · exact ih _

theorem keeps_openVerified (path : PathBuf) (before : FileMeta) :
    KeepsSound dir P config (fun opened => ∀ file metadata, opened = .ok (file, metadata) →
      metadata.len < 2 ^ 63) (openVerified path before) := by
  refine Keeps.call (fun _ => True)
    (fun session sound => ⟨sound.skip (.openFile path) trivial, trivial⟩) fun reply _ => ?_
  cases reply with
  | error e => exact Keeps.done (nofun)
  | ok file =>
      refine Keeps.call (fun answer => ∀ metadata, answer = .ok (.file metadata) →
        metadata.len < 2 ^ 63) (fun session sound => ⟨sound.skip (.fstat file) trivial, ?_⟩)
        fun reply small => ?_
      · intro metadata answered
        simp only [Session.perform, Watch.perform] at answered
        cases fault : (session.2 0).fault with
        | some e => simp [fault] at answered
        | none =>
            cases file with
            | file inode =>
                simp only [fault, Watch.fstat, Except.ok.injEq, Metadata.file.injEq] at answered
                exact answered ▸ sound.1.sizes inode
            | directory => simp [fault, Watch.fstat] at answered
            | special => simp [fault, Watch.fstat] at answered
      · rcases reply with e | (after | _ | _ | _)
        case ok.file =>
          dsimp only
          split
          · exact Keeps.done (nofun)
          · refine Keeps.done fun opened metadata same => ?_
            simp only [Except.ok.injEq, Prod.mk.injEq] at same
            exact same.2 ▸ small after rfl
        all_goals exact Keeps.done (nofun)

/-! ## The operations -/

theorem keeps_forgetAll (paths : List PathBuf)
    (spelled : ∀ path ∈ paths, ∃ name, EntryName name ∧ path = dir.join name) :
    KeepsSound dir P config (fun _ => True) (forgetAll paths) := by
  induction paths with
  | nil => exact Keeps.done trivial
  | cons path paths ih =>
      obtain ⟨name, named, rfl⟩ := spelled path List.mem_cons_self
      exact (keeps_forget named).bind fun _ _ =>
        ih fun other member => spelled other (List.mem_cons_of_mem _ member)

theorem keeps_retainPresent (presentes : List PathBuf) :
    KeepsSound dir P config (fun _ => True) (retainPresent presentes) := by
  refine Keeps.call (fun paths => ∀ path ∈ paths, ∃ name, EntryName name ∧ path = dir.join name)
    (fun session sound => ⟨sound.skip (.seenAbsent presentes) trivial, ?_⟩)
    fun paths spelled => keeps_forgetAll paths spelled
  intro path member
  obtain ⟨entry, present, rfl⟩ := List.mem_map.mp (List.mem_of_mem_filter member)
  rw [sound.1.entries] at present
  obtain ⟨row, among, loaded⟩ := List.mem_filterMap.mp present
  obtain ⟨inside, rfl⟩ := loadedRow_eq_some.mp loaded
  exact sound.1.spelled row among inside

theorem keeps_archive {name : String} (named : EntryName name) (filename : String)
    (stamp : FileStamp) (small : stamp.size < 2 ^ 63) (data : Bytes) :
    KeepsSound dir P config (fun _ => True)
      (archive config (dir.join name) filename stamp data) := by
  refine Keeps.call (fun _ => True)
    (fun session sound => ⟨sound.skip (.compress _ _ _) trivial, trivial⟩) fun reply _ => ?_
  cases reply with
  | error e => exact Keeps.done trivial
  | ok result =>
      have registers : KeepsSound dir P config (fun _ => True)
          ((put (dir.join name) { stamp, hash := some result.id }).bind fun _ =>
            (.done (.ok ()) : Action (Except EngineError Unit))) :=
        (keeps_put named _ small).bind fun _ _ => Keeps.done trivial
      dsimp only
      split
      · refine Keeps.call (fun _ => True)
          (fun session sound => ⟨sound.skip (.removeFile _) trivial, trivial⟩) fun reply _ => ?_
        cases reply with
        | ok removed => exact (keeps_forget named).bind fun _ _ => Keeps.done trivial
        | error e => exact registers
      · exact registers

theorem keeps_ingestOpen {name : String} (named : EntryName name) (filename : String)
    (file : Handle) (metadata : FileMeta) (small : metadata.len < 2 ^ 63) (reads : Nat) :
    KeepsSound dir P config (fun _ => True)
      (ingestOpen P config (dir.join name) filename file metadata reads) := by
  refine Keeps.call (fun _ => True)
    (fun session sound => ⟨sound.skip (.seenGet _) trivial, trivial⟩) fun previous _ => ?_
  dsimp only
  split
  · exact Keeps.done trivial
  · split
    · exact (keeps_put named _ small).bind fun _ _ => Keeps.done trivial
    · refine (KeepsSound.of_uses (uses_readOpen file reads [])).bind fun data _ => ?_
      cases data with
      | error e => exact Keeps.done trivial
      | ok data =>
          dsimp only
          split
          · exact (keeps_put named _ small).bind fun _ _ => Keeps.done trivial
          · exact keeps_archive named filename _ small data

theorem keeps_ingest {name : String} (named : EntryName name) (polls reads : Nat) :
    KeepsSound dir P config (fun _ => True) (ingest P config (dir.join name) polls reads) := by
  refine (KeepsSound.of_uses (uses_screen (fun _ => trivial) _)).bind fun seen _ => ?_
  cases seen with
  | none => exact Keeps.done trivial
  | some seen =>
      refine (KeepsSound.of_uses (uses_waitUntilStable trivial polls none 0)).bind fun size _ => ?_
      cases size with
      | none => exact Keeps.done trivial
      | some size =>
          refine (KeepsSound.of_uses (uses_screen (fun _ => trivial) _)).bind fun before _ => ?_
          cases before with
          | none => exact Keeps.done trivial
          | some before =>
              refine (keeps_openVerified _ before).bind fun opened small => ?_
              cases opened with
              | error e => exact Keeps.done trivial
              | ok opened => exact keeps_ingestOpen named _ _ _ (small _ _ rfl) reads

theorem keeps_endPass (presentes found : List PathBuf) :
    KeepsSound dir P config (fun _ => True) (endPass presentes found) := by
  refine (keeps_retainPresent presentes).bind fun _ _ => ?_
  split
  · exact Keeps.done trivial
  · exact Keeps.call (fun _ => True)
      (fun session sound => ⟨sound.skip (.enqueue found) trivial, trivial⟩)
      fun _ _ => Keeps.done trivial

theorem keeps_scanEntries (entries : Nat) (presentes found : List PathBuf) :
    KeepsSound dir P config (fun _ => True) (scanEntries entries presentes found) := by
  induction entries generalizing presentes found with
  | zero => exact keeps_endPass presentes found
  | succ entries ih =>
      refine Keeps.call (fun _ => True)
        (fun session sound => ⟨sound.skip .nextEntry trivial, trivial⟩) fun reply _ => ?_
      rcases reply with e | (_ | path)
      · exact keeps_endPass presentes found
      · exact keeps_endPass presentes found
      · refine (KeepsSound.of_uses (uses_examine (fun _ => trivial) (fun _ => trivial) (fun _ => trivial) path)).bind fun sighting _ => ?_
        cases sighting <;> exact ih _ _

theorem keeps_scanPass (entries : Nat) :
    KeepsSound dir P config (fun _ => True) (scanPass entries) := by
  refine Keeps.call (fun _ => True)
    (fun session sound => ⟨sound.skip .readDir trivial, trivial⟩) fun reply _ => ?_
  cases reply with
  | error e => exact Keeps.done trivial
  | ok opened => exact keeps_scanEntries entries [] []

/-! ## Runs -/

theorem Persisted.apply {watch : Watch} (persisted : Persisted dir watch) (op : Op)
    (allowed : op.Allowed dir) : Persisted dir (watch.apply P config dir op) := by
  cases op with
  | change change =>
      refine ⟨?_, ?_, ?_⟩
      · cases change <;> exact persisted.loaded
      · cases change <;> exact persisted.spelled
      · cases change with
        | write inode content modifiedNs =>
            intro other
            have small : content.length < 2 ^ 63 := allowed
            by_cases same : other = inode
            · simpa [Watch.apply, Watch.change, same] using small
            · simpa [Watch.apply, Watch.change, same] using persisted.sizes other
        | place path entry => exact persisted.sizes
        | remove path => exact persisted.sizes
  | scan entries chances =>
      have written : Written chances := allowed
      exact (keeps_scanPass entries (watch, chances) ⟨persisted, written⟩).1.1
  | ingest path polls reads chances =>
      obtain ⟨written, name, named, rfl⟩ := allowed
      exact (keeps_ingest named polls reads _ ⟨persisted, written⟩).1.1
  | restart => exact ⟨rfl, persisted.spelled, persisted.sizes⟩

theorem Persisted.restart {watch : Watch} (persisted : Persisted dir watch) :
    watch.apply P config dir .restart = watch :=
  congrArg (fun cache => { watch with cache }) persisted.loaded.symm

/-- Wherever the process is restarted, the operations come to the same: the same
directory, registry, archive, grants and events. -/
theorem restarts_transparent (P : Platform) (config : WatchConfig) (dir : PathBuf) (watch : Watch)
    (persisted : Persisted dir watch) (ops : List Op) (allowed : ∀ op ∈ ops, op.Allowed dir) :
    ops.foldl (Watch.apply P config dir) watch =
      (ops.filter fun op => !op.isRestart).foldl (Watch.apply P config dir) watch := by
  induction ops generalizing watch with
  | nil => rfl
  | cons op ops ih =>
      have after : Persisted dir (watch.apply P config dir op) :=
        persisted.apply op (allowed op List.mem_cons_self)
      rw [List.foldl_cons, ih _ after fun other member => allowed other (List.mem_cons_of_mem op member)]
      cases op with
      | restart => rw [persisted.restart, List.filter_cons_of_neg (by decide)]
      | change | scan | ingest => rw [List.filter_cons_of_pos (by rfl), List.foldl_cons]

/-- An empty directory and a process that has seen nothing. -/
def freshWatch : Watch :=
  { entries := Table.empty, inodes := fun _ => { content := [], modifiedNs := 0 }, owed := []
    cache := Table.empty, rows := Table.empty, pending := [], inflight := []
    world := quietWorld, archived := [] }

def sampleDir : PathBuf := ⟨"/w"⟩

def sampleWatchConfig : WatchConfig :=
  { engine := sampleConfig, deleteSource := false, defaultEffort := .fast, verifyOnWrite := false
    defaultTenant := "t" }

/-- A file is archived, the process restarts, and the file is ingested again. -/
def archiveAndRestart : List Op :=
  [.change (.write 0 [1] 5), .change (.place (sampleDir.join "a") (.file 0)),
    .ingest (sampleDir.join "a") 3 2 fun _ => .calm, .restart,
    .ingest (sampleDir.join "a") 3 2 fun _ => .calm]

theorem restarts_transparent_archived :
    archiveAndRestart.foldl (Watch.apply framingPlatform sampleWatchConfig sampleDir) freshWatch =
        (archiveAndRestart.filter fun op => !op.isRestart).foldl
          (Watch.apply framingPlatform sampleWatchConfig sampleDir) freshWatch ∧
      (archiveAndRestart.foldl (Watch.apply framingPlatform sampleWatchConfig sampleDir)
        freshWatch).archived = [("a", [1])] := by
  refine ⟨restarts_transparent framingPlatform sampleWatchConfig sampleDir freshWatch
    ⟨rfl, fun _ member => (List.not_mem_nil member).elim, fun _ => Nat.two_pow_pos 63⟩
    archiveAndRestart ?_, by decide +kernel⟩
  intro op member
  simp only [archiveAndRestart, List.mem_cons, List.not_mem_nil, or_false] at member
  rcases member with rfl | rfl | rfl | rfl | rfl
  · exact (by decide : [(1 : UInt8)].length < 2 ^ 63)
  · trivial
  · exact ⟨fun _ => rfl, "a", by decide, rfl⟩
  · trivial
  · exact ⟨fun _ => rfl, "a", by decide, rfl⟩

end Syntra.Watcher

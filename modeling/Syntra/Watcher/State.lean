import Syntra.Watcher

/-!
# What the watcher works on

The directory, the registry with its rows in the database, the queue and the
engine, and what a call does to them.  An inode is there whether or not an entry
leads to it, as an open file is.
-/

set_option autoImplicit false

namespace Syntra.Watcher

open Program

structure Inode where
  content : Bytes
  modifiedNs : Int
  deriving Repr, DecidableEq

inductive DirEntry where
  | file (inode : Nat)
  | symlink (target : Option Handle)
  | directory
  | special
  deriving Repr, DecidableEq

abbrev Listing := Table fun entry : PathBuf × DirEntry => some entry.1.components

abbrev Cache := Table fun entry : PathBuf × SeenRecord => some entry.1.components

abbrev WatchSeen := Table fun row : WatchRecord => some row.path

structure Watch where
  entries : Listing
  inodes : Nat → Inode
  /-- What the directory stream that is open has still to report. -/
  owed : List PathBuf
  cache : Cache
  rows : WatchSeen
  pending : List PathBuf
  inflight : List (List Component)
  world : World
  /-- The file names and contents that have been archived, in their order. -/
  archived : List (String × Bytes)

structure Chance where
  /-- The call on the directory or a file fails with this message, if it can fail. -/
  fault : Option String
  dbFault : Option DbError
  /-- What the directory stream reports out of turn. -/
  report : Option PathBuf
  /-- How much a read returns at most. -/
  chunk : Nat
  clock : Int

def Chance.calm : Chance :=
  { fault := none, dbFault := none, report := none, chunk := 2 ^ 20, clock := 0 }

namespace Watch

def entry (watch : Watch) (path : PathBuf) : Option DirEntry :=
  (watch.entries.find path.components).map (·.2)

def metadata (watch : Watch) (inode : Nat) : FileMeta :=
  { ino := inode
    len := (watch.inodes inode).content.length
    modifiedNs := (watch.inodes inode).modifiedNs }

def lstat (watch : Watch) (path : PathBuf) : Option Metadata :=
  (watch.entry path).map fun
    | .file inode => .file (watch.metadata inode)
    | .symlink _ => .symlink
    | .directory => .directory
    | .special => .special

/-- Opening follows links. -/
def openFile (watch : Watch) (path : PathBuf) : Option Handle :=
  (watch.entry path).bind fun
    | .file inode => some (.file inode)
    | .symlink target => target
    | .directory => some .directory
    | .special => some .special

def fstat (watch : Watch) : Handle → Metadata
  | .file inode => .file (watch.metadata inode)
  | .directory => .directory
  | .special => .special

def seen (watch : Watch) (path : PathBuf) : Option SeenRecord :=
  (watch.cache.find path.components).map (·.2)

/-- The keys of the registry that are not among `presentes`. -/
def absent (watch : Watch) (presentes : List PathBuf) : List PathBuf :=
  (watch.cache.rows.map (·.1)).filter fun path =>
    !presentes.any fun present => present.components = path.components

def noEntry : IoError := .other "No such file or directory (os error 2)"

/-- The entry at `path` is `entry` now, and the open stream need not report it. -/
def place (watch : Watch) (path : PathBuf) (entry : DirEntry) : Watch :=
  { watch with
    entries := watch.entries.upsert (path, entry) (fun old => (old.1, entry)) fun _ => rfl
    owed := watch.owed.filter fun other => other.components ≠ path.components }

def remove (watch : Watch) (path : PathBuf) : Watch :=
  { watch with
    entries := watch.entries.erase path.components
    owed := watch.owed.filter fun other => other.components ≠ path.components }

def insertSeen (watch : Watch) (path : PathBuf) (record : SeenRecord) : Watch :=
  { watch with
    cache := watch.cache.upsert (path, record) (fun old => (old.1, record)) fun _ => rfl }

def upsertRow (watch : Watch) (row : WatchRecord) : Watch :=
  { watch with
    rows := watch.rows.upsert row (fun old => { row with path := old.path }) fun _ => rfl }

def extend (queue paths : List PathBuf) : List PathBuf :=
  paths.foldl (fun queue path =>
    if queue.any fun other => other.components = path.components then queue
    else queue ++ [path]) queue

variable (P : Platform) (config : WatchConfig)

def perform (chance : Chance) (watch : Watch) : (call : WatchCall) → call.Answer × Watch
  | .lstat path => (if chance.fault.isSome then none else watch.lstat path, watch)
  | .openFile path =>
    match chance.fault with
    | some e => (.error (.other e), watch)
    | none => ((watch.openFile path).elim (.error noEntry) .ok, watch)
  | .fstat file =>
    match chance.fault with
    | some e => (.error (.other e), watch)
    | none => (.ok (watch.fstat file), watch)
  | .read file position =>
    match chance.fault, file with
    | some e, _ => (.error (.other e), watch)
    | none, .file inode =>
      (.ok (((watch.inodes inode).content.drop position).take (max 1 chance.chunk)), watch)
    | none, _ => (.error (.other "Is a directory (os error 21)"), watch)
  | .removeFile path =>
    match chance.fault, watch.entry path with
    | some e, _ => (.error (.other e), watch)
    | none, none => (.error noEntry, watch)
    | none, some .directory => (.error (.other "Is a directory (os error 21)"), watch)
    | none, some _ => (.ok (), watch.remove path)
  | .readDir =>
    match chance.fault with
    | some e => (.error (.other e), watch)
    | none => (.ok (), { watch with owed := watch.entries.rows.map (·.1) })
  | .nextEntry =>
    match chance.fault, chance.report, watch.owed with
    | some e, _, _ => (.error (.other e), watch)
    | none, some path, owed =>
      (.ok (some path),
        { watch with owed := owed.filter fun other => other.components ≠ path.components })
    | none, none, [] => (.ok none, watch)
    | none, none, path :: owed => (.ok (some path), { watch with owed })
  | .seenGet path => (watch.seen path, watch)
  | .seenInsert path record => ((), watch.insertSeen path record)
  | .seenRemove path => ((), { watch with cache := watch.cache.erase path.components })
  | .seenAbsent presentes => (watch.absent presentes, watch)
  | .upsert row =>
    match chance.dbFault with
    | some e => (.error e, watch)
    | none => (.ok (), watch.upsertRow row)
  | .removeRow path =>
    match chance.dbFault with
    | some e => (.error e, watch)
    | none => (.ok (), { watch with rows := watch.rows.erase path })
  | .nowMillis => (chance.clock, watch)
  | .inflightContains path => (watch.inflight.contains path.components, watch)
  | .enqueue paths => ((), { watch with pending := extend watch.pending paths })
  | .compress ctx data req =>
    let (result, world) :=
      (Syntra.compress P config.engine ctx data req).run (World.perform P) watch.world
    (result, { watch with
      world
      archived := if result.isOk then watch.archived ++ [(req.filename, data)] else watch.archived })

end Watch

/-- `SeenStore::load`: the rows of files directly in the directory. -/
def load (dir : PathBuf) (rows : List WatchRecord) : Cache :=
  rows.foldl (fun cache row =>
    let path : PathBuf := ⟨row.path⟩
    if path.parent = some dir.components then
      cache.upsert (path, row.record) (fun old => (old.1, row.record)) fun _ => rfl
    else cache) Table.empty

/-! ## What others do in the directory -/

inductive Change where
  /-- A write to the inode, or a change of its time, whatever entries lead to it. -/
  | write (inode : Nat) (content : Bytes) (modifiedNs : Int)
  /-- A file created, linked or renamed into the place, or something else put there. -/
  | place (path : PathBuf) (entry : DirEntry)
  | remove (path : PathBuf)
  deriving Repr, DecidableEq

def Watch.change (watch : Watch) : Change → Watch
  | .write inode content modifiedNs =>
    { watch with inodes := Function.update watch.inodes inode { content, modifiedNs } }
  | .place path entry => watch.place path entry
  | .remove path => watch.remove path

/-! ## What the programs ask -/

section Uses

variable {allowed : WatchCall → Prop}

theorem uses_entryOf (looks : ∀ path, allowed (.lstat path)) (path : PathBuf) :
    (entryOf path).Uses allowed := by
  refine ⟨looks path, fun reply => ?_⟩
  cases reply <;> trivial

theorem uses_screen (looks : ∀ path, allowed (.lstat path)) (path : PathBuf) :
    (screen path).Uses allowed := by
  unfold screen
  split
  · refine (uses_entryOf looks path).bind fun entry => ?_
    cases entry <;> trivial
  · trivial

theorem uses_examine (looks : ∀ path, allowed (.lstat path))
    (waits : ∀ path, allowed (.inflightContains path)) (compares : ∀ path, allowed (.seenGet path))
    (path : PathBuf) : (examine path).Uses allowed := by
  unfold examine
  split
  · refine (uses_entryOf looks path).bind fun entry => ?_
    cases entry with
    | skipped motivo => trivial
    | gone => trivial
    | regular metadata =>
        refine ⟨waits path, fun busy => ?_⟩
        cases busy with
        | true => trivial
        | false =>
            refine ⟨compares path, fun previous => ?_⟩
            dsimp only
            split <;> trivial
  · trivial

theorem uses_forgetAll (forgets : ∀ path, allowed (.seenRemove path))
    (deletes : ∀ path, allowed (.removeRow path)) (paths : List PathBuf) :
    (forgetAll paths).Uses allowed := by
  induction paths with
  | nil => trivial
  | cons path paths ih => exact ⟨forgets path, fun _ => ⟨deletes path.text, fun _ => ih⟩⟩

theorem uses_notifyEvent (looks : ∀ path, allowed (.lstat path))
    (enqueues : ∀ paths, allowed (.enqueue paths)) (paths : List PathBuf) :
    (notifyEvent paths).Uses allowed := by
  have admits : (admitted paths).Uses allowed := by
    induction paths with
    | nil => trivial
    | cons path paths ih =>
        exact (uses_screen looks path).bind fun _ => ih.bind fun _ => trivial
  refine admits.bind fun found => ?_
  split
  · trivial
  · exact ⟨enqueues found, fun _ => trivial⟩

theorem uses_waitUntilStable {path : PathBuf} (looks : allowed (.lstat path)) (polls : Nat)
    (last : Option Nat) (stable : Nat) :
    (waitUntilStable path polls last stable).Uses allowed := by
  induction polls generalizing last stable with
  | zero =>
      unfold waitUntilStable
      refine ⟨looks, fun reply => ?_⟩
      rcases reply with _ | (metadata | _ | _ | _)
      case some.file =>
        dsimp only
        split <;> split <;> trivial
      all_goals trivial
  | succ polls ih =>
      unfold waitUntilStable
      refine ⟨looks, fun reply => ?_⟩
      rcases reply with _ | (metadata | _ | _ | _)
      case some.file =>
        dsimp only
        split <;> split
        all_goals first | trivial | exact ih _ _
      all_goals trivial

end Uses

end Syntra.Watcher

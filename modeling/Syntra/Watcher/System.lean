import Syntra.Watcher.State

/-!
# The parties of the watcher, interleaved

The scanner, the notifier, the drainer and the ingests make their calls in any
order, among whatever others do in the directory.  An observer follows a run: it
sees files leave the directory and contents that have been archived, which no
party of the watcher can.
-/

set_option autoImplicit false

namespace Syntra.Watcher

open Program

abbrev Key := List Component

structure Task where
  path : PathBuf
  rest : Action (Except EngineError Unit)

structure System where
  watch : Watch
  /-- What the drainer has taken from the queue and not yet dispatched. -/
  batch : List PathBuf
  scanner : Option (Action Unit)
  notifier : Option (Action Unit)
  tasks : Key → Option Task

inductive Move where
  | change (change : Change)
  | beginPass (entries : Nat)
  | event (paths : List PathBuf)
  | drain
  | dispatch (polls reads : Nat)
  | scanner (chance : Chance)
  | notifier (chance : Chance)
  | task (key : Key) (chance : Chance)

variable (P : Platform) (config : WatchConfig)

namespace System

/-- One move of the watcher or of others.  A party makes its next call, or leaves
when it is done. -/
def step (system : System) : Move → Option System
  | .change change => some { system with watch := system.watch.change change }
  | .beginPass entries =>
    match system.scanner with
    | some _ => none
    | none => some { system with scanner := some (scanPass entries) }
  | .event paths =>
    match system.notifier with
    | some _ => none
    | none => some { system with notifier := some (notifyEvent paths) }
  | .drain =>
    match system.batch with
    | _ :: _ => none
    | [] =>
      some { system with
        batch := system.watch.pending
        watch := { system.watch with pending := [] } }
  | .dispatch polls reads =>
    match system.batch with
    | [] => none
    | path :: batch =>
      if system.watch.inflight.contains path.components then some { system with batch }
      else
        some { system with
          batch
          watch := { system.watch with inflight := path.components :: system.watch.inflight }
          tasks := Function.update system.tasks path.components
            (some { path, rest := ingest P config path polls reads }) }
  | .scanner chance =>
    match system.scanner with
    | none => none
    | some (.done _) => some { system with scanner := none }
    | some (.call asked next) =>
      let (answer, watch) := system.watch.perform P config chance asked
      some { system with watch, scanner := some (next answer) }
  | .notifier chance =>
    match system.notifier with
    | none => none
    | some (.done _) => some { system with notifier := none }
    | some (.call asked next) =>
      let (answer, watch) := system.watch.perform P config chance asked
      some { system with watch, notifier := some (next answer) }
  | .task key chance =>
    match system.tasks key with
    | none => none
    | some { path := _, rest := .done _ } =>
      some { system with
        watch := { system.watch with inflight := system.watch.inflight.filter (· ≠ key) }
        tasks := Function.update system.tasks key none }
    | some { path, rest := .call asked next } =>
      let (answer, watch) := system.watch.perform P config chance asked
      some { system with
        watch
        tasks := Function.update system.tasks key (some { path, rest := next answer }) }

def asks (system : System) : Move → Option WatchCall
  | .scanner _ => system.scanner.bind next?
  | .notifier _ => system.notifier.bind next?
  | .task key _ => (system.tasks key).bind fun task => task.rest.next?
  | _ => none

end System

/-! ## The observer -/

def Watch.inodeAt (watch : Watch) (key : Key) : Option Nat :=
  match watch.entries.find key with
  | some (_, .file inode) => some inode
  | _ => none

def Watch.contentAt (watch : Watch) (key : Key) : Option Bytes :=
  (watch.inodeAt key).map fun inode => (watch.inodes inode).content

structure Observed where
  /-- Since the record of the path was put, its file has been out of the directory. -/
  absent : Key → Bool
  /-- What the path holds has been archived, and the file left alone since. -/
  settled : Key → Bool
  /-- The record of the path was put after the scanner opened the directory. -/
  put : Key → Bool
  /-- In this pass the metadata of the path could not be read. -/
  failed : Key → Bool
  /-- This pass has read the directory to its end. -/
  complete : Bool
  /-- The entry has changed since the ingest opened the file. -/
  replaced : Key → Bool
  /-- The file has been written to since the ingest began to read it. -/
  written : Key → Bool

namespace Observed

def gone (seen : Observed) (key : Key) : Observed :=
  { seen with
    absent := Function.update seen.absent key true
    settled := Function.update seen.settled key false
    replaced := Function.update seen.replaced key true }

def change (seen : Observed) (watch : Watch) : Change → Observed
  | .write inode _ _ =>
    { seen with
      settled := fun key => seen.settled key && watch.inodeAt key ≠ some inode
      written := fun key => seen.written key || watch.inodeAt key = some inode }
  | .place path _ | .remove path => seen.gone path.components

def scanner (seen : Observed) (watch : Watch) (chance : Chance) : WatchCall → Observed
  | .readDir => { seen with put := fun _ => false, failed := fun _ => false, complete := false }
  | .nextEntry =>
    { seen with
      complete := chance.fault.isNone && chance.report.isNone && watch.owed.isEmpty }
  | .lstat path =>
    { seen with
      failed := Function.update seen.failed path.components
        (seen.failed path.components || chance.fault.isSome) }
  | _ => seen

def task (seen : Observed) (before after : Watch) (key : Key) : WatchCall → Observed
  | .openFile _ => { seen with replaced := Function.update seen.replaced key false }
  | .read _ 0 => { seen with written := Function.update seen.written key false }
  | .compress _ data _ =>
    { seen with
      settled := Function.update seen.settled key
        (before.archived.length < after.archived.length && after.contentAt key = some data) }
  | .removeFile _ => if (after.entries.find key).isNone then seen.gone key else seen
  | .seenInsert _ _ =>
    { seen with
      absent := Function.update seen.absent key (after.inodeAt key).isNone
      put := Function.update seen.put key true }
  | _ => seen

/-- What the observer knows after a move. -/
def next (seen : Observed) (before : System) (move : Move) (after : System) : Observed :=
  match move, before.asks move with
  | .change change, _ => seen.change before.watch change
  | .scanner chance, some asked => seen.scanner before.watch chance asked
  | .task key _, some asked => seen.task before.watch after.watch key asked
  | _, _ => seen

end Observed

structure Observation where
  system : System
  seen : Observed

def Observation.step (observation : Observation) (move : Move) : Option Observation :=
  (observation.system.step P config move).map fun system =>
    { system, seen := observation.seen.next observation.system move system }

/-- The watcher as it starts, with the records it has loaded. -/
def Observation.start (watch : Watch) : Observation :=
  { system :=
      { watch := { watch with pending := [], inflight := [] }
        batch := [], scanner := none, notifier := none, tasks := fun _ => none }
    seen :=
      { absent := fun key => (watch.inodeAt key).isNone
        settled := fun _ => false
        put := fun _ => false
        failed := fun _ => false
        complete := false
        replaced := fun _ => false
        written := fun _ => false } }

end Syntra.Watcher

import Syntra.Service
import Syntra.Watcher.Path

/-!
# The watched directory

The parties of the watcher as programs of calls: the ingest of a file, a pass of
the scanner, the handling of an event.  A call is one atomic step on the
directory, the registry of seen files or the engine; how it comes out also
depends on the chance of the moment.
-/

set_option autoImplicit false

namespace Syntra.Watcher

open Program Text

structure WatchConfig where
  engine : Config
  deleteSource : Bool
  defaultEffort : Effort
  verifyOnWrite : Bool
  defaultTenant : String

def WatchConfig.defaultContext (config : WatchConfig) : TenantContext :=
  { tenantId := config.defaultTenant, keyId := none }

/-- `CompressRequest::from_config`. -/
def fromConfig (config : WatchConfig) (filename : String) : CompressRequest :=
  { filename
    mimeHint := none
    effort := config.defaultEffort
    forced := { codec := none, level := none, useDictionary := none }
    verify := config.verifyOnWrite
    persist := true
    allowDedup := true
    idempotencyKey := none
    requestId := none }

/-! ## Files -/

/-- What `stat` says of a regular file; `ino` stands for the device and the inode. -/
structure FileMeta where
  ino : Nat
  len : Nat
  modifiedNs : Int
  deriving Repr, DecidableEq

inductive Metadata where
  | file (metadata : FileMeta)
  | symlink
  | directory
  | special
  deriving Repr, DecidableEq

inductive Skip where
  | symlink
  | diretorio
  | naoRegular
  | trocado
  deriving Repr, DecidableEq

inductive Entry where
  | regular (metadata : FileMeta)
  | skipped (motivo : Skip)
  | gone
  deriving Repr, DecidableEq

inductive OpenError where
  | skip (motivo : Skip)
  | io (error : IoError)
  deriving Repr, DecidableEq

/-- `skip_of`, with the metadata of what is not skipped. -/
def skipOf : Metadata → Entry
  | .symlink => .skipped .symlink
  | .file metadata => .regular metadata
  | .directory => .skipped .diretorio
  | .special => .skipped .naoRegular

structure FileStamp where
  size : Nat
  mtimeNs : Option Int
  deriving Repr, DecidableEq

/-- A time before the epoch or past an `i64` of nanoseconds counts as none. -/
def stampOf (metadata : FileMeta) : FileStamp :=
  let ns := metadata.modifiedNs
  { size := metadata.len, mtimeNs := if 0 ≤ ns ∧ ns < 2 ^ 63 then some ns else none }

structure SeenRecord where
  stamp : FileStamp
  hash : Option String
  deriving Repr, DecidableEq

structure WatchRecord where
  path : String
  size : Int
  mtimeNs : Option Int
  objectHash : Option String
  seenAtMs : Int
  deriving Repr, DecidableEq

def WatchRecord.of (path : PathBuf) (record : SeenRecord) (seenAtMs : Int) : WatchRecord :=
  { path := path.text
    size := if record.stamp.size < 2 ^ 63 then record.stamp.size else 2 ^ 63 - 1
    mtimeNs := record.stamp.mtimeNs
    objectHash := record.hash
    seenAtMs }

def WatchRecord.record (row : WatchRecord) : SeenRecord :=
  { stamp := { size := (max row.size 0).toNat, mtimeNs := row.mtimeNs }, hash := row.objectHash }

def nameAllowed (path : PathBuf) : Bool :=
  match path.fileName with
  | none => false
  | some name =>
    if startsWith name "." || startsWith name "~" then false
    else
      let lower := toAsciiLowercase name
      !(endsWith lower ".tmp" || endsWith lower ".part" || endsWith lower ".crdownload" ||
        endsWith lower ".swp" || endsWith lower ".syntra")

/-! ## Calls -/

inductive Handle where
  | file (inode : Nat)
  | directory
  | special
  deriving Repr, DecidableEq

inductive WatchCall where
  | lstat (path : PathBuf)
  | openFile (path : PathBuf)
  | fstat (file : Handle)
  | read (file : Handle) (position : Nat)
  | removeFile (path : PathBuf)
  | readDir
  | nextEntry
  | seenGet (path : PathBuf)
  | seenInsert (path : PathBuf) (record : SeenRecord)
  | seenRemove (path : PathBuf)
  | seenAbsent (presentes : List PathBuf)
  | upsert (row : WatchRecord)
  | removeRow (path : String)
  | nowMillis
  | inflightContains (path : PathBuf)
  | enqueue (paths : List PathBuf)
  | compress (ctx : TenantContext) (data : Bytes) (req : CompressRequest)

abbrev WatchCall.Answer : WatchCall → Type
  | lstat _ => Option Metadata
  | openFile _ => Except IoError Handle
  | fstat _ => Except IoError Metadata
  | read _ _ => Except IoError Bytes
  | removeFile _ => Except IoError Unit
  | readDir => Except IoError Unit
  | nextEntry => Except IoError (Option PathBuf)
  | seenGet _ => Option SeenRecord
  | seenInsert _ _ => Unit
  | seenRemove _ => Unit
  | seenAbsent _ => List PathBuf
  | upsert _ => Except DbError Unit
  | removeRow _ => Except DbError Unit
  | nowMillis => Int
  | inflightContains _ => Bool
  | enqueue _ => Unit
  | compress _ _ _ => Except EngineError CompressResult

abbrev Action (α : Type) := Program WatchCall WatchCall.Answer α

/-! ## Looking at a file -/

def entryOf (path : PathBuf) : Action Entry :=
  .call (.lstat path) fun
    | some metadata => .done (skipOf metadata)
    | none => .done .gone

def screen (path : PathBuf) : Action (Option FileMeta) :=
  if nameAllowed path then
    (entryOf path).bind fun
      | .regular metadata => .done (some metadata)
      | .skipped _ | .gone => .done none
  else .done none

def stabilitySamples : Nat := 3

/-- Waits until the size has been the same in three samples on end; the deadline
passes after the sample that `polls` counts down to. -/
def waitUntilStable (path : PathBuf) (polls : Nat) (last : Option Nat) (stable : Nat) :
    Action (Option Nat) :=
  .call (.lstat path) fun
    | some (.file metadata) =>
      let size := metadata.len
      let stable := if some size = last then stable + 1 else 1
      if some size = last ∧ stabilitySamples ≤ stable then .done (some size)
      else
        match polls with
        | 0 => .done none
        | polls + 1 => waitUntilStable path polls (some size) stable
    | _ => .done none

def openVerified (path : PathBuf) (before : FileMeta) :
    Action (Except OpenError (Handle × FileMeta)) :=
  .call (.openFile path) fun
    | .error e => .done (.error (.io e))
    | .ok file =>
      .call (.fstat file) fun
        | .error e => .done (.error (.io e))
        | .ok (.file after) =>
          if after.ino ≠ before.ino then .done (.error (.skip .trocado))
          else .done (.ok (file, after))
        | .ok _ => .done (.error (.skip .trocado))

/-- `read_to_end`: reads on until there is nothing left; the read after the first
`reads` fails. -/
def readOpen (file : Handle) : Nat → Bytes → Action (Except IoError Bytes)
  | 0, _ => .done (.error (.other "Input/output error (os error 5)"))
  | reads + 1, data =>
    .call (.read file data.length) fun
      | .error e => .done (.error e)
      | .ok [] => .done (.ok data)
      | .ok (byte :: bytes) => readOpen file reads (data ++ byte :: bytes)

/-! ## The registry -/

def put (path : PathBuf) (record : SeenRecord) : Action Unit :=
  .call (.seenInsert path record) fun _ =>
  .call .nowMillis fun now =>
  .call (.upsert (.of path record now)) fun _ => .done ()

def forget (path : PathBuf) : Action Unit :=
  .call (.seenRemove path) fun _ =>
  .call (.removeRow path.text) fun _ => .done ()

def forgetAll : List PathBuf → Action Unit
  | [] => .done ()
  | path :: paths => (forget path).bind fun _ => forgetAll paths

def retainPresent (presentes : List PathBuf) : Action Unit :=
  .call (.seenAbsent presentes) forgetAll

/-! ## The ingest of a file -/

variable (P : Platform) (config : WatchConfig)

def archive (path : PathBuf) (name : String) (stamp : FileStamp) (data : Bytes) :
    Action (Except EngineError Unit) :=
  .call (.compress config.defaultContext data (fromConfig config name)) fun
    | .error e => .done (.error e)
    | .ok result =>
      if config.deleteSource then
        .call (.removeFile path) fun
          | .ok _ => (forget path).bind fun _ => .done (.ok ())
          | .error _ => (put path { stamp, hash := some result.id }).bind fun _ => .done (.ok ())
      else (put path { stamp, hash := some result.id }).bind fun _ => .done (.ok ())

def ingestOpen (path : PathBuf) (name : String) (file : Handle) (metadata : FileMeta)
    (reads : Nat) : Action (Except EngineError Unit) :=
  let stamp := stampOf metadata
  .call (.seenGet path) fun previous =>
  if previous.map (·.stamp) = some stamp then .done (.ok ())
  else if stamp.size = 0 then (put path { stamp, hash := none }).bind fun _ => .done (.ok ())
  else
    (readOpen file reads []).bind fun
      | .error _ => .done (.ok ())
      | .ok data =>
        let digest := hexEncode (P.blake3 data).val
        if previous.bind (·.hash) = some digest then
          (put path { stamp, hash := some digest }).bind fun _ => .done (.ok ())
        else archive config path name stamp data

/-- `polls` and `reads` say when the wait is given up and when reading fails. -/
def ingest (path : PathBuf) (polls reads : Nat) : Action (Except EngineError Unit) :=
  (screen path).bind fun
  | none => .done (.ok ())
  | some _ =>
  (waitUntilStable path polls none 0).bind fun
  | none => .done (.ok ())
  | some _ =>
  (screen path).bind fun
  | none => .done (.ok ())
  | some before =>
  (openVerified path before).bind fun
  | .error _ => .done (.ok ())
  | .ok (file, metadata) =>
    ingestOpen P config path (path.fileName.getD "sem-nome") file metadata reads

/-! ## The scanner and the events -/

inductive Sighting where
  | passed
  | present
  | found
  deriving Repr, DecidableEq

def examine (path : PathBuf) : Action Sighting :=
  if nameAllowed path then
    (entryOf path).bind fun
      | .skipped _ | .gone => .done .passed
      | .regular metadata =>
        .call (.inflightContains path) fun
          | true => .done .present
          | false =>
            .call (.seenGet path) fun previous =>
            if previous.map (·.stamp) = some (stampOf metadata) then .done .present
            else .done .found
  else .done .passed

def endPass (presentes found : List PathBuf) : Action Unit :=
  (retainPresent presentes).bind fun _ =>
  if found.isEmpty then .done () else .call (.enqueue found) fun _ => .done ()

/-- Reads the directory until an error or the end; the entry after the first `entries`
cannot be read. -/
def scanEntries : Nat → List PathBuf → List PathBuf → Action Unit
  | 0, presentes, found => endPass presentes found
  | entries + 1, presentes, found =>
    .call .nextEntry fun
      | .error _ | .ok none => endPass presentes found
      | .ok (some path) =>
        (examine path).bind fun
          | .passed => scanEntries entries presentes found
          | .present => scanEntries entries (presentes ++ [path]) found
          | .found => scanEntries entries (presentes ++ [path]) (found ++ [path])

def scanPass (entries : Nat) : Action Unit :=
  .call .readDir fun
    | .error _ => .done ()
    | .ok _ => scanEntries entries [] []

/-- The paths of an event that `screen` lets through. -/
def admitted : List PathBuf → Action (List PathBuf)
  | [] => .done []
  | path :: paths =>
    (screen path).bind fun metadata =>
    (admitted paths).bind fun rest =>
    .done (if metadata.isSome then path :: rest else rest)

def notifyEvent (paths : List PathBuf) : Action Unit :=
  (admitted paths).bind fun found =>
  if found.isEmpty then .done () else .call (.enqueue found) fun _ => .done ()

end Syntra.Watcher

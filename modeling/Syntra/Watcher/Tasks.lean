import Syntra.Watcher.System

/-!
# What an ingest knows

The observer of one ingest follows the answers it gets: the inode it opened,
what it has read, what it has archived.  Whatever the answers are, the ingest
makes a call only when it knows enough for it.
-/

set_option autoImplicit false

namespace Syntra.Watcher

open Program Text

structure Known where
  /-- The inode of the open file. -/
  file : Option Nat
  size : Option Nat
  previous : Option (Option SeenRecord)
  data : Bytes
  started : Bool
  /-- The file has been read to its end. -/
  whole : Bool
  /-- What has been archived, and its id. -/
  archived : Option (Bytes × String)
  removed : Bool
  /-- The file has been registered or removed. -/
  finished : Bool
  deriving Repr, DecidableEq

def Known.start : Known :=
  { file := none, size := none, previous := none, data := [], started := false, whole := false
    archived := none, removed := false, finished := false }

def Known.advance (known : Known) : (asked : WatchCall) → asked.Answer → Known
  | .openFile _, .ok (.file inode) => { known with file := some inode }
  | .fstat _, .ok (.file metadata) => { known with size := some metadata.len }
  | .seenGet _, previous => { known with previous := some previous }
  | .read _ _, .ok bytes =>
    { known with data := known.data ++ bytes, started := true, whole := bytes.isEmpty }
  | .compress _ data _, .ok result => { known with archived := some (data, result.id) }
  | .removeFile _, .ok _ => { known with removed := true, finished := true }
  | .seenInsert _ _, _ => { known with finished := true }
  | _, _ => known

variable (P : Platform)

/-- The record is that of what has been archived, or of what need not be. -/
def Known.Records (known : Known) (record : SeenRecord) : Prop :=
  match known.archived with
  | some (_, id) => record.hash = some id
  | none =>
    (known.size = some 0 ∧ record.hash = none) ∨
      (known.whole = true ∧ record.hash = some (hexEncode (P.blake3 known.data).val))

/-- The archived content need be archived: it has been read whole, is not empty and
is not what the registry had. -/
structure Known.Owes (known : Known) (data : Bytes) : Prop where
  whole : known.whole = true
  same : data = known.data
  size : ∃ size, known.size = some size ∧ size ≠ 0
  previous : ∃ previous, known.previous = some previous ∧
    previous.bind (·.hash) ≠ some (hexEncode (P.blake3 data).val)
  unarchived : known.archived = none
  unfinished : known.finished = false

def Known.Allows (path : PathBuf) (name : String) (known : Known) : WatchCall → Prop
  | .lstat _ | .nowMillis | .upsert _ | .removeRow _ => True
  | .openFile other => other = path ∧ known.file = none ∧ known.started = false
  | .fstat file => ∀ inode, file = .file inode → known.file = some inode
  | .seenGet other => other = path
  | .read file position =>
    position = known.data.length ∧ known.whole = false ∧ known.archived = none ∧
      ∀ inode, file = .file inode → known.file = some inode
  | .compress _ data req => known.Owes P data ∧ req.filename = name ∧
      req.idempotencyKey = none ∧ req.persist = true
  | .removeFile other => other = path ∧ known.whole = true ∧ known.finished = false ∧
      ∃ id, known.archived = some (known.data, id)
  | .seenInsert other record =>
    other = path ∧ nameAllowed path = true ∧ known.finished = false ∧ known.Records P record
  | .seenRemove other => other = path ∧ known.removed = true
  | _ => False

def ingestMonitor (path : PathBuf) (name : String) : Monitor WatchCall WatchCall.Answer Known where
  advance := Known.advance
  allows := Known.Allows P path name

def Known.Settled (known : Known) : Prop := known.archived.isSome = true → known.finished = true

variable {P} {path : PathBuf} {name : String} {known : Known}

theorem Known.records_iff (unarchived : known.archived = none) (record : SeenRecord) :
    known.Records P record ↔ (known.size = some 0 ∧ record.hash = none) ∨
      (known.whole = true ∧ record.hash = some (hexEncode (P.blake3 known.data).val)) := by
  rw [Known.Records, unarchived]

theorem screen_safe {post : Known → Option FileMeta → Prop}
    (none : post known none)
    (some : ∀ metadata, nameAllowed path = true → post known (some metadata)) :
    (screen path).Safe (ingestMonitor P path name) post known := by
  unfold screen
  split
  · rename_i allowed
    refine ⟨trivial, fun reply => ?_⟩
    rcases reply with _ | (metadata | _ | _ | _)
    case some.file => exact some metadata allowed
    all_goals exact none
  · exact none

theorem waitUntilStable_safe (polls : Nat) (last : Option Nat) (stable : Nat) :
    (waitUntilStable path polls last stable).Safe (ingestMonitor P path name)
      (fun later _ => later = known) known := by
  have looks : (waitUntilStable path polls last stable).Uses (· = .lstat path) :=
    uses_waitUntilStable (by rfl) polls last stable
  apply looks.still
  · rintro asked rfl
    trivial
  · rintro asked reply rfl
    rfl

theorem put_safe (record : SeenRecord) {α : Type} (value : α) (allowed : nameAllowed path = true)
    (unfinished : known.finished = false) (records : known.Records P record) :
    ((put path record).bind fun _ => .done value).Safe (ingestMonitor P path name)
      (fun later _ => later.Settled) known :=
  ⟨⟨rfl, allowed, unfinished, records⟩, fun _ => ⟨trivial, fun _ => ⟨trivial, fun _ _ => rfl⟩⟩⟩

theorem readOpen_safe (file : Handle) (reads : Nat) (data : Bytes) (same : known.data = data)
    (opened : ∀ inode, file = .file inode → known.file = some inode)
    (unread : known.whole = false) (unarchived : known.archived = none) :
    (readOpen file reads data).Safe (ingestMonitor P path name)
      (fun later result => later.size = known.size ∧ later.previous = known.previous ∧
        later.archived = none ∧ later.finished = known.finished ∧
        ∀ data, result = .ok data → later.whole = true ∧ data = later.data) known := by
  induction reads generalizing known data with
  | zero => exact ⟨rfl, rfl, unarchived, rfl, nofun⟩
  | succ reads ih =>
      refine ⟨⟨congrArg List.length same.symm, unread, unarchived, opened⟩, fun reply => ?_⟩
      rcases reply with e | (_ | ⟨byte, bytes⟩)
      · exact ⟨rfl, rfl, unarchived, rfl, nofun⟩
      · refine ⟨rfl, rfl, unarchived, rfl, fun read ends => ⟨rfl, ?_⟩⟩
        cases ends
        exact same.symm.trans (List.append_nil _).symm
      · exact @ih { known with data := known.data ++ byte :: bytes, started := true, whole := false }
          (data ++ byte :: bytes) (congrArg (· ++ byte :: bytes) same) opened rfl unarchived

variable {config : WatchConfig}

theorem archive_safe (stamp : FileStamp) (allowed : nameAllowed path = true)
    (owes : known.Owes P known.data) :
    (archive config path name stamp known.data).Safe (ingestMonitor P path name)
      (fun later _ => later.Settled) known := by
  refine ⟨⟨owes, rfl, rfl, rfl⟩, fun reply => ?_⟩
  cases reply with
  | error e => exact fun archived => absurd archived (by simp [ingestMonitor, Known.advance, owes.unarchived])
  | ok result =>
      dsimp only
      split
      · refine ⟨⟨rfl, owes.whole, owes.unfinished, _, rfl⟩, fun removed => ?_⟩
        cases removed with
        | ok removed => exact ⟨⟨rfl, rfl⟩, fun _ => ⟨trivial, fun _ _ => rfl⟩⟩
        | error e => exact put_safe _ _ allowed owes.unfinished rfl
      · exact put_safe _ _ allowed owes.unfinished rfl

theorem ingestOpen_safe (file : Handle) (metadata : FileMeta) (reads : Nat)
    (allowed : nameAllowed path = true)
    (opened : ∀ inode, file = .file inode → known.file = some inode)
    (size : known.size = some metadata.len) (unread : known.data = []) (partly : known.whole = false)
    (unarchived : known.archived = none) (unfinished : known.finished = false) :
    (ingestOpen P config path name file metadata reads).Safe (ingestMonitor P path name)
      (fun later _ => later.Settled) known := by
  refine ⟨rfl, fun previous => ?_⟩
  dsimp only
  have settled : Known.Settled { known with previous := some previous } := by
    intro archived
    rw [unarchived] at archived
    cases archived
  split
  · exact settled
  · split
    · rename_i empty
      exact put_safe { stamp := stampOf metadata, hash := none } _ allowed unfinished
        ((Known.records_iff unarchived _).mpr (Or.inl ⟨size.trans (congrArg some empty), rfl⟩))
    · rename_i filled
      have reading := @readOpen_safe P path name { known with previous := some previous } file reads
        [] unread opened partly unarchived
      refine safe_bind.mpr (reading.imp fun later result read => ?_)
      obtain ⟨sameSize, samePrevious, none_yet, sameFinished, whole⟩ := read
      cases result with
      | error e =>
          intro archived
          rw [none_yet] at archived
          cases archived
      | ok data =>
          obtain ⟨wholly, rfl⟩ := whole data rfl
          have pending : later.finished = false := sameFinished.trans unfinished
          dsimp only
          split
          · exact put_safe _ _ allowed pending
              ((Known.records_iff none_yet _).mpr (Or.inr ⟨wholly, rfl⟩))
          · rename_i fresh
            exact archive_safe _ allowed ⟨wholly, rfl, ⟨_, sameSize.trans size, filled⟩,
              ⟨_, samePrevious, fresh⟩, none_yet, pending⟩

theorem ingest_safe (path : PathBuf) (polls reads : Nat) :
    (ingest P config path polls reads).Safe (ingestMonitor P path (path.fileName.getD "sem-nome"))
      (fun later _ => later.Settled) .start := by
  have idle : Known.start.Settled := nofun
  refine safe_bind.mpr (screen_safe idle fun _ _ => ?_)
  refine safe_bind.mpr ((waitUntilStable_safe polls none 0).imp fun later size same => ?_)
  subst same
  cases size with
  | none => exact idle
  | some size =>
      refine safe_bind.mpr (screen_safe idle fun before allowed => ?_)
      refine safe_bind.mpr ⟨⟨rfl, rfl, rfl⟩, fun reply => ?_⟩
      cases reply with
      | error e => exact idle
      | ok file =>
          have opened : ∀ inode, file = .file inode →
              (Known.start.advance (.openFile path) (.ok file)).file = some inode := by
            intro inode same
            rw [same]
            rfl
          have fresh : (Known.start.advance (.openFile path) (.ok file)) =
              { Known.start with
                file := (Known.start.advance (.openFile path) (.ok file)).file } := by
            cases file <;> rfl
          refine ⟨opened, fun reply => ?_⟩
          show Safe _ _ _ (Known.advance (Known.start.advance (.openFile path) (.ok file)) _ _)
          rw [fresh]
          rcases reply with e | (after | _ | _ | _)
          case ok.file =>
            dsimp only
            split
            · exact idle
            · exact ingestOpen_safe file after reads allowed opened rfl rfl rfl rfl rfl
          all_goals exact idle

end Syntra.Watcher

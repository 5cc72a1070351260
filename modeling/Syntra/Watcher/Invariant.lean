import Syntra.Service.Replay
import Syntra.Watcher.Tasks

/-!
# What the ingests can rely on

For each path: what the directory, the registry and the observer have there, and
what the ingest of the path knows of it.
-/

set_option autoImplicit false

namespace Syntra.Watcher

open Program Text

/-! ## What a call changes -/

namespace WatchCall

def removes : WatchCall → Bool
  | .removeFile _ => true
  | _ => false

def registers : WatchCall → Bool
  | .seenInsert _ _ => true
  | _ => false

def forgets : WatchCall → Bool
  | .seenRemove _ => true
  | _ => false

def stores : WatchCall → Bool
  | .compress _ _ _ => true
  | _ => false

end WatchCall

section Frame

variable (P : Platform) (config : WatchConfig) (chance : Chance) (watch : Watch)

theorem perform_inodes (asked : WatchCall) :
    (watch.perform P config chance asked).2.inodes = watch.inodes := by
  unfold Watch.perform
  cases asked <;> dsimp only <;> repeat' split
  all_goals rfl

theorem perform_entries (asked : WatchCall) (stays : asked.removes = false) :
    (watch.perform P config chance asked).2.entries = watch.entries := by
  unfold Watch.perform
  cases asked with
  | removeFile path => cases stays
  | _ =>
      dsimp only
      repeat' split
      all_goals rfl

theorem perform_cache (asked : WatchCall) (adds : asked.registers = false) (keeps : asked.forgets = false) :
    (watch.perform P config chance asked).2.cache = watch.cache := by
  unfold Watch.perform
  cases asked with
  | seenInsert path record => cases adds
  | seenRemove path => cases keeps
  | _ =>
      dsimp only
      repeat' split
      all_goals rfl

theorem perform_inflight (asked : WatchCall) :
    (watch.perform P config chance asked).2.inflight = watch.inflight := by
  unfold Watch.perform
  cases asked <;> dsimp only <;> repeat' split
  all_goals rfl

theorem perform_archived (asked : WatchCall) (idle : asked.stores = false) :
    (watch.perform P config chance asked).2.archived = watch.archived := by
  unfold Watch.perform
  cases asked with
  | compress ctx data req => cases idle
  | _ =>
      dsimp only
      repeat' split
      all_goals rfl

end Frame

/-! ## The view of one path -/

structure View where
  /-- The regular file, its inode and content. -/
  file : Option (Nat × Bytes)
  record : Option SeenRecord
  absent : Bool
  settled : Bool
  replaced : Bool
  written : Bool
  deriving Repr, DecidableEq

def Watch.fileAt (watch : Watch) (key : Key) : Option (Nat × Bytes) :=
  (watch.inodeAt key).map fun inode => (inode, (watch.inodes inode).content)

def Watch.recordAt (watch : Watch) (key : Key) : Option SeenRecord :=
  (watch.cache.find key).map (·.2)

def view (watch : Watch) (seen : Observed) (key : Key) : View :=
  { file := watch.fileAt key
    record := watch.recordAt key
    absent := seen.absent key
    settled := seen.settled key
    replaced := seen.replaced key
    written := seen.written key }

/-- What the ingest of a path knows is true as long as nobody touches the file. -/
structure Tracks (P : Platform) (name : String) (archived : List (String × Bytes)) (view : View)
    (known : Known) : Prop where
  file : ∀ inode other content, known.file = some inode → view.replaced = false →
    view.file = some (other, content) → other = inode
  data : ∀ inode content, known.started = true → view.replaced = false → view.written = false →
    view.file = some (inode, content) →
      known.data = content.take known.data.length ∧ (known.whole = true → known.data = content)
  opened : known.started = true → known.file.isSome = true
  begun : known.whole = true → known.started = true
  unread : known.started = false → known.data = []
  filled : known.started = true → known.whole = false → known.data ≠ []
  archived : ∀ data id, known.archived = some (data, id) →
    data = known.data ∧ known.whole = true ∧ (name, data) ∈ archived ∧
      id = hexEncode (P.blake3 data).val
  removed : known.removed = true → view.absent = true ∧ known.finished = true

def View.Recorded (P : Platform) (view : View) (content : Bytes) : Prop :=
  content = [] ∨ ∃ record, view.record = some record ∧
    record.hash = some (hexEncode (P.blake3 content).val)

/-- The content at the path has been archived and will not be again: the registry has
it, or the ingest that archived it is about to register it, and an ingest on its way
has seen nothing else. -/
structure Settles (P : Platform) (view : View) (known : Known) : Prop where
  holds : ∃ inode content, view.file = some (inode, content) ∧
    ((∃ id, known.archived = some (content, id) ∧ known.finished = false) ∨
      ((known.archived.isSome = true → known.finished = true) ∧ view.absent = false ∧
        view.Recorded P content))
  opened : known.archived = none → known.file.isSome = true → view.replaced = false
  begun : known.archived = none → known.started = true → view.written = false
  sized : known.archived = none → ∀ size inode content, known.size = some size →
    view.file = some (inode, content) → size = content.length
  compared : known.archived = none → ∀ previous inode content, known.previous = some previous →
    view.file = some (inode, content) →
      content = [] ∨ previous.bind (·.hash) = some (hexEncode (P.blake3 content).val)

variable {P : Platform} {name : String} {archived later : List (String × Bytes)}
  {before after : View} {known : Known} {careful : Prop}

/-! ## Others -/

/-- What others do to a path: they write to its file, put something else there, or the
scanner forgets its record. -/
inductive Touch (careful : Prop) (before : View) : View → Prop
  | same : Touch careful before before
  | rewritten (inode : Nat) (old new : Bytes) (here : before.file = some (inode, old)) :
    Touch careful before
      { before with file := some (inode, new), settled := false, written := true }
  | moved (file : Option (Nat × Bytes)) :
    Touch careful before { before with file, absent := true, settled := false, replaced := true }
  | forgotten (gone : careful → before.absent = true) :
    Touch careful before { before with record := none }

theorem Tracks.touch (tracks : Tracks P name archived before known)
    (touched : Touch careful before after) (more : archived ⊆ later) :
    Tracks P name later after known := by
  have archived : ∀ data id, known.archived = some (data, id) →
      data = known.data ∧ known.whole = true ∧ (name, data) ∈ later ∧
        id = hexEncode (P.blake3 data).val := by
    intro data id stored
    obtain ⟨same, whole, member, hashed⟩ := tracks.archived data id stored
    exact ⟨same, whole, more member, hashed⟩
  cases touched with
  | same => exact { tracks with archived }
  | rewritten inode old new here =>
      refine { tracks with archived, file := ?_, data := ?_ }
      · intro opened other content same notReplaced found
        cases found
        exact tracks.file opened inode old same notReplaced here
      · intro _ _ _ _ notWritten _
        cases notWritten
  | moved file =>
      refine { tracks with archived, file := ?_, data := ?_, removed := ?_ }
      · intro _ _ _ _ notReplaced _
        cases notReplaced
      · intro _ _ _ notReplaced _ _
        cases notReplaced
      · exact fun removed => ⟨rfl, (tracks.removed removed).2⟩
  | forgotten gone => exact { tracks with archived }

theorem Settles.touch (carefully : careful)
    (settles : before.settled = true → Settles P before known)
    (touched : Touch careful before after) (settled : after.settled = true) :
    Settles P after known := by
  cases touched with
  | same => exact settles settled
  | rewritten inode old new here => cases settled
  | moved file => cases settled
  | forgotten gone =>
      have before := settles settled
      refine { before with holds := ?_ }
      obtain ⟨inode, content, here, pending | ⟨-, present, -⟩⟩ := before.holds
      · exact ⟨inode, content, here, Or.inl pending⟩
      · rw [gone carefully] at present
        cases present

theorem Tracks.start : Tracks P name archived before .start where
  file := nofun
  data := nofun
  opened := nofun
  begun := nofun
  unread _ := rfl
  filled := nofun
  archived := nofun
  removed := nofun

theorem Settles.rest (settles : Settles P before known) (done : known.Settled) :
    Settles P before .start where
  holds := by
    obtain ⟨inode, content, here, ⟨id, stored, pending⟩ | ⟨-, recorded⟩⟩ := settles.holds
    · have finished := done (by rw [stored]; rfl)
      rw [pending] at finished
      cases finished
    · exact ⟨inode, content, here, Or.inr ⟨nofun, recorded⟩⟩
  opened := nofun
  begun := nofun
  sized := nofun
  compared := nofun

theorem Settles.not_owes (tracks : Tracks P name archived before known)
    (settles : Settles P before known) (data : Bytes) : ¬ known.Owes P data := by
  intro owes
  obtain ⟨inode, content, here, ⟨id, stored, -⟩ | ⟨-, -, recorded⟩⟩ := settles.holds
  · rw [owes.unarchived] at stored
    cases stored
  · have started := tracks.begun owes.whole
    have notReplaced := settles.opened owes.unarchived (tracks.opened started)
    have notWritten := settles.begun owes.unarchived started
    have read := (tracks.data inode content started notReplaced notWritten here).2 owes.whole
    obtain ⟨size, sized, filled⟩ := owes.size
    obtain ⟨previous, compared, other⟩ := owes.previous
    have length := settles.sized owes.unarchived size inode content sized here
    rcases settles.compared owes.unarchived previous inode content compared here with empty | known
    · exact filled (by rw [length, empty]; rfl)
    · exact other (by rw [known, owes.same, read])

/-! ## The calls of the ingest itself -/

variable {config : WatchConfig} {chance : Chance} {watch : Watch} {seen : Observed} {key : Key}
  {path : PathBuf}

theorem fileAt_perform (asked : WatchCall) (stays : asked.removes = false) :
    (watch.perform P config chance asked).2.fileAt key = watch.fileAt key := by
  rw [Watch.fileAt, Watch.inodeAt, perform_entries P config chance watch asked stays,
    perform_inodes P config chance watch asked]
  rfl

theorem recordAt_perform (asked : WatchCall) (adds : asked.registers = false)
    (keeps : asked.forgets = false) :
    (watch.perform P config chance asked).2.recordAt key = watch.recordAt key := by
  rw [Watch.recordAt, perform_cache P config chance watch asked adds keeps]
  rfl

/-- A call that neither removes a file nor changes the registry leaves the path as it is. -/
theorem view_perform (asked : WatchCall) (stays : asked.removes = false)
    (adds : asked.registers = false) (keeps : asked.forgets = false) :
    view (watch.perform P config chance asked).2 seen key = view watch seen key := by
  rw [view, fileAt_perform asked stays, recordAt_perform asked adds keeps]
  rfl

theorem entry_of_fileAt {inode : Nat} {content : Bytes}
    (here : watch.fileAt path.components = some (inode, content)) :
    watch.entry path = some (.file inode) ∧ (watch.inodes inode).content = content := by
  obtain ⟨found, at_path, same⟩ := Option.map_eq_some_iff.mp here
  simp only [Prod.mk.injEq] at same
  obtain ⟨rfl, rfl⟩ := same
  refine ⟨?_, rfl⟩
  unfold Watch.inodeAt at at_path
  unfold Watch.entry
  split at at_path
  · rename_i _ opened found
    cases at_path
    rw [found]
    rfl
  · cases at_path

theorem Tracks.openFile (tracks : Tracks P name archived (view watch seen path.components) known)
    (unopened : known.file = none) (unread : known.started = false) :
    Tracks P name archived
      { view watch seen path.components with replaced := false }
      (known.advance (.openFile path) (watch.perform P config chance (.openFile path)).1) := by
  have kept : Tracks P name archived { view watch seen path.components with replaced := false }
      known := by
    refine { tracks with file := ?_, data := ?_ }
    · intro inode _ _ opened
      rw [unopened] at opened
      cases opened
    · intro _ _ started
      rw [unread] at started
      cases started
  simp only [Watch.perform]
  cases chance.fault with
  | some e => exact kept
  | none =>
      cases opened : watch.openFile path with
      | none => exact kept
      | some file =>
          cases file with
          | directory => exact kept
          | special => exact kept
          | file inode =>
              refine { kept with file := ?_, opened := fun _ => rfl }
              intro found other content same _ here
              cases same
              have entry := (entry_of_fileAt here).1
              rw [Watch.openFile, entry] at opened
              cases opened
              rfl

theorem read_on {data content : Bytes} (read : data = content.take data.length) (count : Nat) :
    data ++ (content.drop data.length).take count =
      content.take (data ++ (content.drop data.length).take count).length := by
  have joined : data ++ (content.drop data.length).take count =
      content.take (data.length + count) := by
    rw [List.take_add, ← read]
  rw [joined, List.take_eq_take_iff, List.length_take]
  omega

theorem read_whole {data content : Bytes} (read : data = content.take data.length) (chunk : Nat)
    (ended : (content.drop data.length).take (max 1 chunk) = []) : data = content := by
  have none_left : content.length ≤ data.length := by
    have length := congrArg List.length ended
    rw [List.length_take, List.length_drop, List.length_nil] at length
    omega
  rw [read, List.take_of_length_le none_left]

theorem perform_read {file : Handle} {position : Nat} {bytes : Bytes}
    (read : (watch.perform P config chance (.read file position)).1 = .ok bytes) :
    ∃ inode, file = .file inode ∧
      bytes = ((watch.inodes inode).content.drop position).take (max 1 chance.chunk) := by
  simp only [Watch.perform] at read
  cases fault : chance.fault with
  | some e => simp [fault] at read
  | none =>
      cases file with
      | directory => simp [fault] at read
      | special => simp [fault] at read
      | file inode =>
          simp only [fault, Except.ok.injEq] at read
          exact ⟨inode, rfl, read.symm⟩

theorem Tracks.read (tracks : Tracks P name archived (view watch seen path.components) known)
    (file : Handle) (partly : known.whole = false) (unarchived : known.archived = none)
    (opened : ∀ inode, file = .file inode → known.file = some inode) (written : Bool)
    (unwritten : written = seen.written path.components ∨ known.data = []) :
    Tracks P name archived { view watch seen path.components with written }
      (known.advance (.read file known.data.length)
        (watch.perform P config chance (.read file known.data.length)).1) := by
  have before : Tracks P name archived { view watch seen path.components with written } known := by
    refine { tracks with data := ?_ }
    intro inode content started notReplaced notWritten here
    rcases unwritten with rfl | empty
    · exact tracks.data inode content started notReplaced notWritten here
    · exact absurd empty (tracks.filled started partly)
  cases answered : (watch.perform P config chance (.read file known.data.length)).1 with
  | error e => exact before
  | ok bytes =>
      obtain ⟨inode, rfl, rfl⟩ := perform_read answered
      have mine := opened inode rfl
      refine { before with
        data := ?_, opened := fun _ => mine ▸ rfl, begun := fun _ => rfl, unread := nofun
        filled := ?_, archived := ?_ }
      · intro other content _ notReplaced notWritten here
        obtain rfl : other = inode := before.file inode other content mine notReplaced here
        have stored : (watch.inodes other).content = content := (entry_of_fileAt here).2
        have soFar : known.data = content.take known.data.length := by
          by_cases started : known.started = true
          · exact (before.data other content started notReplaced notWritten here).1
          · rw [tracks.unread (Bool.eq_false_iff.mpr started)]
            rfl
        rw [stored]
        refine ⟨read_on soFar _, fun ended => ?_⟩
        have ended := List.isEmpty_iff.mp ended
        show known.data ++ _ = content
        rw [ended, List.append_nil]
        exact read_whole soFar chance.chunk ended
      · intro _ more empty
        have nothing : _ = [] := (List.append_eq_nil_iff.mp empty).2
        rw [Known.advance, nothing] at more
        cases more
      · intro data id stored
        rw [show known.archived = some (data, id) from stored] at unarchived
        cases unarchived

theorem perform_compress {ctx : TenantContext} {data : Bytes} {req : CompressRequest}
    {result : CompressResult} (unkeyed : req.idempotencyKey = none)
    (stored : (watch.perform P config chance (.compress ctx data req)).1 = .ok result) :
    result.id = hexEncode (P.blake3 data).val ∧
      (watch.perform P config chance (.compress ctx data req)).2.archived =
        watch.archived ++ [(req.filename, data)] := by
  have replies : Replies (AnswersFor (hexEncode (P.blake3 data).val) false)
      (compress P config.engine ctx data req) := by
    unfold compress
    rw [unkeyed]
    exact compressNew_answers data
  have answers := replies.run (P := P) watch.world
  simp only [Watch.perform] at stored ⊢
  rw [stored] at answers ⊢
  exact ⟨answers.1, rfl⟩

theorem archived_perform (asked : WatchCall) :
    watch.archived ⊆ (watch.perform P config chance asked).2.archived := by
  cases storing : asked.stores with
  | false =>
      rw [perform_archived P config chance watch asked storing]
      exact List.Subset.refl _
  | true =>
      cases asked with
      | compress ctx data req =>
          simp only [Watch.perform]
          split
          · exact List.subset_append_left _ _
          · exact List.Subset.refl _
      | _ => cases storing

theorem Tracks.compress {ctx : TenantContext} {data : Bytes} {req : CompressRequest} {settled : Bool}
    (tracks : Tracks P name watch.archived (view watch seen path.components) known)
    (owes : known.Owes P data) (named : req.filename = name) (unkeyed : req.idempotencyKey = none) :
    Tracks P name (watch.perform P config chance (.compress ctx data req)).2.archived
      { view watch seen path.components with settled }
      (known.advance (.compress ctx data req)
        (watch.perform P config chance (.compress ctx data req)).1) := by
  have kept : Tracks P name (watch.perform P config chance (.compress ctx data req)).2.archived
      { view watch seen path.components with settled } known :=
    { tracks.touch (Touch.same : Touch False _ _) (archived_perform _) with }
  cases stored : (watch.perform P config chance (.compress ctx data req)).1 with
  | error e => exact kept
  | ok result =>
      obtain ⟨hashed, appended⟩ := perform_compress unkeyed stored
      refine { kept with archived := ?_ }
      intro other id same
      cases same
      refine ⟨owes.same, owes.whole, ?_, hashed⟩
      rw [appended, named]
      exact List.mem_append_right _ (List.mem_singleton_self _)

theorem perform_removeFile :
    ((watch.perform P config chance (.removeFile path)).1 = .ok () ∧
        (watch.perform P config chance (.removeFile path)).2 = watch.remove path) ∨
      (∃ e, (watch.perform P config chance (.removeFile path)).1 = .error e) ∧
        (watch.perform P config chance (.removeFile path)).2 = watch := by
  simp only [Watch.perform]
  split
  · exact Or.inr ⟨⟨_, rfl⟩, rfl⟩
  · exact Or.inr ⟨⟨_, rfl⟩, rfl⟩
  · exact Or.inr ⟨⟨_, rfl⟩, rfl⟩
  · exact Or.inl ⟨rfl, rfl⟩

theorem find_remove : (watch.remove path).entries.find path.components = none := by
  simp [Watch.remove, Table.find_erase]

/-- An entry that changes is one that was moved. -/
theorem touch_entry {path : PathBuf} {later : Watch} (cache : later.cache = watch.cache)
    (inodes : later.inodes = watch.inodes)
    (others : ∀ other, other ≠ path.components →
      later.entries.find other = watch.entries.find other) :
    Touch careful (view watch seen key) (view later (seen.gone path.components) key) := by
  by_cases own : key = path.components
  · subst own
    have moved : view later (seen.gone path.components) path.components =
        { view watch seen path.components with
          file := later.fileAt path.components, absent := true, settled := false
          replaced := true } := by
      simp only [view, Observed.gone, Function.update_self, Watch.recordAt, cache]
    rw [moved]
    exact Touch.moved _
  · have kept : view later (seen.gone path.components) key = view watch seen key := by
      simp only [view, Observed.gone, Function.update_of_ne own, Watch.recordAt, Watch.fileAt,
        Watch.inodeAt, others key own, inodes, cache]
    rw [kept]
    exact Touch.same

theorem view_remove :
    view (watch.remove path) (seen.task watch (watch.remove path) path.components (.removeFile path))
        path.components =
      { view watch seen path.components with
        file := none, absent := true, settled := false, replaced := true } := by
  have gone : (watch.remove path).inodeAt path.components = none := by
    rw [Watch.inodeAt, find_remove]
  have noted : seen.task watch (watch.remove path) path.components (.removeFile path) =
      seen.gone path.components := if_pos (by rw [find_remove]; rfl)
  simp only [view, noted, Observed.gone, Function.update_self, Watch.fileAt, gone, Option.map_none]
  rfl

theorem view_not_removed :
    Touch careful (view watch seen path.components)
      (view watch (seen.task watch watch path.components (.removeFile path)) path.components) := by
  by_cases gone : (watch.entries.find path.components).isNone = true
  · rw [show seen.task watch watch path.components (.removeFile path) = seen.gone path.components
      from if_pos gone]
    exact touch_entry rfl rfl fun _ _ => rfl
  · rw [show seen.task watch watch path.components (.removeFile path) = seen from if_neg gone]
    exact Touch.same

theorem view_insertSeen (record : SeenRecord) :
    view (watch.insertSeen path record)
        (seen.task watch (watch.insertSeen path record) path.components (.seenInsert path record))
        path.components =
      { view watch seen path.components with
        record := some record, absent := (watch.fileAt path.components).isNone } := by
  have recorded : (watch.insertSeen path record).recordAt path.components = some record := by
    have found : (watch.insertSeen path record).cache.find path.components = _ :=
      (Table.find_upsert watch.cache rfl _ _ _).trans (if_pos rfl)
    rw [Watch.recordAt, found]
    cases watch.cache.find path.components <;> rfl
  have missing : ((watch.insertSeen path record).inodeAt path.components).isNone =
      (watch.fileAt path.components).isNone := Option.isNone_map.symm
  simp only [view, Observed.task, Function.update_self, recorded, missing]
  rfl

theorem view_seenRemove (noticed : Observed) (same : view watch noticed key = view watch seen key) :
    view { watch with cache := watch.cache.erase key } noticed key =
      { view watch seen key with record := none } := by
  have gone : Watch.recordAt { watch with cache := watch.cache.erase key } key = none := by
    simp [Watch.recordAt, Table.find_erase]
  rw [← same]
  simp only [view, gone]
  rfl

theorem Tracks.register (tracks : Tracks P name archived before known) (record : Option SeenRecord)
    (absent : Bool) (unfinished : known.finished = false) :
    Tracks P name archived { before with record, absent } { known with finished := true } := by
  refine { tracks with removed := ?_ }
  intro removed
  rw [(tracks.removed removed).2] at unfinished
  cases unfinished

/-- Registering what was archived, or what the registry had, keeps it settled. -/
theorem Settles.register (tracks : Tracks P name archived before known)
    (settles : Settles P before known) (record : SeenRecord) (unfinished : known.finished = false)
    (records : known.Records P record) :
    Settles P { before with record := some record, absent := before.file.isNone }
      { known with finished := true } := by
  refine { settles with holds := ?_ }
  obtain ⟨inode, content, here, held⟩ := settles.holds
  refine ⟨inode, content, here, Or.inr ⟨fun _ => rfl, by simp [here], ?_⟩⟩
  cases stored : known.archived with
  | some archived =>
      obtain ⟨data, id⟩ := archived
      have hashed := (tracks.archived data id stored).2.2.2
      have same : record.hash = some id := by
        rw [Known.Records, stored] at records
        exact records
      rcases held with ⟨own, pending, -⟩ | ⟨done, -⟩
      · rw [stored] at pending
        cases pending
        exact Or.inr ⟨record, rfl, by rw [same, hashed]⟩
      · have finished := done (by rw [stored]; rfl)
        rw [unfinished] at finished
        cases finished
  | none =>
      rcases (Known.records_iff stored record).mp records with ⟨empty, -⟩ | ⟨whole, hashed⟩
      · have length := settles.sized stored 0 inode content empty here
        exact Or.inl (List.eq_nil_of_length_eq_zero length.symm)
      · have started := tracks.begun whole
        have read := (tracks.data inode content started
          (settles.opened stored (tracks.opened started)) (settles.begun stored started) here).2 whole
        exact Or.inr ⟨record, rfl, by rw [hashed, read]⟩

/-! ## A call of the ingest -/

structure At (P : Platform) (careful : Prop) (name : String) (archived : List (String × Bytes))
    (view : View) (known : Known) : Prop where
  tracks : Tracks P name archived view known
  settles : careful → view.settled = true → Settles P view known

theorem At.touch (holds : At P careful name archived before known)
    (touched : Touch careful before after) (more : archived ⊆ later) :
    At P careful name later after known :=
  ⟨holds.tracks.touch touched more, fun carefully => Settles.touch carefully
    (holds.settles carefully) touched⟩

theorem At.openFile (holds : At P careful name archived (view watch seen path.components) known)
    (unopened : known.file = none) (unread : known.started = false) :
    At P careful name archived { view watch seen path.components with replaced := false }
      (known.advance (.openFile path) (watch.perform P config chance (.openFile path)).1) := by
  refine ⟨holds.tracks.openFile unopened unread, fun carefully settled => ?_⟩
  have before := holds.settles carefully settled
  have kept : ∀ file, Settles P { view watch seen path.components with replaced := false }
      { known with file } := by
    intro file
    refine { before with opened := fun _ _ => rfl }
  rcases (watch.perform P config chance (.openFile path)).1 with e | (inode | _ | _)
  · exact kept known.file
  · exact kept (some inode)
  · exact kept known.file
  · exact kept known.file

theorem perform_fstat {file : Handle} {metadata : FileMeta}
    (answered : (watch.perform P config chance (.fstat file)).1 = .ok (.file metadata)) :
    ∃ inode, file = .file inode ∧ metadata = watch.metadata inode := by
  simp only [Watch.perform] at answered
  cases fault : chance.fault with
  | some e => simp [fault] at answered
  | none =>
      cases file with
      | directory => simp [fault, Watch.fstat] at answered
      | special => simp [fault, Watch.fstat] at answered
      | file inode =>
          simp only [fault, Watch.fstat, Except.ok.injEq, Metadata.file.injEq] at answered
          exact ⟨inode, rfl, answered.symm⟩

theorem At.fstat (holds : At P careful name archived (view watch seen path.components) known)
    (file : Handle) (opened : ∀ inode, file = .file inode → known.file = some inode) :
    At P careful name archived (view watch seen path.components)
      (known.advance (.fstat file) (watch.perform P config chance (.fstat file)).1) := by
  cases answered : (watch.perform P config chance (.fstat file)).1 with
  | error e => exact holds
  | ok metadata =>
      cases metadata with
      | symlink => exact holds
      | directory => exact holds
      | special => exact holds
      | file metadata =>
          obtain ⟨inode, rfl, rfl⟩ := perform_fstat answered
          have mine := opened inode rfl
          refine ⟨{ holds.tracks with }, fun carefully settled => ?_⟩
          have before := holds.settles carefully settled
          refine { before with sized := ?_ }
          intro unarchived size other content same here
          have notReplaced := before.opened unarchived (mine ▸ rfl)
          obtain rfl := holds.tracks.file inode other content mine notReplaced here
          cases same
          exact congrArg List.length (entry_of_fileAt here).2

theorem At.seenGet (holds : At P careful name archived (view watch seen path.components) known) :
    At P careful name archived (view watch seen path.components)
      (known.advance (.seenGet path) (watch.perform P config chance (.seenGet path)).1) := by
  refine ⟨{ holds.tracks with }, fun carefully settled => ?_⟩
  have before := holds.settles carefully settled
  refine { before with compared := ?_ }
  intro unarchived previous inode content same here
  have recorded : previous = watch.recordAt path.components := (Option.some.inj same).symm
  obtain ⟨_, _, found, ⟨id, stored, -⟩ | ⟨-, -, registered⟩⟩ := before.holds
  · rw [show known.archived = none from unarchived] at stored
    cases stored
  · rw [here] at found
    cases found
    refine registered.imp_right fun ⟨record, there, hashed⟩ => ?_
    rw [recorded, show watch.recordAt path.components = some record from there]
    exact hashed

theorem At.read (holds : At P careful name archived (view watch seen path.components) known)
    (file : Handle) (partly : known.whole = false) (unarchived : known.archived = none)
    (opened : ∀ inode, file = .file inode → known.file = some inode) (written : Bool)
    (unwritten : written = false ∧ known.data = [] ∨
      written = seen.written path.components ∧ known.data ≠ []) :
    At P careful name archived { view watch seen path.components with written }
      (known.advance (.read file known.data.length)
        (watch.perform P config chance (.read file known.data.length)).1) := by
  refine ⟨holds.tracks.read file partly unarchived opened written
    (unwritten.elim (fun first => Or.inr first.2) fun further => Or.inl further.1),
    fun carefully settled => ?_⟩
  have before := holds.settles carefully settled
  have begun : written = false := by
    rcases unwritten with ⟨first, -⟩ | ⟨rfl, further⟩
    · exact first
    · refine before.begun unarchived ?_
      exact Bool.of_not_eq_false fun unstarted => further (holds.tracks.unread unstarted)
  cases (watch.perform P config chance (.read file known.data.length)).1 with
  | error e => exact { before with begun := fun _ _ => begun }
  | ok bytes => exact { before with begun := fun _ _ => begun }

/-- After an upload the path is settled when it still has what was uploaded. -/
theorem At.compress {ctx : TenantContext} {data : Bytes} {req : CompressRequest} {settled : Bool}
    (holds : At P careful name watch.archived (view watch seen path.components) known)
    (owes : known.Owes P data) (named : req.filename = name) (unkeyed : req.idempotencyKey = none)
    (still : settled = true →
      (watch.perform P config chance (.compress ctx data req)).1.isOk = true ∧
        ∃ inode, watch.fileAt path.components = some (inode, data)) :
    At P careful name (watch.perform P config chance (.compress ctx data req)).2.archived
      { view watch seen path.components with settled }
      (known.advance (.compress ctx data req)
        (watch.perform P config chance (.compress ctx data req)).1) := by
  refine ⟨holds.tracks.compress owes named unkeyed, fun _ settled => ?_⟩
  obtain ⟨stored, inode, here⟩ := still settled
  cases answered : (watch.perform P config chance (.compress ctx data req)).1 with
  | error e =>
      rw [answered] at stored
      cases stored
  | ok result =>
      exact
        { holds := ⟨inode, data, here, Or.inl ⟨result.id, rfl, owes.unfinished⟩⟩
          opened := nofun, begun := nofun, sized := nofun, compared := nofun }

theorem At.removeFile
    (holds : At P careful name archived (view watch seen path.components) known) :
    At P careful name archived
      (view (watch.perform P config chance (.removeFile path)).2
        (seen.task watch (watch.perform P config chance (.removeFile path)).2 path.components
          (.removeFile path)) path.components)
      (known.advance (.removeFile path) (watch.perform P config chance (.removeFile path)).1) := by
  rcases @perform_removeFile P config chance watch path with
    ⟨answered, after⟩ | ⟨⟨e, answered⟩, after⟩
  · rw [answered, after, view_remove]
    have moved := holds.touch (Touch.moved none) (List.Subset.refl _)
    refine ⟨{ moved.tracks with archived := ?_, removed := fun _ => ⟨rfl, rfl⟩ }, nofun⟩
    exact moved.tracks.archived
  · rw [answered, after]
    exact holds.touch view_not_removed (List.Subset.refl _)

theorem At.seenInsert (record : SeenRecord)
    (holds : At P careful name archived (view watch seen path.components) known)
    (unfinished : known.finished = false) (records : known.Records P record) :
    At P careful name archived (view (watch.insertSeen path record)
        (seen.task watch (watch.insertSeen path record) path.components (.seenInsert path record))
        path.components) { known with finished := true } := by
  rw [view_insertSeen]
  exact ⟨holds.tracks.register _ _ unfinished, fun carefully settled =>
    Settles.register holds.tracks (holds.settles carefully settled) record unfinished records⟩

theorem At.seenRemove (holds : At P careful name archived (view watch seen path.components) known)
    (removed : known.removed = true) :
    At P careful name archived
      (view { watch with cache := watch.cache.erase path.components } seen path.components)
      known := by
  rw [view_seenRemove seen rfl]
  exact holds.touch (Touch.forgotten fun _ => (holds.tracks.removed removed).1)
    (List.Subset.refl _)

theorem view_openFile (later : Watch) :
    view watch (seen.task watch later key (.openFile path)) key =
      { view watch seen key with replaced := false } := by
  simp only [view, Observed.task, Function.update_self]

theorem view_read (later : Watch) (file : Handle) (data : Bytes) :
    ∃ written, view watch (seen.task watch later key (.read file data.length)) key =
        { view watch seen key with written } ∧
      (written = false ∧ data = [] ∨ written = seen.written key ∧ data ≠ []) := by
  cases data with
  | nil =>
      refine ⟨false, ?_, Or.inl ⟨rfl, rfl⟩⟩
      simp only [view, Observed.task, List.length_nil, Function.update_self]
  | cons byte data => exact ⟨seen.written key, rfl, Or.inr ⟨rfl, List.cons_ne_nil _ _⟩⟩

theorem view_compress (later : Watch) (ctx : TenantContext) (data : Bytes) (req : CompressRequest) :
    view watch (seen.task watch later key (.compress ctx data req)) key =
      { view watch seen key with
        settled := watch.archived.length < later.archived.length &&
          later.contentAt key = some data } := by
  simp only [view, Observed.task, Function.update_self]

theorem isOk_compress {ctx : TenantContext} {data : Bytes} {req : CompressRequest}
    (grown : watch.archived.length <
      (watch.perform P config chance (.compress ctx data req)).2.archived.length) :
    (watch.perform P config chance (.compress ctx data req)).1.isOk = true := by
  simp only [Watch.perform] at grown ⊢
  split at grown
  · assumption
  · exact absurd grown (Nat.lt_irrefl _)

theorem contentAt_perform (asked : WatchCall) (stays : asked.removes = false) {data : Bytes}
    (here : (watch.perform P config chance asked).2.contentAt key = some data) :
    ∃ inode, watch.fileAt key = some (inode, data) := by
  obtain ⟨inode, found, same⟩ := Option.map_eq_some_iff.mp here
  have kept : (watch.perform P config chance asked).2.fileAt key = watch.fileAt key :=
    fileAt_perform asked stays
  refine ⟨inode, kept ▸ ?_⟩
  exact Option.map_eq_some_iff.mpr ⟨inode, found, by rw [same]⟩

theorem At.call (asked : WatchCall)
    (holds : At P careful name watch.archived (view watch seen path.components) known)
    (allowed : known.Allows P path name asked) :
    At P careful name (watch.perform P config chance asked).2.archived
      (view (watch.perform P config chance asked).2
        (seen.task watch (watch.perform P config chance asked).2 path.components asked)
        path.components)
      (known.advance asked (watch.perform P config chance asked).1) := by
  have later : At P careful name (watch.perform P config chance asked).2.archived
      (view watch seen path.components) known := holds.touch Touch.same (archived_perform asked)
  cases asked with
  | lstat | nowMillis | upsert | removeRow =>
      rw [view_perform _ rfl rfl rfl]
      exact later
  | openFile other =>
      obtain ⟨rfl, unopened, unread⟩ := allowed
      rw [view_perform _ rfl rfl rfl, view_openFile]
      exact later.openFile unopened unread
  | fstat file =>
      rw [view_perform _ rfl rfl rfl]
      exact later.fstat file allowed
  | seenGet other =>
      obtain rfl := allowed
      exact later.seenGet
  | read file position =>
      obtain ⟨rfl, partly, unarchived, opened⟩ := allowed
      rw [view_perform _ rfl rfl rfl]
      obtain ⟨written, noted, unwritten⟩ := @view_read watch seen path.components
        (watch.perform P config chance (.read file known.data.length)).2 file known.data
      rw [noted]
      exact later.read file partly unarchived opened written unwritten
  | compress ctx data req =>
      obtain ⟨owes, named, unkeyed, -⟩ := allowed
      rw [view_perform _ rfl rfl rfl, view_compress]
      refine holds.compress owes named unkeyed fun still => ?_
      rw [Bool.and_eq_true, decide_eq_true_eq, decide_eq_true_eq] at still
      exact ⟨isOk_compress still.1, contentAt_perform _ rfl still.2⟩
  | removeFile other =>
      obtain ⟨rfl, -⟩ := allowed
      exact later.removeFile
  | seenInsert other record =>
      obtain ⟨rfl, -, unfinished, records⟩ := allowed
      exact later.seenInsert record unfinished records
  | seenRemove other =>
      obtain ⟨rfl, removed⟩ := allowed
      exact later.seenRemove removed
  | readDir | nextEntry | seenAbsent | inflightContains | enqueue => exact allowed.elim

/-! ## Other paths and other parties -/

theorem find_erase_other {path : PathBuf} {other : Key} (apart : other ≠ path.components) :
    (watch.remove path).entries.find other = watch.entries.find other := by
  rw [Watch.remove, Table.find_erase, if_neg apart]

theorem view_other (asked : WatchCall) (allowed : known.Allows P path name asked) {other : Key}
    (apart : other ≠ path.components) :
    view (watch.perform P config chance asked).2
        (seen.task watch (watch.perform P config chance asked).2 path.components asked) other =
      view watch seen other := by
  have noted : ∀ later, view watch (seen.task watch later path.components asked) other =
      view watch seen other := by
    intro later
    cases asked with
    | read file position => cases position <;> simp [Observed.task, view, apart]
    | removeFile removed =>
        simp only [Observed.task]
        split <;> simp [Observed.gone, view, apart]
    | _ => simp [Observed.task, view, apart]
  cases asked with
  | removeFile removed =>
      obtain ⟨rfl, -⟩ := allowed
      rw [← noted (watch.perform P config chance (.removeFile removed)).2]
      rcases @perform_removeFile P config chance watch removed with ⟨-, after⟩ | ⟨-, after⟩
      · rw [after]
        simp only [view, Watch.fileAt, Watch.inodeAt, find_erase_other apart]
        rfl
      · rw [after]
  | seenInsert inserted record =>
      obtain ⟨rfl, -⟩ := allowed
      rw [← noted (watch.perform P config chance (.seenInsert inserted record)).2]
      have found : (watch.insertSeen inserted record).cache.find other = watch.cache.find other :=
        (Table.find_upsert watch.cache rfl _ _ _).trans (if_neg apart)
      simp only [view, Watch.perform, Watch.recordAt, found]
      rfl
  | seenRemove removed =>
      obtain ⟨rfl, -⟩ := allowed
      rw [← noted (watch.perform P config chance (.seenRemove removed)).2]
      simp only [view, Watch.perform, Watch.recordAt, Table.find_erase, if_neg apart]
      rfl
  | _ => rw [view_perform _ rfl rfl rfl, noted]

theorem touch_change (change : Change) :
    Touch careful (view watch seen key)
      (view (watch.change change) (seen.change watch change) key) := by
  cases change with
  | write inode content modifiedNs =>
      by_cases own : watch.inodeAt key = some inode
      · have file : (watch.change (.write inode content modifiedNs)).fileAt key =
            some (inode, content) := by
          show (watch.inodeAt key).map _ = _
          simp [own, Watch.change]
        have settled : (seen.change watch (.write inode content modifiedNs)).settled key = false := by
          simp [Observed.change, own]
        have written : (seen.change watch (.write inode content modifiedNs)).written key = true := by
          simp [Observed.change, own]
        have rewritten : view (watch.change (.write inode content modifiedNs))
            (seen.change watch (.write inode content modifiedNs)) key =
              { view watch seen key with
                file := some (inode, content), settled := false, written := true } := by
          rw [view, file, settled, written]
          rfl
        rw [rewritten]
        exact Touch.rewritten inode (watch.inodes inode).content content
          (by simp only [view, Watch.fileAt, own, Option.map_some])
      · have file : (watch.change (.write inode content modifiedNs)).fileAt key =
            watch.fileAt key := by
          show (watch.inodeAt key).map _ = (watch.inodeAt key).map _
          cases found : watch.inodeAt key with
          | none => rfl
          | some other =>
              have apart : other ≠ inode := fun equal => own (equal ▸ found)
              simp [Watch.change, apart]
        have settled : (seen.change watch (.write inode content modifiedNs)).settled key =
            seen.settled key := by simp [Observed.change, own]
        have written : (seen.change watch (.write inode content modifiedNs)).written key =
            seen.written key := by simp [Observed.change, own]
        have kept : view (watch.change (.write inode content modifiedNs))
            (seen.change watch (.write inode content modifiedNs)) key = view watch seen key := by
          rw [view, file, settled, written]
          rfl
        rw [kept]
        exact Touch.same
  | place path entry =>
      exact touch_entry rfl rfl fun other apart =>
        (Table.find_upsert watch.entries rfl _ _ _).trans (if_neg apart)
  | remove path => exact touch_entry rfl rfl fun other apart => find_erase_other apart

/-! ## Runs -/

def fileNameOf (key : Key) : String :=
  match key.getLast? with
  | some (.normal name) => name
  | _ => "sem-nome"

theorem getD_fileName (path : PathBuf) :
    path.fileName.getD "sem-nome" = fileNameOf path.components := by
  simp only [PathBuf.fileName, fileNameOf]
  cases path.components.getLast? with
  | none => rfl
  | some component => cases component <;> rfl

/-- The ingest of a path, when there is one, goes on safely from what it knows. -/
def Ingests (P : Platform) (key : Key) : Option Task → Known → Prop
  | none, known => known = .start
  | some task, known => task.path.components = key ∧
      task.rest.Safe (ingestMonitor P task.path (fileNameOf key)) (fun later _ => later.Settled) known

/-- A call of the scanner leaves the files and what is archived. -/
def WatchCall.scans : WatchCall → Prop
  | .removeFile _ | .seenInsert _ _ | .compress _ _ _ => False
  | _ => True

/-- A call of the notifier leaves the registry as well. -/
def WatchCall.notifies : WatchCall → Prop
  | .lstat _ | .enqueue _ => True
  | _ => False

structure Inv (P : Platform) (careful : Prop) (state : Observation) : Prop where
  inflight : ∀ key, key ∈ state.system.watch.inflight ↔ (state.system.tasks key).isSome = true
  scanner : ∀ action, state.system.scanner = some action → action.Uses WatchCall.scans
  notifier : ∀ action, state.system.notifier = some action → action.Uses WatchCall.notifies
  paths : ∀ key, ∃ known, Ingests P key (state.system.tasks key) known ∧
    At P careful (fileNameOf key) state.system.watch.archived
      (view state.system.watch state.seen key) known

/-- A move of the scanner that forgets a record does so only when its file was gone. -/
def Forgets (careful : Prop) (state : Observation) (move : Move) : Prop :=
  ∀ chance path, move = .scanner chance → state.system.asks move = some (.seenRemove path) →
    careful → state.system.watch.recordAt path.components = none ∨
      state.seen.absent path.components = true

theorem scanPass_uses (entries : Nat) : (scanPass entries).Uses WatchCall.scans := by
  have ends : ∀ presentes found, (endPass presentes found).Uses WatchCall.scans := by
    intro presentes found
    have retains : (retainPresent presentes).Uses WatchCall.scans :=
      ⟨trivial, fun paths => uses_forgetAll (fun _ => trivial) (fun _ => trivial) paths⟩
    refine retains.bind fun _ => ?_
    split
    · trivial
    · exact ⟨trivial, fun _ => trivial⟩
  have lists : ∀ presentes found, (scanEntries entries presentes found).Uses WatchCall.scans := by
    induction entries with
    | zero => exact ends
    | succ entries ih =>
        intro presentes found
        refine ⟨trivial, fun reply => ?_⟩
        rcases reply with e | (_ | path)
        · exact ends presentes found
        · exact ends presentes found
        · refine (uses_examine (fun _ => trivial) (fun _ => trivial) (fun _ => trivial) path).bind
            fun sighting => ?_
          cases sighting <;> exact ih _ _
  refine ⟨trivial, fun reply => ?_⟩
  cases reply with
  | error e => trivial
  | ok opened => exact lists [] []

variable {state next : Observation}

/-- A call of the scanner shows at a path at most as a record forgotten. -/
theorem touch_scanner (asked : WatchCall) (scans : asked.scans)
    (forgets : ∀ path, asked = .seenRemove path → careful →
      watch.recordAt path.components = none ∨ seen.absent path.components = true) :
    Touch careful (view watch seen key)
      (view (watch.perform P config chance asked).2 (seen.scanner watch chance asked) key) := by
  have noted : ∀ later, view later (seen.scanner watch chance asked) key = view later seen key := by
    intro later
    cases asked <;> rfl
  rw [noted]
  cases asked with
  | removeFile | seenInsert | compress => exact scans.elim
  | seenRemove path =>
      by_cases own : key = path.components
      · subst own
        rw [show view (watch.perform P config chance (.seenRemove path)).2 seen path.components = _
          from view_seenRemove seen rfl]
        by_cases unknown : watch.recordAt path.components = none
        · have kept : { view watch seen path.components with record := none } =
              view watch seen path.components := by rw [view, unknown]
          rw [kept]
          exact Touch.same
        · exact Touch.forgotten fun careful => (forgets path rfl careful).resolve_left unknown
      · have kept : view (watch.perform P config chance (.seenRemove path)).2 seen key =
            view watch seen key := by
          simp only [view, Watch.perform, Watch.recordAt, Table.find_erase, if_neg own]
          rfl
        rw [kept]
        exact Touch.same
  | _ =>
      rw [view_perform _ rfl rfl rfl]
      exact Touch.same

theorem Inv.touch {system : System} {noticed : Observed} (inv : Inv P careful state)
    (tasks : system.tasks = state.system.tasks)
    (inflight : system.watch.inflight = state.system.watch.inflight)
    (more : state.system.watch.archived ⊆ system.watch.archived)
    (scanner : ∀ action, system.scanner = some action → action.Uses WatchCall.scans)
    (notifier : ∀ action, system.notifier = some action → action.Uses WatchCall.notifies)
    (touched : ∀ key, Touch careful (view state.system.watch state.seen key)
      (view system.watch noticed key)) :
    Inv P careful { system, seen := noticed } := by
  refine ⟨?_, scanner, notifier, fun key => ?_⟩
  · intro key
    show key ∈ system.watch.inflight ↔ (system.tasks key).isSome = true
    rw [inflight, tasks]
    exact inv.inflight key
  · obtain ⟨known, ingests, holds⟩ := inv.paths key
    refine ⟨known, ?_, holds.touch (touched key) more⟩
    rw [tasks]
    exact ingests

theorem Inv.dispatch (inv : Inv P careful state) (path : PathBuf) (batch : List PathBuf)
    (polls reads : Nat) (idle : path.components ∉ state.system.watch.inflight) :
    Inv P careful
      { system := { state.system with
          batch
          watch := { state.system.watch with
            inflight := path.components :: state.system.watch.inflight }
          tasks := Function.update state.system.tasks path.components
            (some { path, rest := ingest P config path polls reads }) }
        seen := state.seen } := by
  refine ⟨fun key => ?_, inv.scanner, inv.notifier, fun key => ?_⟩
  · by_cases own : key = path.components
    · simp [own]
    · simpa [own] using inv.inflight key
  · obtain ⟨known, ingests, holds⟩ := inv.paths key
    by_cases own : key = path.components
    · subst own
      have none_there : state.system.tasks path.components = none :=
        Option.not_isSome_iff_eq_none.mp (mt (inv.inflight path.components).mpr idle)
      rw [none_there] at ingests
      obtain rfl : known = .start := ingests
      refine ⟨.start, ?_, holds⟩
      simp only [Function.update_self]
      exact ⟨rfl, getD_fileName path ▸ ingest_safe path polls reads⟩
    · refine ⟨known, ?_, holds⟩
      simp only [Function.update_of_ne own]
      exact ingests

theorem Inv.ended (inv : Inv P careful state) {key : Key} {path : PathBuf}
    {result : Except EngineError Unit}
    (present : state.system.tasks key = some { path, rest := .done result }) :
    Inv P careful
      { system := { state.system with
          watch := { state.system.watch with
            inflight := state.system.watch.inflight.filter (· ≠ key) }
          tasks := Function.update state.system.tasks key none }
        seen := state.seen } := by
  refine ⟨fun other => ?_, inv.scanner, inv.notifier, fun other => ?_⟩
  · by_cases own : other = key
    · simp [own]
    · simpa [own] using inv.inflight other
  · obtain ⟨known, ingests, holds⟩ := inv.paths other
    by_cases own : other = key
    · subst own
      rw [present] at ingests
      have done : known.Settled := ingests.2
      refine ⟨.start, ?_, Tracks.start, fun carefully settled =>
        (holds.settles carefully settled).rest done⟩
      simp only [Function.update_self]
      rfl
    · refine ⟨known, ?_, holds⟩
      simp only [Function.update_of_ne own]
      exact ingests

theorem Inv.called (inv : Inv P careful state) {key : Key} {path : PathBuf} {asked : WatchCall}
    {rest : asked.Answer → Action (Except EngineError Unit)}
    (present : state.system.tasks key = some { path, rest := .call asked rest }) :
    Inv P careful
      { system := { state.system with
          watch := (state.system.watch.perform P config chance asked).2
          tasks := Function.update state.system.tasks key
            (some { path, rest := rest (state.system.watch.perform P config chance asked).1 }) }
        seen := state.seen.task state.system.watch
          (state.system.watch.perform P config chance asked).2 key asked } := by
  obtain ⟨own, ingests, holds⟩ := inv.paths key
  rw [present] at ingests
  obtain ⟨rfl, allowed, goes_on⟩ := ingests
  refine ⟨fun other => ?_, inv.scanner, inv.notifier, fun other => ?_⟩
  · simp only [perform_inflight]
    by_cases same : other = path.components
    · subst same
      simpa [present] using inv.inflight path.components
    · simpa [same] using inv.inflight other
  · by_cases same : other = path.components
    · subst same
      refine ⟨own.advance asked (state.system.watch.perform P config chance asked).1, ?_,
        holds.call asked allowed⟩
      simp only [Function.update_self]
      exact ⟨rfl, goes_on _⟩
    · obtain ⟨known, others, there⟩ := inv.paths other
      refine ⟨known, ?_, ?_⟩
      · simp only [Function.update_of_ne same]
        exact others
      · simp only [view_other asked allowed same]
        exact there.touch Touch.same (archived_perform asked)

theorem Inv.step {move : Move} (inv : Inv P careful state)
    (taken : state.step P config move = some next) (forgets : Forgets careful state move) :
    Inv P careful next := by
  obtain ⟨system, moved, rfl⟩ := Option.map_eq_some_iff.mp taken
  cases move with
  | change change =>
      cases moved
      exact inv.touch rfl (by cases change <;> rfl)
        (by cases change <;> exact List.Subset.refl _) inv.scanner inv.notifier
        fun key => touch_change change
  | beginPass entries =>
      simp only [System.step] at moved
      split at moved
      · cases moved
      · cases moved
        exact inv.touch rfl rfl (List.Subset.refl _)
          (fun action same => Option.some.inj same ▸ scanPass_uses entries) inv.notifier
          fun key => Touch.same
  | event paths =>
      simp only [System.step] at moved
      split at moved
      · cases moved
      · cases moved
        exact inv.touch rfl rfl (List.Subset.refl _) inv.scanner
          (fun action same => Option.some.inj same ▸
            uses_notifyEvent (fun _ => trivial) (fun _ => trivial) paths) fun key => Touch.same
  | drain =>
      simp only [System.step] at moved
      split at moved
      · cases moved
      · cases moved
        exact inv.touch rfl rfl (List.Subset.refl _) inv.scanner inv.notifier fun key => Touch.same
  | dispatch polls reads =>
      simp only [System.step] at moved
      split at moved
      · cases moved
      · split at moved
        · cases moved
          exact inv.touch rfl rfl (List.Subset.refl _) inv.scanner inv.notifier
            fun key => Touch.same
        · rename_i path batch _ idle
          cases moved
          exact inv.dispatch path batch polls reads (by simpa using idle)
  | scanner chance =>
      simp only [System.step] at moved
      split at moved
      · cases moved
      · rename_i value present
        cases moved
        have noted : state.seen.next state.system (.scanner chance)
            { state.system with scanner := none } = state.seen := by
          simp only [Observed.next, System.asks, present, Option.bind_some, next?]
        rw [noted]
        exact inv.touch rfl rfl (List.Subset.refl _) nofun inv.notifier fun key => Touch.same
      · rename_i asked rest present
        cases moved
        have scans := inv.scanner _ present
        have asks : state.system.asks (.scanner chance) = some asked := by
          simp only [System.asks, present, Option.bind_some, next?]
        rw [show state.seen.next state.system (.scanner chance) _ =
          state.seen.scanner state.system.watch chance asked by simp only [Observed.next, asks]]
        refine inv.touch rfl (perform_inflight P config chance _ asked) (archived_perform asked)
          (fun action same => Option.some.inj same ▸ scans.2 _) inv.notifier fun key =>
            touch_scanner asked scans.1 fun path same => ?_
        exact forgets chance path rfl (same ▸ asks)
  | notifier chance =>
      simp only [System.step] at moved
      split at moved
      · cases moved
      · cases moved
        exact inv.touch rfl rfl (List.Subset.refl _) inv.scanner nofun fun key => Touch.same
      · rename_i asked rest present
        cases moved
        obtain ⟨notifies, goes_on⟩ := inv.notifier _ present
        have noted : ∀ later, state.seen.next state.system (.notifier chance) later = state.seen :=
          fun _ => rfl
        rw [noted]
        refine inv.touch rfl (perform_inflight P config chance _ asked) (archived_perform asked)
          inv.scanner (fun action same => Option.some.inj same ▸ goes_on _) fun key => ?_
        have kept : view (state.system.watch.perform P config chance asked).2 state.seen key =
            view state.system.watch state.seen key := by
          cases asked with
          | lstat | enqueue => exact view_perform _ rfl rfl rfl
          | _ => exact notifies.elim
        rw [kept]
        exact Touch.same
  | task key chance =>
      simp only [System.step] at moved
      split at moved
      · cases moved
      · rename_i path result present
        cases moved
        have noted : ∀ later, state.seen.next state.system (.task key chance) later = state.seen := by
          intro later
          simp only [Observed.next, System.asks, present, Option.bind_some, next?]
        rw [noted]
        exact inv.ended present
      · rename_i path asked rest present
        cases moved
        have asks : state.system.asks (.task key chance) = some asked := by
          simp only [System.asks, present, Option.bind_some, next?]
        have noted : ∀ later, state.seen.next state.system (.task key chance) later =
            state.seen.task state.system.watch later.watch key asked := by
          intro later
          simp only [Observed.next, asks]
        rw [noted]
        exact inv.called present

end Syntra.Watcher

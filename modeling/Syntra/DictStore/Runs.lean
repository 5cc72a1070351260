import Mathlib.Data.List.Perm.Basic
import Syntra.DictStore.Ids
import Syntra.Lib.Index

/-!
# Runs of the dictionary store

The files of the directory are what `train` wrote, one for each class, and
everything the store holds in memory is read off the directory.  Every
operation keeps this, so what was active once is on disk ever after, and the
only question left is whether its id is one the store looks up.
-/

set_option autoImplicit false

namespace Syntra

open Text

namespace DictStore

/-- The operations on the store, with the clock and the outcomes of the outside
calls they make.  A restart lists the directory in some order. -/
inductive Move where
  | observe (contentClass : String) (data : Bytes) (mtime : Nat) (online written : Bool)
  | activeFor (contentClass : String)
  | resolve (id : String) (mtime : Nat) (online written : Bool)
  | restart (enabled : Bool) (entries : List DictFile)

variable (P : Platform)

def step (store : DictStore) : Move → Option DictStore
  | .observe contentClass data mtime online written =>
    some (observe P store contentClass data mtime online written)
  | .activeFor _ => some store
  | .resolve id mtime online written => some (resolve P store id mtime online written).2
  | .restart enabled entries =>
    if entries.isPerm store.disk then some (load P enabled store.redis entries) else none

def opened (enabled clustered : Bool) : DictStore :=
  load P enabled (if clustered then some fun _ => none else none) []

/-! ## The invariant -/

def ofFile (file : DictFile) : Dictionary :=
  { id := file.id, digest := P.blake3 file.bytes, bytes := file.bytes }

structure TrainedFiles (files : List DictFile) : Prop where
  trained : ∀ file ∈ files, ∃ key, file.id = (Dictionary.new P key file.bytes).id
  oneForClass : ∀ file ∈ files, ∀ other ∈ files, classOfId file.id = classOfId other.id →
    file = other

structure Coherent (store : DictStore) : Prop where
  files : TrainedFiles P store.disk
  memory : Index.Reads store.byId store.disk (·.id) (ofFile P)
  current : Index.Reads store.active store.disk (classOfId ·.id) (ofFile P)
  published : ∀ content, store.redis = some content → ∀ id bytes, content id = some bytes →
    ∃ file ∈ store.disk, file.id = id

variable {P}

theorem TrainedFiles.of_subset {files fewer : List DictFile} (trained : TrainedFiles P files)
    (subset : ∀ file ∈ fewer, file ∈ files) : TrainedFiles P fewer where
  trained file member := trained.trained file (subset file member)
  oneForClass file member other present :=
    trained.oneForClass file (subset file member) other (subset other present)

theorem TrainedFiles.oneForId {files : List DictFile} (trained : TrainedFiles P files)
    {file other : DictFile} (member : file ∈ files) (present : other ∈ files)
    (same : file.id = other.id) : file = other :=
  trained.oneForClass file member other present (by rw [same])

theorem TrainedFiles.checked {files : List DictFile} (trained : TrainedFiles P files)
    {file : DictFile} (member : file ∈ files) :
    checkedDictionary P file.id file.bytes = some (ofFile P file) := by
  obtain ⟨key, id⟩ := trained.trained file member
  have accepted := checkedDictionary_new P key file.bytes
  rw [← id] at accepted
  rw [accepted, ofFile, id]
  rfl

/-! ## Opening -/

/-- By induction on the files listed so far: memory holds each of them, and each
class has chosen its only file. -/
theorem foldl_loadEntry (files : List DictFile) (trained : TrainedFiles P files) :
    Index.Reads (files.foldl (loadEntry P) (fun _ => none, fun _ => none)).1 files (·.id)
      (ofFile P) ∧
    Index.Reads (files.foldl (loadEntry P) (fun _ => none, fun _ => none)).2 files
      (classOfId ·.id) (fun file => (file.mtime, file.id)) := by
  induction files using List.reverseRecOn with
  | nil => exact ⟨Index.reads_nil _ _, Index.reads_nil _ _⟩
  | append_singleton files file ih =>
      have last : file ∈ files ++ [file] := by simp
      have before : ∀ other ∈ files, other ∈ files ++ [file] := by simp +contextual
      obtain ⟨memory, newest⟩ := ih (trained.of_subset before)
      rw [List.foldl_append]
      generalize files.foldl (loadEntry P) (fun _ => none, fun _ => none) = found at memory newest
      simp only [List.foldl_cons, List.foldl_nil, loadEntry, trained.checked last]
      refine ⟨memory.add file fun other member => trained.oneForId (before other member) last, ?_⟩
      split
      · exact newest.add file fun other member =>
          trained.oneForClass other (before other member) file last
      · rename_i kept
        -- a class that keeps its choice has seen this very file
        cases chosen : found.2 (classOfId file.id) with
        | none => simp [chosen] at kept
        | some choice =>
            obtain ⟨other, member, same, -⟩ := (newest _ _).mp chosen
            have equal := trained.oneForClass other (before other member) file last same
            subst equal
            exact newest.of_mem_iff (by simp +contextual [member])

theorem coherent_load (enabled : Bool) (redis : Option (String → Option Bytes))
    (entries : List DictFile) (trained : TrainedFiles P entries)
    (published : ∀ content, redis = some content → ∀ id bytes, content id = some bytes →
      ∃ file ∈ entries, file.id = id) :
    Coherent P (load P enabled redis entries) := by
  obtain ⟨memory, newest⟩ := foldl_loadEntry entries trained
  refine ⟨trained, memory, fun key dict => ?_, published⟩
  simp only [load, Option.bind_eq_some_iff]
  constructor
  · rintro ⟨chosen, choice, found⟩
    obtain ⟨file, member, same, rfl⟩ := (newest _ _).mp choice
    rw [memory.lookup member] at found
    exact ⟨file, member, same, (Option.some.inj found).symm⟩
  · rintro ⟨file, member, rfl, rfl⟩
    exact ⟨_, newest.lookup member, memory.lookup member⟩

theorem coherent_opened (enabled clustered : Bool) : Coherent P (opened P enabled clustered) := by
  refine coherent_load enabled _ [] ⟨by simp, by simp⟩ ?_
  intro content configured id bytes present
  cases clustered with
  | false => simp at configured
  | true =>
      simp only [if_true, Option.some.injEq] at configured
      rw [← configured] at present
      simp at present

/-! ## Looking up -/

/-- Memory answers for the whole directory, so the other places are never asked. -/
theorem Coherent.resolve_eq {store : DictStore} (coherent : Coherent P store) (id : String)
    (mtime : Nat) (online written : Bool) :
    resolve P store id mtime online written =
      (if isValidId id then store.byId id else none, store) := by
  by_cases valid : isValidId id = true
  · cases remembered : store.byId id with
    | some dict => simp [resolve, valid, remembered]
    | none =>
        have absent : ∀ file ∈ store.disk, file.id ≠ id := by
          rintro file member rfl
          rw [coherent.memory.lookup member] at remembered
          simp at remembered
        have noFile : readFile store.disk id = none := by
          rw [readFile, Option.map_eq_none_iff, List.find?_eq_none]
          exact fun file member => by simpa using absent file member
        have noAnswer : (if online then store.redis.bind (· id) else none) = none := by
          cases online with
          | false => rfl
          | true =>
              cases configured : store.redis with
              | none => rfl
              | some content =>
                  cases answer : content id with
                  | none => simp [answer]
                  | some bytes =>
                      obtain ⟨file, member, same⟩ :=
                        coherent.published content configured id bytes answer
                      exact absurd same (absent file member)
        simp [resolve, valid, remembered, noFile, noAnswer]
  · simp [resolve, valid]

/-! ## Training -/

def trainedStore (store : DictStore) (samples : String → Option SampleBuf)
    (disk : List DictFile) (key : String) (dict : Dictionary) (online : Bool) : DictStore :=
  publish { store with
    samples
    disk
    byId := Function.update store.byId dict.id (some dict)
    active := Function.update store.active key (some dict) } dict online

/-- All that training can do: change samples, or add one dictionary everywhere. -/
theorem train_cases (store : DictStore) (key : String) (mtime : Nat) (online written : Bool) :
    (∃ samples, train P store key mtime online written = { store with samples }) ∨
      ∃ samples bytes disk,
        writeFile store.disk (Dictionary.new P key bytes).id bytes mtime written = (disk, true) ∧
        train P store key mtime online written =
          trainedStore store samples disk key (Dictionary.new P key bytes) online := by
  unfold train
  split
  · exact Or.inl ⟨store.samples, rfl⟩
  · split
    · exact Or.inl ⟨store.samples, rfl⟩
    · dsimp only
      split
      · exact Or.inl ⟨_, rfl⟩
      · rename_i bytes _
        split
        · exact Or.inl ⟨_, rfl⟩
        · split
          · exact Or.inl ⟨_, rfl⟩
          · rename_i disk write
            exact Or.inr ⟨_, bytes, disk, write, rfl⟩

theorem observe_cases (store : DictStore) (contentClass : String) (data : Bytes) (mtime : Nat)
    (online written : Bool) :
    (∃ samples, observe P store contentClass data mtime online written = { store with samples }) ∨
      store.active (sanitize contentClass) = none ∧ ∃ samples bytes disk,
        writeFile store.disk (Dictionary.new P (sanitize contentClass) bytes).id bytes mtime
          written = (disk, true) ∧
        observe P store contentClass data mtime online written =
          trainedStore store samples disk (sanitize contentClass)
            (Dictionary.new P (sanitize contentClass) bytes) online := by
  unfold observe
  split
  · exact Or.inl ⟨store.samples, rfl⟩
  · dsimp only
    split
    · exact Or.inl ⟨store.samples, rfl⟩
    · rename_i inactive
      have none_active : store.active (sanitize contentClass) = none := by simpa using inactive
      split
      · rcases train_cases (P := P) _ (sanitize contentClass) mtime online written with
          ⟨samples, same⟩ | ⟨samples, bytes, disk, write, same⟩
        · exact Or.inl ⟨samples, same⟩
        · exact Or.inr ⟨none_active, samples, bytes, disk, write, same⟩
      · exact Or.inl ⟨_, rfl⟩

theorem Coherent.writeFile_fresh {store : DictStore} (coherent : Coherent P store)
    (key : String) (bytes : Bytes) (mtime : Nat) (written : Bool) (disk : List DictFile)
    (inactive : store.active (sanitize key) = none)
    (write : writeFile store.disk (Dictionary.new P key bytes).id bytes mtime written =
      (disk, true)) :
    disk = store.disk ++ [⟨(Dictionary.new P key bytes).id, bytes, mtime⟩] ∧
      ∀ file ∈ store.disk, classOfId file.id ≠ sanitize key := by
  have otherClass : ∀ file ∈ store.disk, classOfId file.id ≠ sanitize key := by
    intro file member same
    rw [← same, coherent.current.lookup member] at inactive
    simp at inactive
  have noFile : readFile store.disk (Dictionary.new P key bytes).id = none := by
    rw [readFile, Option.map_eq_none_iff, List.find?_eq_none]
    intro file member
    simp only [decide_eq_true_eq]
    intro same
    exact otherClass file member (by rw [same, classOfId_new])
  rw [writeFile, noFile] at write
  cases written with
  | false => simp at write
  | true => exact ⟨by simpa using write.symm, otherClass⟩

theorem coherent_trainedStore {store : DictStore} (coherent : Coherent P store)
    (samples : String → Option SampleBuf) (key : String) (bytes : Bytes) (mtime : Nat)
    (online : Bool) (plain : sanitize key = key)
    (otherClass : ∀ file ∈ store.disk, classOfId file.id ≠ key) :
    Coherent P (trainedStore store samples
      (store.disk ++ [⟨(Dictionary.new P key bytes).id, bytes, mtime⟩]) key
      (Dictionary.new P key bytes) online) := by
  let file : DictFile := ⟨(Dictionary.new P key bytes).id, bytes, mtime⟩
  have ofClass : classOfId file.id = key := (classOfId_new P key bytes).trans plain
  have fresh : ∀ other ∈ store.disk, classOfId other.id = classOfId file.id → other = file :=
    fun other member same => absurd (same.trans ofClass) (otherClass other member)
  have files : TrainedFiles P (store.disk ++ [file]) := by
    refine ⟨fun other member => ?_, fun first member second present same => ?_⟩
    · rcases List.mem_append.mp member with before | last
      · exact coherent.files.trained other before
      · rw [List.mem_singleton.mp last]
        exact ⟨key, rfl⟩
    · rcases List.mem_append.mp member with before | last <;>
        rcases List.mem_append.mp present with before' | last'
      · exact coherent.files.oneForClass first before second before' same
      · rw [List.mem_singleton.mp last'] at same ⊢
        exact fresh first before same
      · rw [List.mem_singleton.mp last] at same ⊢
        exact (fresh second before' same.symm).symm
      · rw [List.mem_singleton.mp last, List.mem_singleton.mp last']
  have memory := coherent.memory.add file
    fun other member same => fresh other member (by rw [same])
  have current := coherent.current.add file fresh
  rw [ofClass] at current
  have published : ∀ content, store.redis = some content → ∀ id bytes,
      content id = some bytes → ∃ other ∈ store.disk ++ [file], other.id = id := by
    intro content configured id bytes present
    obtain ⟨other, member, same⟩ := coherent.published content configured id bytes present
    exact ⟨other, by simp [member], same⟩
  cases online with
  | false => exact ⟨files, memory, current, published⟩
  | true =>
      refine ⟨files, memory, current, ?_⟩
      intro content configured id found present
      rw [trainedStore, publish, if_pos rfl, Option.map_eq_some_iff] at configured
      obtain ⟨before, configuredBefore, rfl⟩ := configured
      by_cases same : id = file.id
      · exact ⟨file, List.mem_append_right _ (List.mem_singleton.mpr rfl), same.symm⟩
      · rw [Function.update_of_ne same] at present
        exact published before configuredBefore id found present

/-! ## Steps and runs -/

theorem step_keeps (store next : DictStore) (move : Move) (coherent : Coherent P store)
    (taken : step P store move = some next) :
    Coherent P next ∧ ∀ file ∈ store.disk, file ∈ next.disk := by
  cases move with
  | observe contentClass data mtime online written =>
      obtain rfl := Option.some.inj taken
      rcases observe_cases (P := P) store contentClass data mtime online written with
        ⟨samples, same⟩ | ⟨inactive, samples, bytes, disk, write, same⟩
      · rw [same]
        exact ⟨⟨coherent.files, coherent.memory, coherent.current, coherent.published⟩,
          fun file member => member⟩
      · obtain ⟨rfl, otherClass⟩ := coherent.writeFile_fresh (sanitize contentClass) bytes mtime
          written disk (by rwa [sanitize_sanitize]) write
        rw [sanitize_sanitize] at otherClass
        rw [same]
        refine ⟨coherent_trainedStore coherent samples _ bytes mtime online
          (sanitize_sanitize _) otherClass, fun file member => ?_⟩
        cases online <;> simp [trainedStore, publish, member]
  | activeFor contentClass =>
      obtain rfl := Option.some.inj taken
      exact ⟨coherent, fun file member => member⟩
  | resolve id mtime online written =>
      obtain rfl := Option.some.inj taken
      rw [coherent.resolve_eq]
      exact ⟨coherent, fun file member => member⟩
  | restart enabled entries =>
      rw [step] at taken
      split at taken
      · rename_i listed
        obtain rfl := Option.some.inj taken
        have permuted := List.isPerm_iff.mp listed
        have same : ∀ file, file ∈ store.disk ↔ file ∈ entries := fun file => permuted.mem_iff.symm
        refine ⟨coherent_load enabled store.redis entries
          (coherent.files.of_subset fun file member => (same file).mpr member) ?_,
          fun file member => (same file).mp member⟩
        intro content configured id bytes present
        obtain ⟨file, member, equal⟩ := coherent.published content configured id bytes present
        exact ⟨file, (same file).mp member, equal⟩
      · simp at taken

theorem run_keeps (store final : DictStore) (moves : List Move) (coherent : Coherent P store)
    (run : Run.exec (step P) store moves = some final) :
    Coherent P final ∧ ∀ file ∈ store.disk, file ∈ final.disk :=
  Run.invariant (fun _ _ => True)
    (fun later => Coherent P later ∧ ∀ file ∈ store.disk, file ∈ later.disk)
    (fun later move next kept _ taken =>
      have preserved := step_keeps later next move kept.1 taken
      ⟨preserved.1, fun file member => preserved.2 file (kept.2 file member)⟩)
    store final moves ⟨coherent, fun _ member => member⟩ (Run.meets_true store moves) run

end DictStore

end Syntra

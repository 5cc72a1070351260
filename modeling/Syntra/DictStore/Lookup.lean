import Syntra.DictStore.Runs
import Syntra.FramingPlatform

/-!
# Finding the active dictionary again

`active_for` hands out a dictionary of any class, `resolve` looks up ids of at
most 128 bytes.
-/

set_option autoImplicit false

namespace Syntra

namespace DictStore

variable {P : Platform}

theorem Coherent.activeFor_file {store : DictStore} (coherent : Coherent P store)
    {contentClass : String} {dict : Dictionary}
    (active : activeFor store contentClass = some dict) :
    ∃ file ∈ store.disk, dict = ofFile P file ∧
      (isValidId file.id = true ↔ contentClass.length ≤ 111) := by
  have current : store.active (sanitize contentClass) = some dict := by
    rw [activeFor] at active
    split at active
    · simp at active
    · exact active
  obtain ⟨file, member, ofClass, rfl⟩ := (coherent.current _ _).mp current
  obtain ⟨key, id⟩ := coherent.files.trained file member
  refine ⟨file, member, rfl, ?_⟩
  have sameLength : key.length = contentClass.length := by
    have sameClass : sanitize key = sanitize contentClass := by
      rw [← classOfId_new P key file.bytes, ← id]
      exact ofClass
    rw [← length_sanitize key, sameClass, length_sanitize]
  rw [id, isValidId_new, sameLength]

theorem Coherent.resolve_file {store : DictStore} (coherent : Coherent P store)
    {file : DictFile} (member : file ∈ store.disk) (mtime : Nat) (online written : Bool) :
    (resolve P store file.id mtime online written).1 =
      if isValidId file.id then some (ofFile P file) else none := by
  rw [coherent.resolve_eq, coherent.memory.lookup member]

/-! ## A class that is trained -/

def waiting (store : DictStore) (key : String) (page : Bytes) (count : Nat) : DictStore :=
  { store with
    samples := Function.update store.samples key
      (some ⟨List.replicate count page, count * page.length⟩) }

/-- A class without a dictionary and a page of a size that twelve of make a
training, and that the budget holds. -/
structure Trainable (store : DictStore) (contentClass : String) (page : Bytes) : Prop where
  enabled : store.enabled = true
  named : contentClass ≠ ""
  inactive : store.active (sanitize contentClass) = none
  large : minSampleBytes ≤ minSamples * page.length
  small : page.length ≤ sampleMax

theorem Trainable.filled {store : DictStore} {contentClass : String} {page : Bytes}
    (trainable : Trainable store contentClass page) : page ≠ [] := by
  rintro rfl
  exact absurd trainable.large (by decide)

theorem Trainable.push_page {store : DictStore} {contentClass : String} {page : Bytes}
    (trainable : Trainable store contentClass page) (count : Nat) (few : count < minSamples) :
    SampleBuf.push ⟨List.replicate count page, count * page.length⟩ page =
      ⟨List.replicate (count + 1) page, (count + 1) * page.length⟩ := by
  have budget : (count + 1) * page.length ≤ dictSampleBudget :=
    calc (count + 1) * page.length
        ≤ minSamples * sampleMax := Nat.mul_le_mul few trainable.small
      _ ≤ dictSampleBudget := by decide
  rw [Nat.succ_mul] at budget ⊢
  rw [SampleBuf.push, if_pos budget, ← List.replicate_succ']

theorem Trainable.observe_eq {store : DictStore} {contentClass : String} {page : Bytes}
    (trainable : Trainable store contentClass page) (count : Nat) (few : count < minSamples)
    (buffered : (store.samples (sanitize contentClass)).getD SampleBuf.empty =
      ⟨List.replicate count page, count * page.length⟩) (mtime : Nat) (online written : Bool) :
    observe P store contentClass page mtime online written =
      if count + 1 = minSamples then
        train P (waiting store (sanitize contentClass) page (count + 1))
          (sanitize contentClass) mtime online written
      else waiting store (sanitize contentClass) page (count + 1) := by
  have refused : (!store.enabled || decide (contentClass = "") || page.isEmpty) = false := by
    simp [trainable.enabled, trainable.named, trainable.filled]
  have sample : page.take sampleMax = page := List.take_of_length_le trainable.small
  have ready : (minSamples ≤ count + 1 ∧ minSampleBytes ≤ (count + 1) * page.length) ↔
      count + 1 = minSamples := by
    constructor
    · rintro ⟨enough, -⟩
      omega
    · intro full
      exact ⟨full.ge, full ▸ trainable.large⟩
  simp only [observe, refused, trainable.inactive, sample, buffered,
    trainable.push_page count few, List.length_replicate, ready, waiting, Option.isSome_none,
    Bool.false_eq_true, if_false]

theorem Trainable.run_waiting {store : DictStore} {contentClass : String} {page : Bytes}
    (trainable : Trainable store contentClass page) (mtime : Nat) (online written : Bool)
    (count more : Nat) (few : count + more < minSamples) :
    Run.exec (step P) (waiting store (sanitize contentClass) page count)
      (List.replicate more (.observe contentClass page mtime online written)) =
      some (waiting store (sanitize contentClass) page (count + more)) := by
  induction more generalizing count with
  | zero => rfl
  | succ more ih =>
      have again : Trainable (waiting store (sanitize contentClass) page count) contentClass
          page := ⟨trainable.enabled, trainable.named, trainable.inactive, trainable.large,
        trainable.small⟩
      have next : step P (waiting store (sanitize contentClass) page count)
          (.observe contentClass page mtime online written) =
          some (waiting store (sanitize contentClass) page (count + 1)) := by
        rw [step, again.observe_eq count (by omega) (by simp [waiting]), if_neg (by omega)]
        simp [waiting]
      rw [List.replicate_succ, Run.exec, next, Option.bind_some, ih (count + 1) (by omega),
        Nat.add_right_comm, Nat.add_assoc]

theorem train_waiting (store : DictStore) (key : String) (page bytes : Bytes)
    (learned : P.zstdTrain (List.replicate minSamples page)
      (max dictMinSize (min dictMaxSize (minSamples * page.length / sampleToDictRatio))) =
      some bytes) (filled : bytes ≠ [])
    (fresh : readFile store.disk (Dictionary.new P key bytes).id = none) (mtime : Nat)
    (online : Bool) :
    ∃ samples disk, train P (waiting store key page minSamples) key mtime online true =
      trainedStore store samples disk key (Dictionary.new P key bytes) online := by
  have write : writeFile store.disk (Dictionary.new P key bytes).id
      (Dictionary.new P key bytes).bytes mtime true =
      (store.disk ++ [⟨(Dictionary.new P key bytes).id, bytes, mtime⟩], true) := by
    rw [writeFile, fresh]
    rfl
  have nonempty : bytes.isEmpty = false := List.isEmpty_eq_false_iff.mpr filled
  refine ⟨Function.update (waiting store key page minSamples).samples key (some SampleBuf.empty),
    store.disk ++ [⟨(Dictionary.new P key bytes).id, bytes, mtime⟩], ?_⟩
  simp only [train, waiting, Function.update_self, List.length_replicate, lt_irrefl, if_false,
    learned, nonempty, Bool.false_eq_true, write]
  rfl

/-- Twelve pages make a dictionary active, when training and writing succeed. -/
theorem Trainable.run_active {store : DictStore} {contentClass : String} {page : Bytes}
    (trainable : Trainable store contentClass page)
    (unseen : store.samples (sanitize contentClass) = none) (bytes : Bytes)
    (learned : P.zstdTrain (List.replicate minSamples page)
      (max dictMinSize (min dictMaxSize (minSamples * page.length / sampleToDictRatio))) =
      some bytes) (filled : bytes ≠ [])
    (fresh : readFile store.disk (Dictionary.new P (sanitize contentClass) bytes).id = none)
    (mtime : Nat) (online : Bool) :
    ∃ final, Run.exec (step P) store
        (List.replicate minSamples (.observe contentClass page mtime online true)) =
        some final ∧
      activeFor final contentClass =
        some (Dictionary.new P (sanitize contentClass) bytes) := by
  let key := sanitize contentClass
  have first : step P store (.observe contentClass page mtime online true) =
      some (waiting store key page 1) := by
    rw [step, trainable.observe_eq 0 (by decide) (by rw [unseen]; simp [SampleBuf.empty]),
      if_neg (by decide)]
  have middle := trainable.run_waiting (P := P) mtime online true 1 10 (by decide)
  have full : Trainable (waiting store key page 11) contentClass page :=
    ⟨trainable.enabled, trainable.named, trainable.inactive, trainable.large, trainable.small⟩
  have last := full.observe_eq (P := P) 11 (by decide) (by simp [waiting, key]) mtime online true
  rw [if_pos (show 11 + 1 = minSamples from rfl)] at last
  obtain ⟨samples, disk, trained⟩ := train_waiting (waiting store key page 11) key page bytes
    learned filled fresh mtime online
  refine ⟨trainedStore (waiting store key page 11) samples disk key
    (Dictionary.new P key bytes) online, ?_, ?_⟩
  · have moves : List.replicate minSamples (Move.observe contentClass page mtime online true) =
        .observe contentClass page mtime online true ::
          (List.replicate 10 (.observe contentClass page mtime online true) ++
            [.observe contentClass page mtime online true]) := rfl
    rw [moves, Run.exec, first, Option.bind_some, Run.exec_append, middle, Option.bind_some,
      Run.exec, step, last]
    exact congrArg some trained
  · have current : (trainedStore (waiting store key page 11) samples disk key
        (Dictionary.new P key bytes) online).active key = some (Dictionary.new P key bytes) := by
      cases online <;> simp [trainedStore, publish]
    have enabled : (trainedStore (waiting store key page 11) samples disk key
        (Dictionary.new P key bytes) online).enabled = true := by
      cases online <;> simp [trainedStore, publish, waiting, trainable.enabled]
    simp only [activeFor, enabled, trainable.named, Bool.not_true, Bool.false_or,
      decide_false, Bool.false_eq_true, if_false]
    exact current

def pagesOf (contentClass : String) : List Move :=
  List.replicate minSamples (.observe contentClass (List.replicate 4096 0) 0 false true)

theorem pagesOf_active (contentClass : String) (named : contentClass ≠ "") :
    ∃ store, Run.exec (step framingPlatform) (opened framingPlatform true false)
        (pagesOf contentClass) = some store ∧
      activeFor store contentClass =
        some (Dictionary.new framingPlatform (sanitize contentClass) [1]) := by
  have trainable : Trainable (opened framingPlatform true false) contentClass
      (List.replicate 4096 0) := by
    refine ⟨rfl, named, rfl, ?_, ?_⟩ <;> rw [List.length_replicate] <;> decide
  exact trainable.run_active rfl [1] rfl (by simp) rfl 0 false

/-! ## The class decides -/

/-- Whether a dictionary that was active is found for ever after is decided by
the length of its class. -/
theorem resolve_active_iff (P : Platform) (enabled clustered : Bool) (moves : List Move)
    (store : DictStore) (contentClass : String) (dict : Dictionary)
    (run : Run.exec (step P) (opened P enabled clustered) moves = some store)
    (active : activeFor store contentClass = some dict) :
    (∀ (later : List Move) (final : DictStore) (mtime : Nat) (online written : Bool),
      Run.exec (step P) store later = some final →
      ∃ again, (resolve P final dict.id mtime online written).1 = some again ∧
        again.bytes = dict.bytes ∧ again.digest = dict.digest) ↔
      contentClass.length ≤ 111 := by
  have coherent := (run_keeps _ store moves (coherent_opened enabled clustered) run).1
  obtain ⟨file, member, rfl, valid⟩ := coherent.activeFor_file active
  rw [← valid]
  constructor
  · intro found
    obtain ⟨again, here, -⟩ := found [] store 0 false false rfl
    rw [ofFile, coherent.resolve_file member] at here
    by_contra invalid
    simp [invalid] at here
  · intro accepted later final mtime online written laterRun
    obtain ⟨coherentFinal, kept⟩ := run_keeps store final later coherent laterRun
    refine ⟨ofFile P file, ?_, rfl, rfl⟩
    rw [ofFile, coherentFinal.resolve_file (kept file member), if_pos accepted]
    rfl

/-- A class the client may send, one character too long. -/
def longClass : String := String.ofList (List.replicate 112 'a')

theorem resolve_active_iff_csv :
    ∃ store dict, Run.exec (step framingPlatform) (opened framingPlatform true false)
        (pagesOf "text/csv") = some store ∧ activeFor store "text/csv" = some dict ∧
      ((∀ (later : List Move) (final : DictStore) (mtime : Nat) (online written : Bool),
        Run.exec (step framingPlatform) store later = some final →
        ∃ again, (resolve framingPlatform final dict.id mtime online written).1 = some again ∧
          again.bytes = dict.bytes ∧ again.digest = dict.digest) ↔ "text/csv".length ≤ 111) := by
  obtain ⟨store, run, active⟩ := pagesOf_active "text/csv" (by decide)
  exact ⟨store, _, run, active,
    resolve_active_iff framingPlatform true false (pagesOf "text/csv") store "text/csv" _ run
      active⟩

/-- The dictionary of the long class is active and is not found by its id. -/
theorem longClass_not_resolved :
    ∃ store dict, Run.exec (step framingPlatform) (opened framingPlatform true false)
        (pagesOf longClass) = some store ∧ activeFor store longClass = some dict ∧
      (resolve framingPlatform store dict.id 0 false true).1 = none := by
  obtain ⟨store, run, active⟩ := pagesOf_active longClass (by decide)
  refine ⟨store, _, run, active, ?_⟩
  have invalid : isValidId (Dictionary.new framingPlatform (sanitize longClass) [1]).id =
      false := by
    rw [← Bool.not_eq_true, isValidId_new, ← String.length_toList, length_sanitize]
    decide
  simp [resolve, invalid]

end DictStore

end Syntra

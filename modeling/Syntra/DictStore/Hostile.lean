import Syntra.DictStore.Ids
import Syntra.FramingPlatform

/-!
# Dictionaries from outside

The directory and Redis may hold anything at any moment.  What the store takes
into memory names the hash of its bytes, so an id stands for the same bytes for
as long as no two byte strings share the first eight bytes of their hashes.
-/

set_option autoImplicit false

namespace Syntra

open Text

/-! ## Entries and samples -/

/-- An entry under `id` carries the hash of its bytes, and the first eight bytes of
that end the id. -/
structure Dictionary.Genuine (P : Platform) (id : String) (dict : Dictionary) : Prop where
  named : dict.id = id
  hashed : dict.digest = P.blake3 dict.bytes
  suffix : endsWith id (digestSuffix dict.digest) = true

structure SampleBuf.Counted (buf : SampleBuf) : Prop where
  total : buf.bytes = (buf.items.map List.length).sum
  budget : buf.bytes ≤ dictSampleBudget

theorem SampleBuf.counted_empty : SampleBuf.empty.Counted := ⟨rfl, Nat.zero_le _⟩

theorem SampleBuf.Counted.push {buf : SampleBuf} (counted : buf.Counted) (sample : Bytes) :
    (buf.push sample).Counted := by
  unfold SampleBuf.push
  split
  · rename_i fits
    refine ⟨?_, fits⟩
    rw [List.map_append, List.sum_append, counted.total]
    rfl
  · exact counted

/-- Two byte strings whose hashes begin with the same eight bytes. -/
def Platform.Collide (P : Platform) (first second : Bytes) : Prop :=
  first ≠ second ∧ (P.blake3 first).val.take 8 = (P.blake3 second).val.take 8

namespace Dictionary.Genuine

variable {P : Platform}

theorem new (contentClass : String) (bytes : Bytes) :
    Genuine P (Dictionary.new P contentClass bytes).id (Dictionary.new P contentClass bytes) :=
  ⟨rfl, rfl, endsWith_join _ _ '.'⟩

theorem of_checked {id : String} {bytes : Bytes} {dict : Dictionary}
    (checked : DictStore.checkedDictionary P id bytes = some dict) : Genuine P id dict := by
  unfold DictStore.checkedDictionary at checked
  dsimp only at checked
  split at checked
  · rename_i suffix
    cases checked
    exact ⟨rfl, rfl, suffix⟩
  · cases checked

theorem same_bytes {id : String} {first second : Dictionary} (genuine : Genuine P id first)
    (other : Genuine P id second) (apart : ¬ P.Collide first.bytes second.bytes) :
    first.bytes = second.bytes := by
  by_contra different
  refine apart ⟨different, hexEncode_injective (String.toList_inj.mp ?_)⟩
  have ending := List.isSuffixOf_iff_suffix.mp genuine.suffix
  have otherEnding := List.isSuffixOf_iff_suffix.mp other.suffix
  rw [← genuine.hashed, ← other.hashed]
  have sameLength := (length_digestSuffix first.digest).trans (length_digestSuffix second.digest).symm
  exact (List.suffix_of_suffix_length_le ending otherEnding sameLength.le).eq_of_length sameLength

end Dictionary.Genuine

namespace DictStore

/-! ## The invariant -/

structure Sound (P : Platform) (store : DictStore) : Prop where
  memory : ∀ id dict, store.byId id = some dict → dict.Genuine P id
  samples : ∀ key buf, store.samples key = some buf → buf.Counted

variable {P : Platform}

theorem genuine_update {byId : String → Option Dictionary}
    (memory : ∀ id dict, byId id = some dict → dict.Genuine P id) {own : String}
    {added : Dictionary} (genuine : added.Genuine P own) (id : String) (dict : Dictionary)
    (present : Function.update byId own (some added) id = some dict) : dict.Genuine P id := by
  by_cases same : id = own
  · rw [same, Function.update_self, Option.some.injEq] at present
    rw [← present, same]
    exact genuine
  · rw [Function.update_of_ne same] at present
    exact memory id dict present

theorem counted_update {samples : String → Option SampleBuf}
    (counted : ∀ key buf, samples key = some buf → buf.Counted) {own : String}
    {changed : SampleBuf} (still : changed.Counted) (key : String) (buf : SampleBuf)
    (present : Function.update samples own (some changed) key = some buf) : buf.Counted := by
  by_cases same : key = own
  · rw [same, Function.update_self, Option.some.injEq] at present
    exact present ▸ still
  · rw [Function.update_of_ne same] at present
    exact counted key buf present

/-- Opening reads whatever the directory has, entry by entry. -/
theorem sound_load (enabled : Bool) (redis : Option (String → Option Bytes))
    (entries : List DictFile) : Sound P (load P enabled redis entries) := by
  refine ⟨?_, fun key buf impossible => nomatch impossible⟩
  suffices all : ∀ found : (String → Option Dictionary) × (String → Option (Nat × String)),
      (∀ id dict, found.1 id = some dict → dict.Genuine P id) →
      ∀ id dict, (entries.foldl (loadEntry P) found).1 id = some dict → dict.Genuine P id from
    all (fun _ => none, fun _ => none) fun id dict impossible => nomatch impossible
  induction entries with
  | nil => exact fun found memory => memory
  | cons file entries ih =>
      intro found memory
      refine ih _ ?_
      unfold loadEntry
      split
      · exact memory
      · rename_i dict checked
        have genuine := Dictionary.Genuine.of_checked checked
        exact genuine_update memory (genuine.named.symm ▸ genuine)

theorem sound_accept {store : DictStore} (sound : Sound P store) {id : String} {bytes : Bytes}
    {dict : Dictionary} {after : DictStore} (accepted : accept P store id bytes = some (dict, after)) :
    dict.Genuine P id ∧ Sound P after := by
  obtain ⟨own, checked, same⟩ := Option.map_eq_some_iff.mp accepted
  cases same
  have genuine := Dictionary.Genuine.of_checked checked
  exact ⟨genuine, genuine_update sound.memory genuine, sound.samples⟩

theorem sound_resolve {store : DictStore} (sound : Sound P store) (id : String) (mtime : Nat)
    (online written : Bool) :
    (∀ dict, (resolve P store id mtime online written).1 = some dict → dict.Genuine P id) ∧
      Sound P (resolve P store id mtime online written).2 := by
  unfold resolve
  split
  · exact ⟨fun _ impossible => (nomatch impossible), sound⟩
  · split
    · rename_i remembered
      refine ⟨fun dict same => ?_, sound⟩
      cases same
      exact sound.memory id _ remembered
    · split
      · rename_i dict after found
        obtain ⟨bytes, -, accepted⟩ := Option.bind_eq_some_iff.mp found
        obtain ⟨genuine, kept⟩ := sound_accept sound accepted
        refine ⟨fun own same => ?_, kept⟩
        cases same
        exact genuine
      · dsimp only
        split
        · rename_i dict after bytes found
          obtain ⟨answer, -, accepted⟩ := Option.bind_eq_some_iff.mp found
          obtain ⟨⟨own, later⟩, accepted, same⟩ := Option.map_eq_some_iff.mp accepted
          cases same
          obtain ⟨genuine, kept⟩ := sound_accept sound accepted
          refine ⟨fun other same => ?_, kept.memory, kept.samples⟩
          cases same
          exact genuine
        · exact ⟨fun _ impossible => (nomatch impossible), sound⟩

theorem sound_train {store : DictStore} (sound : Sound P store) (key : String) (mtime : Nat)
    (online written : Bool) : Sound P (train P store key mtime online written) := by
  unfold train
  split
  · exact sound
  · split
    · exact sound
    · dsimp only
      have emptied := @counted_update _ sound.samples key _ SampleBuf.counted_empty
      split
      · exact ⟨sound.memory, emptied⟩
      · rename_i bytes _
        split
        · exact ⟨sound.memory, emptied⟩
        · split
          · exact ⟨sound.memory, emptied⟩
          · have memory := genuine_update sound.memory (Dictionary.Genuine.new key bytes)
            unfold publish
            split <;> exact ⟨memory, emptied⟩

theorem sound_observe {store : DictStore} (sound : Sound P store) (contentClass : String)
    (data : Bytes) (mtime : Nat) (online written : Bool) :
    Sound P (observe P store contentClass data mtime online written) := by
  unfold observe
  split
  · exact sound
  · dsimp only
    split
    · exact sound
    · have before : ((store.samples (sanitize contentClass)).getD SampleBuf.empty).Counted := by
        cases waiting : store.samples (sanitize contentClass) with
        | none => exact SampleBuf.counted_empty
        | some buf => exact sound.samples _ buf waiting
      have pushed : Sound P { store with
          samples := Function.update store.samples (sanitize contentClass)
            (some (((store.samples (sanitize contentClass)).getD SampleBuf.empty).push
              (data.take sampleMax))) } :=
        ⟨sound.memory, counted_update sound.samples (before.push _)⟩
      split
      · exact sound_train pushed _ mtime online written
      · exact pushed

/-! ## Runs -/

/-- What may happen to a store.  The directory and Redis change to anything, and a restart
opens a new store over whatever the directory lists then. -/
inductive Event where
  | observe (contentClass : String) (data : Bytes) (mtime : Nat) (online written : Bool)
  | train (key : String) (mtime : Nat) (online written : Bool)
  | activeFor (contentClass : String)
  | resolve (id : String) (mtime : Nat) (online written : Bool)
  | accept (id : String) (bytes : Bytes)
  | tamper (disk : List DictFile) (redis : Option (String → Option Bytes))
  | restart (enabled : Bool) (redis : Option (String → Option Bytes)) (entries : List DictFile)

variable (P) in
def apply (store : DictStore) : Event → DictStore
  | .observe contentClass data mtime online written =>
    observe P store contentClass data mtime online written
  | .train key mtime online written => train P store key mtime online written
  | .activeFor _ => store
  | .resolve id mtime online written => (resolve P store id mtime online written).2
  | .accept id bytes => ((accept P store id bytes).map (·.2)).getD store
  | .tamper disk redis => { store with disk, redis }
  | .restart enabled redis entries => load P enabled redis entries

theorem sound_apply {store : DictStore} (sound : Sound P store) (event : Event) :
    Sound P (apply P store event) := by
  cases event with
  | observe contentClass data mtime online written =>
      exact sound_observe sound contentClass data mtime online written
  | train key mtime online written => exact sound_train sound key mtime online written
  | activeFor contentClass => exact sound
  | resolve id mtime online written => exact (sound_resolve sound id mtime online written).2
  | accept id bytes =>
      show Sound P (((DictStore.accept P store id bytes).map (·.2)).getD store)
      cases accepted : DictStore.accept P store id bytes with
      | none => exact sound
      | some found => exact (sound_accept sound accepted).2
  | tamper disk redis => exact ⟨sound.memory, sound.samples⟩
  | restart enabled redis entries => exact sound_load enabled redis entries

theorem sound_run {store : DictStore} (sound : Sound P store) (events : List Event) :
    Sound P (events.foldl (apply P) store) := by
  induction events generalizing store with
  | nil => exact sound
  | cons event events ih => exact ih (sound_apply sound event)

/-- Whatever the directory and Redis held, and in any order of events: two answers for one id
are the same bytes unless these collide, and what is in memory is genuine and within its
budget. -/
theorem resolve_never_changes (P : Platform) (enabled : Bool)
    (redis : Option (String → Option Bytes)) (entries : List DictFile) (earlier between : List Event)
    (before later : DictStore)
    (reached : before = earlier.foldl (apply P) (load P enabled redis entries))
    (id : String) (mtime : Nat) (online written : Bool) (mtime' : Nat) (online' written' : Bool)
    (went : later = between.foldl (apply P) (resolve P before id mtime online written).2) :
    (∀ first second, (resolve P before id mtime online written).1 = some first →
      (resolve P later id mtime' online' written').1 = some second →
      ¬ P.Collide first.bytes second.bytes → second.bytes = first.bytes) ∧
    (∀ own dict, before.byId own = some dict → dict.id = own ∧
      dict.digest = P.blake3 dict.bytes ∧ endsWith dict.id (hexEncode (dict.digest.val.take 8)) = true) ∧
    ∀ key buf, before.samples key = some buf →
      buf.bytes = (buf.items.map List.length).sum ∧ buf.bytes ≤ dictSampleBudget := by
  have sound : Sound P before := reached ▸ sound_run (sound_load enabled redis entries) earlier
  obtain ⟨answers, after⟩ := sound_resolve sound id mtime online written
  have soundLater : Sound P later := went ▸ sound_run after between
  refine ⟨fun first second gave gives apart => ?_, fun own dict present => ?_,
    fun key buf present => ?_⟩
  · have genuine := answers first gave
    have other := (sound_resolve soundLater id mtime' online' written').1 second gives
    exact (genuine.same_bytes other apart).symm
  · obtain ⟨named, hashed, suffix⟩ := sound.memory own dict present
    exact ⟨named, hashed, by rw [named]; exact suffix⟩
  · obtain ⟨total, budget⟩ := sound.samples key buf present
    exact ⟨total, budget⟩

def csvDictionary : Dictionary := Dictionary.new framingPlatform "csv" [1]

/-- The file appears, is forged while the store opens again, and is restored. -/
theorem resolve_never_changes_forged :
    ∃ first second,
      (resolve framingPlatform (apply framingPlatform (load framingPlatform true none [])
        (.tamper [⟨csvDictionary.id, [1], 0⟩] none)) csvDictionary.id 0 false false).1 =
          some first ∧
      (resolve framingPlatform ([.restart true none [⟨csvDictionary.id, [], 0⟩],
          .tamper [⟨csvDictionary.id, [1], 0⟩] none].foldl (apply framingPlatform)
        (resolve framingPlatform (apply framingPlatform (load framingPlatform true none [])
          (.tamper [⟨csvDictionary.id, [1], 0⟩] none)) csvDictionary.id 0 false false).2)
        csvDictionary.id 0 false false).1 = some second ∧
      second.bytes = first.bytes := by
  refine ⟨csvDictionary, csvDictionary, by decide +kernel, by decide +kernel, ?_⟩
  refine (resolve_never_changes framingPlatform true none []
    [.tamper [⟨csvDictionary.id, [1], 0⟩] none] [.restart true none [⟨csvDictionary.id, [], 0⟩],
      .tamper [⟨csvDictionary.id, [1], 0⟩] none] _ _ rfl csvDictionary.id 0 false false 0 false
      false rfl).1 csvDictionary csvDictionary (by decide +kernel) (by decide +kernel) ?_
  exact fun collide => collide.1 rfl

end DictStore

end Syntra

import Syntra.Blockfile.Sound

/-!
# Restoring a whole file

Going over the blocks with a cache of dictionaries gives what reading them one
by one gives, up to the first that fails.
-/

set_option autoImplicit false

namespace Syntra.Blockfile

open Fallible Machine Text

variable {P : Platform} {r : Reader} {dicts : String → Option Dictionary}

/-! ## The cache -/

/-- Everything in the cache is what the resolver gives for that plan. -/
def CacheHolds (r : Reader) (dicts : String → Option Dictionary) (cache : DictCache) : Prop :=
  ∀ entry ∈ cache, ∀ plan, r.plans[entry.1]? = some plan → ∃ reference,
    plan.dictionary = some reference ∧ dicts reference.id = some entry.2 ∧
      reference.digest = entry.2.digest.val

theorem cacheHolds_nil : CacheHolds r dicts [] := fun _ member => absurd member List.not_mem_nil

theorem dictionaryFor_nil {reference : DictionaryRef} {planIdx block : Nat} {found : Dictionary}
    (resolved : dicts reference.id = some found) (same : reference.digest = found.digest.val) :
    dictionaryFor reference planIdx block dicts [] = (.ok found, [(planIdx, found)]) := by
  simp [dictionaryFor, resolved, same]

theorem dictionaryFor_cached {cache : DictCache} (holds : CacheHolds r dicts cache)
    {plan : BlockPlan} {reference : DictionaryRef} {planIdx : Nat}
    (there : r.plans[planIdx]? = some plan) (uses : plan.dictionary = some reference)
    (block : Nat) :
    (dictionaryFor reference planIdx block dicts cache).1 =
        (dictionaryFor reference planIdx block dicts []).1 ∧
      CacheHolds r dicts (dictionaryFor reference planIdx block dicts cache).2 := by
  cases hit : cache.find? (·.1 = planIdx) with
  | some entry =>
      obtain ⟨i, d⟩ := entry
      have same : i = planIdx := by simpa using List.find?_some hit
      subst same
      obtain ⟨other, used, resolved, digest⟩ :=
        holds (i, d) (List.mem_of_find?_eq_some hit) plan there
      cases Option.some.inj (uses.symm.trans used)
      have from_ : dictionaryFor reference i block dicts cache = (.ok d, cache) := by
        simp only [dictionaryFor, hit]
      rw [from_, dictionaryFor_nil resolved digest]
      exact ⟨rfl, holds⟩
  | none =>
      cases resolved : dicts reference.id with
      | none =>
          simp only [dictionaryFor, hit, resolved, List.find?_nil]
          exact ⟨trivial, holds⟩
      | some found =>
          by_cases digest : reference.digest = found.digest.val
          · rw [dictionaryFor_nil resolved digest]
            have added : dictionaryFor reference planIdx block dicts cache =
                (.ok found, cache ++ [(planIdx, found)]) := by
              simp [dictionaryFor, hit, resolved, digest]
            rw [added]
            refine ⟨rfl, fun entry member other at_ => ?_⟩
            rcases List.mem_append.mp member with before | new
            · exact holds entry before other at_
            · rw [List.mem_singleton.mp new] at at_ ⊢
              cases Option.some.inj (there.symm.trans at_)
              exact ⟨reference, uses, resolved, digest⟩
          · simp only [dictionaryFor, hit, resolved, List.find?_nil, ne_eq, digest,
              not_false_eq_true, if_true]
            exact ⟨trivial, holds⟩

theorem fetchPlanned_plan {i : Nat} {payload : Bytes} {planIdx : Nat} {plan : BlockPlan}
    (fetched : r.fetchPlanned P i = .ok (payload, planIdx, plan)) :
    r.plans[planIdx]? = some plan := by
  obtain ⟨_, -, rest⟩ := bind_eq_ok.mp fetched
  obtain ⟨index, -, rest⟩ := bind_eq_ok.mp rest
  obtain ⟨found, looked, rest⟩ := bind_eq_ok.mp rest
  cases rest
  exact okOr_eq_ok.mp (mapError_eq_ok.mp looked)

/-- A cache that holds gives the block that reading it alone gives, and still holds. -/
theorem readCached_eq {cache : DictCache} (holds : CacheHolds r dicts cache) (i : Nat) :
    (r.readCached P i dicts cache).1 = r.readBlock P i dicts ∧
      CacheHolds r dicts (r.readCached P i dicts cache).2 := by
  unfold Reader.readBlock Reader.readCached
  cases fetched : r.fetchPlanned P i with
  | error stop => exact ⟨rfl, holds⟩
  | ok got =>
      obtain ⟨payload, planIdx, plan⟩ := got
      have there := fetchPlanned_plan fetched
      dsimp only [Reader.planDictionary]
      cases uses : plan.dictionary with
      | none => exact ⟨rfl, holds⟩
      | some reference =>
          obtain ⟨same, kept⟩ := dictionaryFor_cached holds there uses i
          dsimp only
          rw [same]
          exact ⟨rfl, kept⟩

/-- The caches that reading blocks, in any order, leads to. -/
inductive Caches (P : Platform) (r : Reader) (dicts : String → Option Dictionary) :
    DictCache → Prop
  | empty : Caches P r dicts []
  | read (i : Nat) {cache : DictCache} (before : Caches P r dicts cache) :
      Caches P r dicts (r.readCached P i dicts cache).2

theorem Caches.holds {cache : DictCache} (reached : Caches P r dicts cache) :
    CacheHolds r dicts cache := by
  induction reached with
  | empty => exact cacheHolds_nil
  | read i _ ih => exact (readCached_eq ih i).2

/-! ## The loop -/

abbrev BlocksRead (P : Platform) (r : Reader) (dicts : String → Option Dictionary) :
    List Nat → List Bytes → Prop := Yields fun i => r.readBlock P i dicts

theorem restoreLoop_reads {i : Nat} {blocks : List Bytes} {s : Progress}
    (reads : BlocksRead P r dicts (List.range' i blocks.length) blocks)
    (holds : CacheHolds r dicts s.cache) (fits : s.written + blocks.flatten.length < 2 ^ 64)
    (more : Nat) :
    ∃ cache, CacheHolds r dicts cache ∧
      r.restoreLoop P dicts (fun _ => none) i (blocks.length + more) s =
        r.restoreLoop P dicts (fun _ => none) (i + blocks.length) more
          { cache, hashed := s.hashed ++ blocks.flatten, out := s.out ++ blocks.flatten
            written := s.written + blocks.flatten.length } := by
  induction blocks generalizing i s with
  | nil =>
      refine ⟨s.cache, holds, ?_⟩
      simp only [List.length_nil, Nat.zero_add, Nat.add_zero, List.flatten_nil, List.append_nil]
  | cons block blocks ih =>
      rw [List.length_cons, List.range'_succ] at reads
      obtain ⟨first, others⟩ := List.forall₂_cons.mp reads
      have first : r.readBlock P i dicts = .ok block := first
      obtain ⟨same, kept⟩ := readCached_eq (P := P) holds i
      rw [List.flatten_cons, List.length_append] at fits
      obtain ⟨cache, still, rest⟩ := ih (i := i + 1)
        (s := { cache := (r.readCached P i dicts s.cache).2, hashed := s.hashed ++ block
                out := s.out ++ block, written := s.written + block.length })
        others kept (by dsimp only; omega)
      refine ⟨cache, still, ?_⟩
      have added : (add 64 s.written block.length : Run BlockError Nat) = _ := add_eq (by omega)
      rw [List.length_cons, Nat.add_right_comm, Reader.restoreLoop]
      generalize r.readCached P i dicts s.cache = cached at same rest
      obtain ⟨result, after⟩ := cached
      dsimp only at same rest
      rw [same, first]
      dsimp only [writeAll]
      rw [added]
      dsimp only
      rw [rest]
      simp only [List.flatten_cons, List.append_assoc, List.length_append, Nat.add_assoc,
        Nat.add_comm 1]

theorem restoreLoop_fails {i : Nat} {s : Progress} {stop : Stop BlockError}
    (holds : CacheHolds r dicts s.cache) (failed : r.readBlock P i dicts = .error stop)
    (more : Nat) :
    ∃ cache, r.restoreLoop P dicts (fun _ => none) i (more + 1) s =
      (.error stop, { s with cache }) := by
  obtain ⟨same, -⟩ := readCached_eq (P := P) holds i
  rw [failed] at same
  rw [Reader.restoreLoop]
  generalize r.readCached P i dicts s.cache = cached at same
  obtain ⟨result, after⟩ := cached
  dsimp only at same
  rw [same]
  exact ⟨after, rfl⟩

/-! ## The whole file -/

theorem readBlock_length {i : Nat} (few : i < 2 ^ 22) {block : Bytes}
    (read : r.readBlock P i dicts = .ok block) :
    block.length = (entryAt r.footer i).originalLen := by
  have original : leU32 r.footer.originalLens i = .ok (entryAt r.footer i).originalLen :=
    leWord_eq (by omega) _
  unfold Reader.readBlock Reader.readCached at read
  cases fetched : r.fetchPlanned P i with
  | error stop =>
      rw [fetched] at read
      cases read
  | ok got =>
      obtain ⟨payload, planIdx, plan⟩ := got
      rw [fetched] at read
      obtain ⟨dict, -, rest⟩ := bind_eq_ok.mp read
      rw [original, ok_bind] at rest
      exact decodeBlock_length P.codecs (mapError_eq_ok.mp (mapError_eq_ok.mp rest))

theorem BlocksRead.length_lt {n : Nat} (few : n ≤ 2 ^ 22) {blocks : List Bytes}
    (reads : BlocksRead P r dicts (List.range n) blocks) : blocks.flatten.length < 2 ^ 64 := by
  have short : ∀ block ∈ blocks, block.length ≤ 2 ^ 32 := by
    intro block member
    obtain ⟨i, listed, read⟩ := reads.exists_run member
    rw [readBlock_length ((List.mem_range.mp listed).trans_le few) read]
    exact Nat.le_of_lt (wordAt_lt 4 _ _)
  have length := Tiling.length_flatten_le short
  rw [← reads.length_eq, List.length_range] at length
  omega

theorem BlocksRead.range' {n : Nat} {blocks : List Bytes}
    (reads : BlocksRead P r dicts (List.range n) blocks) :
    n = blocks.length ∧ BlocksRead P r dicts (List.range' 0 blocks.length) blocks := by
  have count := reads.length_eq
  rw [List.length_range] at count
  rw [← count, ← List.range_eq_range']
  exact ⟨rfl, reads⟩

theorem blockCount_le {file : Bytes} (opened : Reader.fromBytes P file = .ok r) :
    r.blockCount ≤ 2 ^ 22 := by
  obtain ⟨_, _, _, _, _, -, opens, rfl⟩ := (fromBytes_meets P file).of_ok opened
  exact opens.sound.count_lt.le

def startAt (out : Bytes) : Progress := { cache := [], hashed := [], out, written := 0 }

theorem restoreTo_reads (few : r.blockCount ≤ 2 ^ 22) {blocks : List Bytes}
    (reads : BlocksRead P r dicts (List.range r.blockCount) blocks) (out : Bytes) :
    r.restoreTo P dicts out (fun _ => none) =
      (lift (do
        rejectIf (blocks.flatten.length ≠ r.footer.originalSize ∨
            (P.blake3 blocks.flatten).val ≠ r.footer.fileHash)
          (.fidelity (hexEncode r.footer.fileHash) (hexEncode (P.blake3 blocks.flatten).val))
        .ok blocks.flatten.length), out ++ blocks.flatten) := by
  have fits := reads.length_lt few
  obtain ⟨count, turns⟩ := reads.range'
  obtain ⟨cache, -, looped⟩ := restoreLoop_reads (s := startAt out) turns cacheHolds_nil
    (by simpa [startAt] using fits) 0
  unfold startAt at looped
  rw [Nat.add_zero, ← count] at looped
  unfold Reader.restoreTo
  rw [looped]
  simp only [Reader.restoreLoop, Reader.checkRestored, List.nil_append, Nat.zero_add, ok_bind]

theorem restoreTo_fails (few : r.blockCount ≤ 2 ^ 22) {i : Nat} (inside : i < r.blockCount)
    {blocks : List Bytes} (reads : BlocksRead P r dicts (List.range i) blocks)
    {stop : Stop BlockError} (failed : r.readBlock P i dicts = .error stop) (out : Bytes) :
    r.restoreTo P dicts out (fun _ => none) = (.error stop, out ++ blocks.flatten) := by
  have fits := reads.length_lt (by omega)
  obtain ⟨count, turns⟩ := reads.range'
  obtain ⟨cache, holds, looped⟩ := restoreLoop_reads (s := startAt out) turns cacheHolds_nil
    (by simpa [startAt] using fits) (r.blockCount - i - 1 + 1)
  obtain ⟨left, ended⟩ := restoreLoop_fails (P := P) (s := ⟨cache, blocks.flatten,
    out ++ blocks.flatten, blocks.flatten.length⟩) holds failed (r.blockCount - i - 1)
  unfold startAt at looped
  simp only [List.nil_append, Nat.zero_add] at looped
  rw [← count, ended, show i + (r.blockCount - i - 1 + 1) = r.blockCount by omega] at looped
  unfold Reader.restoreTo
  rw [looped]
  rfl

theorem restoreAll_eq_ok (few : r.blockCount ≤ 2 ^ 22) {out : Bytes} :
    r.restoreAll P dicts = .ok out ↔
      ∃ blocks, BlocksRead P r dicts (List.range r.blockCount) blocks ∧ out = blocks.flatten ∧
        blocks.flatten.length = r.footer.originalSize ∧
        (P.blake3 blocks.flatten).val = r.footer.fileHash := by
  unfold Reader.restoreAll
  constructor
  · intro restored
    rcases yields_or_fails (fun i => r.readBlock P i dicts) r.blockCount with
      ⟨blocks, reads⟩ | ⟨i, inside, blocks, stop, reads, failed⟩
    · rw [restoreTo_reads few reads] at restored
      by_cases same : blocks.flatten.length ≠ r.footer.originalSize ∨
          (P.blake3 blocks.flatten).val ≠ r.footer.fileHash
      · rw [rejectIf_of same] at restored
        cases restored
      · rw [rejectIf_of_not same] at restored
        cases restored
        rw [not_or, not_not, not_not] at same
        exact ⟨blocks, reads, by simp, same⟩
    · rw [restoreTo_fails few inside reads failed] at restored
      cases restored
  · rintro ⟨blocks, reads, rfl, sized, hashed⟩
    have same : ¬ (blocks.flatten.length ≠ r.footer.originalSize ∨
        (P.blake3 blocks.flatten).val ≠ r.footer.fileHash) :=
      not_or.mpr ⟨not_not.mpr sized, not_not.mpr hashed⟩
    rw [restoreTo_reads few reads, rejectIf_of_not same]
    exact congrArg Except.ok (List.nil_append _)

/-- Restoring an opened file into a sink that never fails writes what reading its blocks one by
one gives, up to the first that fails, and no cache changes what a block reads as. -/
theorem restoreTo_streams (P : Platform) (file : Bytes) (r : Reader)
    (opened : Reader.fromBytes P file = .ok r) (dicts : String → Option Dictionary) (out : Bytes) :
    ((∃ n, (r.restoreTo P dicts out fun _ => none).1 = .ok n) ↔
        ∃ blocks, BlocksRead P r dicts (List.range r.blockCount) blocks ∧
          (P.blake3 blocks.flatten).val = r.footer.fileHash ∧
          blocks.flatten.length = r.originalSize) ∧
      (∀ blocks, BlocksRead P r dicts (List.range r.blockCount) blocks →
        (r.restoreTo P dicts out fun _ => none).2 = out ++ blocks.flatten ∧
        ∀ n, (r.restoreTo P dicts out fun _ => none).1 = .ok n → n = blocks.flatten.length) ∧
      (∀ i < r.blockCount, ∀ blocks stop, BlocksRead P r dicts (List.range i) blocks →
        r.readBlock P i dicts = .error stop →
        r.restoreTo P dicts out (fun _ => none) = (.error stop, out ++ blocks.flatten)) ∧
      ∀ cache, Caches P r dicts cache → ∀ i,
        (r.readCached P i dicts cache).1 = r.readBlock P i dicts := by
  have few := blockCount_le opened
  refine ⟨⟨?_, ?_⟩, ?_, ?_, fun cache reached i => (readCached_eq reached.holds i).1⟩
  · rintro ⟨n, restored⟩
    rcases yields_or_fails (fun i => r.readBlock P i dicts) r.blockCount with
      ⟨blocks, reads⟩ | ⟨i, inside, blocks, stop, reads, failed⟩
    · rw [restoreTo_reads few reads] at restored
      obtain ⟨same, -⟩ := rejectIf_bind_eq_ok.mp (mapError_eq_ok.mp restored)
      rw [not_or, not_not, not_not] at same
      exact ⟨blocks, reads, same.2, same.1⟩
    · rw [restoreTo_fails few inside reads failed] at restored
      cases restored
  · rintro ⟨blocks, reads, hashed, sized⟩
    have same : ¬ (blocks.flatten.length ≠ r.footer.originalSize ∨
        (P.blake3 blocks.flatten).val ≠ r.footer.fileHash) :=
      not_or.mpr ⟨not_not.mpr sized, not_not.mpr hashed⟩
    rw [restoreTo_reads few reads, rejectIf_of_not same]
    exact ⟨_, rfl⟩
  · intro blocks reads
    rw [restoreTo_reads few reads]
    refine ⟨rfl, fun n restored => ?_⟩
    obtain ⟨-, written⟩ := rejectIf_bind_eq_ok.mp (mapError_eq_ok.mp restored)
    exact (Except.ok.inj written).symm
  · exact fun i inside blocks stop reads failed => restoreTo_fails few inside reads failed out

theorem restoreTo_streams_one :
    (∃ n, (oneReader.restoreTo blockPlatform (fun _ => none) [] fun _ => none).1 = .ok n) ↔
      ∃ blocks, BlocksRead blockPlatform oneReader (fun _ => none) (List.range 1) blocks ∧
        (blockPlatform.blake3 blocks.flatten).val = oneHash.val ∧ blocks.flatten.length = 1 :=
  (restoreTo_streams blockPlatform oneFile oneReader fromBytes_oneFile (fun _ => none) []).1

end Syntra.Blockfile

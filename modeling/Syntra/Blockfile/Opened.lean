import Syntra.Blockfile.Reader
import Syntra.Lib.Tiling

/-!
# What a reader may rely on

Whatever bytes a file has, a reader that was opened on it has a table of blocks
that fill the region between header and footer, and no arithmetic overflows on
the way there.
-/

set_option autoImplicit false

namespace Syntra.Blockfile

open Fallible Machine Tiling

variable (P : Platform)

/-! ## The table -/

/-- The word at place `i` of a table, zero beyond its end. -/
def wordAt (width : Nat) (table : Bytes) (i : Nat) : Nat :=
  match getRange table (i * width) (i * width + width) with
  | some word => LittleEndian.ofBytes word
  | none => 0

theorem getRange_length {xs part : Bytes} {lo hi : Nat} (there : getRange xs lo hi = some part) :
    part.length = hi - lo := by
  unfold getRange at there
  split at there
  · cases there
    rw [List.length_take, List.length_drop]
    omega
  · cases there

theorem leWord_eq {width i : Nat} (fits : i * width + width < 2 ^ 64) (table : Bytes) :
    leWord width table i = .ok (wordAt width table i) := by
  unfold leWord wordAt
  rw [mul_eq (by omega), ok_bind, add_eq fits, ok_bind]
  cases getRange table (i * width) (i * width + width) <;> rfl

theorem wordAt_lt (width : Nat) (table : Bytes) (i : Nat) : wordAt width table i < 256 ^ width := by
  unfold wordAt
  cases there : getRange table (i * width) (i * width + width) with
  | none => exact Nat.pow_pos (by decide)
  | some word =>
      have bound := LittleEndian.ofBytes_lt word
      rwa [getRange_length there, Nat.add_sub_cancel_left] at bound

structure Entry where
  storedLen : Nat
  originalLen : Nat
  planIdx : Nat
  payloadHash : Bytes
  deriving Repr, DecidableEq

def entryAt (footer : FooterV4) (i : Nat) : Entry :=
  { storedLen := wordAt 4 footer.storedLens i
    originalLen := wordAt 4 footer.originalLens i
    planIdx := wordAt 2 footer.planIndices i
    payloadHash := (footer.payloadHashes.drop (i * hashLen)).take hashLen }

def entries (footer : FooterV4) : List Entry := (List.range footer.blockCount).map (entryAt footer)

def storedLens (footer : FooterV4) : List Nat := (entries footer).map (·.storedLen)

def offsetOf (footer : FooterV4) (i : Nat) : Nat := offset headerLen (storedLens footer) i

@[simp] theorem length_entries (footer : FooterV4) :
    (entries footer).length = footer.blockCount := by
  simp [entries]

@[simp] theorem length_storedLens (footer : FooterV4) :
    (storedLens footer).length = footer.blockCount := by
  simp [storedLens]

theorem getElem?_entries {footer : FooterV4} {i : Nat} (inside : i < footer.blockCount) :
    (entries footer)[i]? = some (entryAt footer i) := by
  simp [entries, inside]

theorem offsetOf_succ {footer : FooterV4} {i : Nat} (inside : i < footer.blockCount) :
    offsetOf footer (i + 1) = offsetOf footer i + (entryAt footer i).storedLen := by
  apply offset_succ
  rw [storedLens, List.getElem?_map, getElem?_entries inside]
  rfl

theorem offsetOf_le {footer : FooterV4} {i : Nat} (inside : i ≤ footer.blockCount) :
    offsetOf footer i ≤ headerLen + i * 2 ^ 32 := by
  apply offset_le_mul
  · intro len member
    obtain ⟨e, listed, rfl⟩ := List.mem_map.mp member
    obtain ⟨j, -, rfl⟩ := List.mem_map.mp listed
    exact Nat.le_of_lt (wordAt_lt 4 _ _)
  · rwa [length_storedLens]

/-! ## What the checks leave -/

def expected (originalSize n blockSize i : Nat) : Nat :=
  if i + 1 < n then blockSize else originalSize - (n - 1) * blockSize

/-- The entry at place `i` passed its checks. -/
structure Entry.Sound (originalSize n blockSize planCount i : Nat) (e : Entry) : Prop where
  originalLen : e.originalLen = expected originalSize n blockSize i
  planIdx : e.planIdx < planCount
  storedLen : e.storedLen ≤ slackLen e.originalLen

/-- What the footer says apart from the length of the file. -/
structure SoundFooter (footer : FooterV4) (flags log2 : Nat) (plans : List BlockPlan) : Prop where
  sameFlags : footer.headerFlags = flags
  sameLog2 : footer.blockSizeLog2 = log2
  fileHash : footer.fileHash.length = 32
  fewPlans : footer.plans.length ≤ maxPlans
  readable : readPlans 0 footer.plans = .ok plans
  few : footer.blockCount ≤ maxBlocks
  storedLens : footer.storedLens.length = footer.blockCount * 4
  originalLens : footer.originalLens.length = footer.blockCount * 4
  planIndices : footer.planIndices.length = footer.blockCount * 2
  payloadHashes : footer.payloadHashes.length = footer.blockCount * hashLen
  covers : divCeil footer.originalSize (1 <<< log2) = footer.blockCount
  empty : footer.blockCount = 0 → footer.fileHash = (P.blake3 []).val
  entries : ∀ i < footer.blockCount, (entryAt footer i).Sound footer.originalSize
    footer.blockCount (1 <<< log2) plans.length i

def Fills (footer : FooterV4) (fileLen footerLen : Nat) : Prop :=
  offsetOf footer footer.blockCount + footerLen + trailerLen = fileLen

instance (footer : FooterV4) (fileLen footerLen : Nat) :
    Decidable (Fills footer fileLen footerLen) := inferInstanceAs (Decidable (_ = _))

def offsetsOf (footer : FooterV4) : List Nat :=
  (List.range (footer.blockCount + 1)).map (offsetOf footer)

/-! ## The loop -/

theorem divCeil_eq {value divisor n : Nat} (positive : 0 < divisor)
    (covers : divCeil value divisor = n) :
    value ≤ n * divisor ∧ (0 < n → (n - 1) * divisor < value) := by
  have whole := Nat.div_add_mod value divisor
  have small := Nat.mod_lt value positive
  rw [Nat.mul_comm] at whole
  unfold divCeil at covers
  split at covers
  · rename_i exact_
    rw [Nat.add_zero] at covers
    rw [covers, exact_, Nat.add_zero] at whole
    rw [whole]
    refine ⟨Nat.le_refl _, fun filled => ?_⟩
    rw [← whole]
    exact Nat.mul_lt_mul_of_pos_right (by omega) positive
  · rw [← covers, Nat.succ_mul, Nat.add_sub_cancel]
    omega

/-- The bounds under which the loop runs. -/
structure LoopBounds (footer : FooterV4) (blockSize : Nat) : Prop where
  few : footer.blockCount ≤ maxBlocks
  size : blockSize ≤ 2 ^ 26
  before : 0 < footer.blockCount → (footer.blockCount - 1) * blockSize < footer.originalSize

theorem maxBlocks_lt : maxBlocks < 2 ^ 22 := by decide

variable {footer : FooterV4} {blockSize : Nat}

theorem LoopBounds.expectedLen_eq (bounds : LoopBounds footer blockSize) {i : Nat}
    (inside : i < footer.blockCount) :
    expectedLen footer.originalSize footer.blockCount blockSize i =
      .ok (expected footer.originalSize footer.blockCount blockSize i) := by
  have few := bounds.few.trans_lt maxBlocks_lt
  have before := bounds.before (by omega)
  have product : (footer.blockCount - 1) * blockSize < 2 ^ 64 := by
    calc (footer.blockCount - 1) * blockSize ≤ 2 ^ 22 * 2 ^ 26 :=
          Nat.mul_le_mul (by omega) bounds.size
      _ < 2 ^ 64 := by decide
  unfold expectedLen expected
  rw [add_eq (by omega), ok_bind]
  split
  · rfl
  · rw [sub_eq (by omega), ok_bind, mul_eq product, ok_bind, sub_eq (by omega)]

theorem LoopBounds.words (bounds : LoopBounds footer blockSize) {i : Nat}
    (inside : i < footer.blockCount) :
    leU32 footer.originalLens i = .ok (entryAt footer i).originalLen ∧
      leU16 footer.planIndices i = .ok (entryAt footer i).planIdx ∧
      leU32 footer.storedLens i = .ok (entryAt footer i).storedLen := by
  have few := bounds.few.trans_lt maxBlocks_lt
  exact ⟨leWord_eq (by omega) _, leWord_eq (by omega) _, leWord_eq (by omega) _⟩

theorem LoopBounds.cursor (bounds : LoopBounds footer blockSize) {i : Nat}
    (inside : i < footer.blockCount) :
    offsetOf footer i + (entryAt footer i).storedLen < 2 ^ 60 := by
  have few := bounds.few.trans_lt maxBlocks_lt
  have next : offsetOf footer (i + 1) ≤ _ := offsetOf_le (Nat.succ_le_of_lt inside)
  rw [offsetOf_succ inside] at next
  simp only [headerLen] at next
  omega

/-- One turn on a block whose offset is where the cursor stands. -/
theorem placeBlock_meets (bounds : LoopBounds footer blockSize) (planCount : Nat) {i : Nat}
    (inside : i < footer.blockCount) (offsets : List Nat) :
    Meets (fun placed => placed = (offsets ++ [offsetOf footer i], offsetOf footer (i + 1)) ∧
        (entryAt footer i).Sound footer.originalSize footer.blockCount blockSize planCount i)
      (fun _ => True)
      (placeBlock footer planCount footer.blockCount blockSize i (offsets, offsetOf footer i)) := by
  obtain ⟨original, planned, stored⟩ := bounds.words inside
  have cursor := bounds.cursor inside
  unfold placeBlock
  rw [original, ok_bind, bounds.expectedLen_eq inside, ok_bind]
  apply (Meets.rejectIf trivial).bind
  intro _ sized
  rw [planned, ok_bind]
  apply (Meets.rejectIf trivial).bind
  intro _ within
  rw [stored, ok_bind]
  apply (Meets.rejectIf trivial).bind
  intro _ slack
  rw [add_eq (by omega), ok_bind]
  apply Meets.ok
  exact ⟨by rw [offsetOf_succ inside], not_not.mp sized, Nat.lt_of_not_le within,
    Nat.le_of_not_lt slack⟩

theorem placeBlock_eq (bounds : LoopBounds footer blockSize) {planCount i : Nat}
    (inside : i < footer.blockCount)
    (sound : (entryAt footer i).Sound footer.originalSize footer.blockCount blockSize planCount i)
    (offsets : List Nat) :
    placeBlock footer planCount footer.blockCount blockSize i (offsets, offsetOf footer i) =
      .ok (offsets ++ [offsetOf footer i], offsetOf footer (i + 1)) := by
  obtain ⟨original, planned, stored⟩ := bounds.words inside
  have cursor := bounds.cursor inside
  unfold placeBlock
  rw [original, ok_bind, bounds.expectedLen_eq inside, ok_bind,
    rejectIf_of_not (not_not.mpr sound.originalLen), lift_ok, ok_bind, planned, ok_bind,
    rejectIf_of_not (Nat.not_le_of_lt sound.planIdx), lift_ok, ok_bind, stored, ok_bind,
    rejectIf_of_not (Nat.not_lt_of_le sound.storedLen), lift_ok, ok_bind, add_eq (by omega),
    ok_bind, offsetOf_succ inside]

/-- What the loop has placed before the turn of block `i`. -/
structure Placed (footer : FooterV4) (blockSize planCount i : Nat) (placed : List Nat × Nat) :
    Prop where
  offsets : placed = ((List.range i).map (offsetOf footer), offsetOf footer i)
  sound : ∀ j < i, (entryAt footer j).Sound footer.originalSize footer.blockCount blockSize
    planCount j

theorem placeBlocks_meets (bounds : LoopBounds footer blockSize) (planCount fileLen : Nat)
    {footerLen : Nat} (short : footerLen ≤ maxFooterLen) :
    Meets (fun offsets => offsets = offsetsOf footer ∧ Fills footer fileLen footerLen ∧
        ∀ i < footer.blockCount, (entryAt footer i).Sound footer.originalSize footer.blockCount
          blockSize planCount i)
      (fun _ => True)
      (placeBlocks footer planCount footer.blockCount blockSize fileLen footerLen) := by
  have few := bounds.few.trans_lt maxBlocks_lt
  have last := offsetOf_le (Nat.le_refl footer.blockCount)
  simp only [maxFooterLen, headerLen] at short last
  unfold placeBlocks
  have looped : Meets (Placed footer blockSize planCount footer.blockCount) (fun _ => True)
      (loop (placeBlock footer planCount footer.blockCount blockSize) 0 footer.blockCount
        ([], headerLen)) := by
    apply Meets.loop_zero
    · rintro i _ inside ⟨rfl, earlier⟩
      apply (placeBlock_meets bounds planCount inside _).imp _ (fun _ _ => trivial)
      rintro _ ⟨rfl, sound⟩
      refine ⟨by rw [List.range_succ, List.map_append]; rfl, fun j before => ?_⟩
      rcases Nat.lt_succ_iff_lt_or_eq.mp before with already | rfl
      · exact earlier j already
      · exact sound
    · exact ⟨rfl, fun j before => absurd before (Nat.not_lt_zero j)⟩
  apply looped.bind
  rintro _ ⟨rfl, sound⟩
  dsimp only
  rw [add_eq (by omega), ok_bind, add_eq (by simp only [trailerLen]; omega), ok_bind]
  apply (Meets.rejectIf trivial).bind
  intro _ filled
  apply Meets.ok
  refine ⟨?_, not_not.mp filled, sound⟩
  rw [offsetsOf, List.range_succ, List.map_append]
  rfl

/-- On sound entries only the length of the file is left to check. -/
theorem placeBlocks_eq (bounds : LoopBounds footer blockSize) {planCount footerLen : Nat}
    (fileLen : Nat) (short : footerLen ≤ maxFooterLen)
    (sound : ∀ i < footer.blockCount, (entryAt footer i).Sound footer.originalSize
      footer.blockCount blockSize planCount i) :
    ∃ message, placeBlocks footer planCount footer.blockCount blockSize fileLen footerLen =
      if Fills footer fileLen footerLen then .ok (offsetsOf footer)
      else fails (.layoutInvalid message) := by
  have few := bounds.few.trans_lt maxBlocks_lt
  have last := offsetOf_le (Nat.le_refl footer.blockCount)
  simp only [maxFooterLen, headerLen] at short last
  have looped : ∃ placed, loop (placeBlock footer planCount footer.blockCount blockSize) 0
      footer.blockCount ([], headerLen) = .ok placed ∧
        placed = ((List.range footer.blockCount).map (offsetOf footer),
          offsetOf footer footer.blockCount) := by
    apply loop_zero_ok
      fun i placed => placed = ((List.range i).map (offsetOf footer), offsetOf footer i)
    · rintro i _ inside rfl
      refine ⟨_, placeBlock_eq bounds inside (sound i inside) _, ?_⟩
      rw [List.range_succ, List.map_append]
      rfl
    · rfl
  obtain ⟨placed, looped, rfl⟩ := looped
  unfold placeBlocks
  rw [looped, ok_bind]
  dsimp only
  rw [add_eq (by omega), ok_bind, add_eq (by simp only [trailerLen]; omega), ok_bind]
  by_cases filled : Fills footer fileLen footerLen
  · have total : offsetOf footer footer.blockCount + footerLen + trailerLen = fileLen := filled
    refine ⟨"", ?_⟩
    rw [rejectIf_of_not (not_not.mpr total), lift_ok, ok_bind, if_pos filled, offsetsOf,
      List.range_succ, List.map_append]
    rfl
  · have other : offsetOf footer footer.blockCount + footerLen + trailerLen ≠ fileLen := filled
    rw [rejectIf_of other]
    exact ⟨_, (if_neg filled).symm⟩

/-! ## The whole footer -/

theorem checkTables_meets {n : Nat} (few : n ≤ maxBlocks) {tables : List (Nat × Nat)}
    (narrow : ∀ table ∈ tables, table.2 ≤ hashLen) :
    Meets (fun _ => ∀ table ∈ tables, table.1 = n * table.2) (fun _ => True)
      (checkTables n tables) := by
  have bound := few.trans_lt maxBlocks_lt
  induction tables with
  | nil => exact Meets.ok fun table member => absurd member List.not_mem_nil
  | cons table rest ih =>
      obtain ⟨len, width⟩ := table
      have thin := narrow (len, width) List.mem_cons_self
      have product : n * width < 2 ^ 64 := by
        calc n * width ≤ 2 ^ 22 * 16 := Nat.mul_le_mul (by omega) thin
          _ < 2 ^ 64 := by decide
      rw [checkTables, mul_eq product, ok_bind]
      apply (Meets.rejectIf trivial).bind
      intro _ sized
      apply (ih fun other member => narrow other (List.mem_cons_of_mem _ member)).imp _
        (fun _ _ => trivial)
      intro _ others table member
      rcases List.mem_cons.mp member with rfl | later
      · exact not_not.mp sized
      · exact others table later

theorem checkTables_eq {n : Nat} (few : n ≤ maxBlocks) {tables : List (Nat × Nat)}
    (narrow : ∀ table ∈ tables, table.2 ≤ hashLen)
    (sized : ∀ table ∈ tables, table.1 = n * table.2) : checkTables n tables = .ok () := by
  have bound := few.trans_lt maxBlocks_lt
  induction tables with
  | nil => rfl
  | cons table rest ih =>
      obtain ⟨len, width⟩ := table
      have thin := narrow (len, width) List.mem_cons_self
      have product : n * width < 2 ^ 64 := by
        calc n * width ≤ 2 ^ 22 * 16 := Nat.mul_le_mul (by omega) thin
          _ < 2 ^ 64 := by decide
      rw [checkTables, mul_eq product, ok_bind,
        rejectIf_of_not (not_not.mpr (sized (len, width) List.mem_cons_self)), lift_ok, ok_bind]
      exact ih (fun other member => narrow other (List.mem_cons_of_mem _ member))
        (fun other member => sized other (List.mem_cons_of_mem _ member))

theorem blockSize_bounds {log2 : Nat} (within : minBlockLog2 ≤ log2 ∧ log2 ≤ maxBlockLog2) :
    1 <<< log2 = 2 ^ log2 ∧ 0 < 2 ^ log2 ∧ 2 ^ log2 ≤ 2 ^ 26 :=
  ⟨Nat.one_shiftLeft log2, Nat.pow_pos (by decide), Nat.pow_le_pow_right (by decide) within.2⟩

theorem shiftLeft_one {log2 : Nat} (within : minBlockLog2 ≤ log2 ∧ log2 ≤ maxBlockLog2) :
    (shiftLeft 64 1 log2 : Run BlockError Nat) = .ok (1 <<< log2) := by
  obtain ⟨power, -, small⟩ := blockSize_bounds within
  have high : log2 ≤ 26 := within.2
  rw [shiftLeft_eq (by omega), power, Nat.mod_eq_of_lt (small.trans_lt (by decide))]

theorem LoopBounds.of_covers {log2 : Nat} (within : minBlockLog2 ≤ log2 ∧ log2 ≤ maxBlockLog2)
    (few : footer.blockCount ≤ maxBlocks)
    (covers : divCeil footer.originalSize (1 <<< log2) = footer.blockCount) :
    LoopBounds footer (1 <<< log2) := by
  obtain ⟨power, positive, small⟩ := blockSize_bounds within
  rw [power] at covers ⊢
  exact { few, size := small, before := (divCeil_eq positive covers).2 }

theorem validateFooter_meets (footer : FooterV4) (flags : Nat) {log2 footerLen : Nat}
    (fileLen : Nat) (within : minBlockLog2 ≤ log2 ∧ log2 ≤ maxBlockLog2)
    (short : footerLen ≤ maxFooterLen) :
    Meets (fun checked => SoundFooter P footer flags log2 checked.1 ∧
        checked.2 = offsetsOf footer ∧ Fills footer fileLen footerLen)
      (fun _ => True) (validateFooter P footer flags log2 fileLen footerLen) := by
  unfold validateFooter
  apply (Meets.rejectIf trivial).bind
  intro _ sameFlags
  apply (Meets.rejectIf trivial).bind
  intro _ sameLog2
  apply (Meets.rejectIf trivial).bind
  intro _ fileHash
  apply (Meets.rejectIf trivial).bind
  intro _ fewPlans
  apply (Meets.lift (fun _ read => read) (fun _ _ => trivial)).bind
  intro plans readable
  apply (Meets.rejectIf trivial).bind
  intro _ few
  have few := Nat.le_of_not_lt few
  apply (checkTables_meets few (by simp [hashLen])).bind
  intro _ sized
  rw [shiftLeft_one within, ok_bind]
  apply (Meets.rejectIf trivial).bind
  intro _ covers
  have covers := not_not.mp covers
  apply (Meets.rejectIf trivial).bind
  intro _ empty
  have bounds := LoopBounds.of_covers within few covers
  apply (placeBlocks_meets bounds plans.length fileLen short).bind
  rintro _ ⟨rfl, filled, sound⟩
  apply Meets.ok
  refine ⟨?_, rfl, filled⟩
  exact
    { sameFlags := not_not.mp sameFlags, sameLog2 := not_not.mp sameLog2
      fileHash := not_not.mp fileHash, fewPlans := Nat.le_of_not_lt fewPlans, readable, few
      storedLens := sized (footer.storedLens.length, 4) (by simp)
      originalLens := sized (footer.originalLens.length, 4) (by simp)
      planIndices := sized (footer.planIndices.length, 2) (by simp)
      payloadHashes := sized (footer.payloadHashes.length, hashLen) (by simp)
      covers, entries := sound
      empty := fun none_ => by_contra fun other => empty ⟨none_, other⟩ }

/-- A sound footer fails, if at all, on the length of the file. -/
theorem SoundFooter.validateFooter_eq {flags log2 footerLen : Nat} {plans : List BlockPlan}
    (sound : SoundFooter P footer flags log2 plans)
    (within : minBlockLog2 ≤ log2 ∧ log2 ≤ maxBlockLog2) (short : footerLen ≤ maxFooterLen)
    (fileLen : Nat) :
    ∃ message, validateFooter P footer flags log2 fileLen footerLen =
      if Fills footer fileLen footerLen then .ok (plans, offsetsOf footer)
      else fails (.layoutInvalid message) := by
  have bounds := LoopBounds.of_covers within sound.few sound.covers
  obtain ⟨message, placed⟩ := placeBlocks_eq bounds fileLen short sound.entries
  refine ⟨message, ?_⟩
  unfold validateFooter
  rw [rejectIf_of_not (not_not.mpr sound.sameFlags), lift_ok, ok_bind,
    rejectIf_of_not (not_not.mpr sound.sameLog2), lift_ok, ok_bind,
    rejectIf_of_not (not_not.mpr sound.fileHash), lift_ok, ok_bind,
    rejectIf_of_not (Nat.not_lt_of_le sound.fewPlans), lift_ok, ok_bind, sound.readable, lift_ok,
    ok_bind]
  dsimp only
  rw [rejectIf_of_not (Nat.not_lt_of_le sound.few), lift_ok, ok_bind]
  have sized : checkTables footer.blockCount [(footer.storedLens.length, 4),
      (footer.originalLens.length, 4), (footer.planIndices.length, 2),
      (footer.payloadHashes.length, hashLen)] = .ok () := by
    apply checkTables_eq sound.few
    · simp [hashLen]
    · simp [sound.storedLens, sound.originalLens, sound.planIndices, sound.payloadHashes]
  rw [sized, ok_bind, shiftLeft_one within, ok_bind,
    rejectIf_of_not (not_not.mpr sound.covers), lift_ok, ok_bind,
    rejectIf_of_not (fun both => both.2 (sound.empty both.1)), lift_ok, ok_bind, placed]
  split <;> rfl

/-! ## The bytes of a file -/

def layOut (log2 : Nat) (body footerBytes : Bytes) : Bytes :=
  header log2 ++ (body ++ (footerBytes ++ trailer P footerBytes))

@[simp] theorem length_header (log2 : Nat) : (header log2).length = headerLen := rfl

@[simp] theorem length_shortHash (bytes : Bytes) : (shortHash P bytes).length = hashLen := by
  rw [shortHash, List.length_take, (P.blake3 bytes).property]
  rfl

@[simp] theorem length_trailer (footerBytes : Bytes) :
    (trailer P footerBytes).length = trailerLen := by
  simp [trailer, hashLen, magic, trailerLen]

theorem length_layOut (log2 : Nat) (body footerBytes : Bytes) :
    (layOut P log2 body footerBytes).length =
      headerLen + body.length + footerBytes.length + trailerLen := by
  simp only [layOut, List.length_append, length_header, length_trailer]
  omega

theorem readAt_meets (src : Bytes) (offset len : Nat) :
    Meets (fun data => offset + len ≤ src.length ∧ data = (src.drop offset).take len)
      (fun e => e = .truncated "leitura além do fim do arquivo") (readAt src offset len) := by
  unfold readAt checkedAdd
  split
  · by_cases inside : offset + len ≤ src.length
    · rw [Option.filter_some, if_pos (by simpa using inside), okOr, lift_ok, ok_bind,
        slice_eq (Nat.le_add_right _ _) inside, Nat.add_sub_cancel_left]
      exact Meets.ok ⟨inside, rfl⟩
    · rw [Option.filter_some, if_neg (by simpa using inside)]
      exact Meets.fail rfl
  · exact Meets.fail rfl

theorem readAt_eq {src : Bytes} {offset len : Nat} (inside : offset + len ≤ src.length)
    (word : src.length < 2 ^ 64) : readAt src offset len = .ok ((src.drop offset).take len) := by
  unfold readAt checkedAdd
  rw [if_pos (by omega), Option.filter_some, if_pos (by simpa using inside), okOr, lift_ok,
    ok_bind, slice_eq (Nat.le_add_right _ _) inside, Nat.add_sub_cancel_left]

theorem readAt_append {front part back : Bytes}
    (word : (front ++ (part ++ back)).length < 2 ^ 64) :
    readAt (front ++ (part ++ back)) front.length part.length = .ok part := by
  rw [readAt_eq (by simp) word, List.drop_left, List.take_left]

theorem readHeader_meets (src : Bytes) :
    Meets (fun head => headerLen ≤ src.length ∧
        src.take headerLen = magic ++ [head.1, head.2.1, head.2.2])
      (fun _ => True) (readHeader src) := by
  unfold readHeader
  apply ((readAt_meets src 0 _).imp (fun _ facts => facts) (fun _ _ => trivial)).bind
  rintro head ⟨-, read⟩
  apply (Meets.rejectIf trivial).bind
  intro _ signed
  apply (Meets.rejectIf trivial).bind
  intro _ long
  have sized : head.length = min (min src.length headerLen) src.length := by
    rw [read, List.drop_zero, List.length_take]
  simp only [headerLen] at read sized long ⊢
  have starts : head.take magic.length = magic := by
    by_contra other
    exact signed ⟨by simp only [magic, List.length_cons, List.length_nil]; omega, other⟩
  obtain ⟨version, flags, log2, rest⟩ := List.length_eq_three.mp
    (show (head.drop 4).length = 3 by rw [List.length_drop]; omega)
  have whole : head = magic ++ [version, flags, log2] := by
    rw [← starts, ← rest]
    exact (List.take_append_drop 4 head).symm
  rw [show min src.length 7 = 7 by omega, List.drop_zero] at read
  rw [whole] at read ⊢
  exact Meets.ok ⟨by omega, read.symm⟩

theorem readTrailer_meets (src : Bytes) :
    Meets (fun found => ∃ front, src = front ++ (LittleEndian.toBytes 4 found.1 ++ found.2 ++ magic) ∧
        found.2.length = hashLen ∧ found.1 ≤ maxFooterLen ∧ headerLen + found.1 ≤ front.length)
      (fun _ => True) (readTrailer src) := by
  unfold readTrailer
  apply (Meets.rejectIf trivial).bind
  intro _ room
  have room := Nat.le_of_not_lt room
  simp only [headerLen, trailerLen] at room ⊢
  rw [sub_eq (by omega), ok_bind]
  apply ((readAt_meets src _ _).imp (fun _ facts => facts) (fun _ _ => trivial)).bind
  rintro tail ⟨-, read⟩
  apply (Meets.rejectIf trivial).bind
  intro _ sized
  have sized := not_not.mp sized
  rw [List.take_of_length_le (by rw [List.length_drop]; omega)] at read
  have first : (slice tail 0 4 : Run BlockError Bytes) = .ok ((tail.drop 0).take 4) :=
    slice_eq (by decide) (by omega)
  have second : (slice tail 4 20 : Run BlockError Bytes) = .ok ((tail.drop 4).take 16) :=
    slice_eq (by decide) (by omega)
  have third : (slice tail 20 24 : Run BlockError Bytes) = .ok ((tail.drop 20).take 4) :=
    slice_eq (by decide) (by omega)
  rw [third, ok_bind]
  apply (Meets.rejectIf trivial).bind
  intro _ signed
  have signed := not_not.mp signed
  rw [first, ok_bind]
  generalize wordIs : (tail.drop 0).take 4 = word
  have wordLen : word.length = 4 := by rw [← wordIs, List.length_take, List.length_drop]; omega
  have wordBack := LittleEndian.toBytes_ofBytes word
  rw [wordLen] at wordBack
  have small := LittleEndian.ofBytes_lt word
  rw [wordLen] at small
  apply (Meets.rejectIf trivial).bind
  intro _ short
  rw [add_eq (by omega), ok_bind]
  apply (Meets.rejectIf trivial).bind
  intro _ fits
  rw [second, ok_bind]
  apply Meets.ok
  refine ⟨src.take (src.length - 24), ?_, ?_, Nat.le_of_not_lt short, ?_⟩
  · have parts : tail = word ++ ((tail.drop 4).take 16 ++ magic) := by
      rw [← wordIs, ← signed, List.drop_zero,
        List.take_of_length_le (l := tail.drop 20) (by rw [List.length_drop]; omega),
        show tail.drop 20 = (tail.drop 4).drop 16 by rw [List.drop_drop], List.take_append_drop,
        List.take_append_drop]
    dsimp only
    rw [wordBack, List.append_assoc, ← parts, read, List.take_append_drop]
  · dsimp only
    rw [List.length_take, List.length_drop, sized]
    rfl
  · dsimp only
    rw [List.length_take]
    omega

theorem readFooter_meets {front tail : Bytes} (ends : tail.length = trailerLen) {footerLen : Nat}
    (fits : footerLen ≤ front.length) (hash : Bytes) :
    Meets (fun footer => ∃ before footerBytes, front = before ++ footerBytes ∧
        footerBytes.length = footerLen ∧ shortHash P footerBytes = hash ∧
        P.decodeFooter footerBytes = .ok footer)
      (fun _ => True) (readFooter P (front ++ tail) footerLen hash) := by
  unfold readFooter
  rw [List.length_append, ends, sub_eq (by omega), ok_bind, Nat.add_sub_cancel, sub_eq fits, ok_bind]
  apply ((readAt_meets _ _ _).imp (fun _ facts => facts) (fun _ _ => trivial)).bind
  rintro footerBytes ⟨-, read⟩
  rw [List.drop_append_of_le_length (by omega), List.take_append_of_le_length (by simp; omega),
    List.take_of_length_le (by simp; omega)] at read
  apply (Meets.rejectIf trivial).bind
  intro _ hashed
  apply (Meets.lift (fun _ scanned => scanned) (fun _ _ => trivial)).bind
  rintro _ -
  apply Meets.lift _ (fun _ _ => trivial)
  intro footer decoded
  refine ⟨front.take (front.length - footerLen), footerBytes, ?_, ?_, not_not.mp hashed,
    mapError_eq_ok.mp decoded⟩
  · rw [read, List.take_append_drop]
  · rw [read, List.length_drop]
    omega

/-! ## Opening -/

def readerOf (log2 : Nat) (body footerBytes : Bytes) (plans : List BlockPlan) (footer : FooterV4) :
    Reader :=
  { src := layOut P log2 body footerBytes
    fileLen := (layOut P log2 body footerBytes).length
    footerLen := footerBytes.length, log2, plans, offsets := offsetsOf footer, footer }

/-- What opening makes sure of. -/
structure Opens (log2 : Nat) (body footerBytes : Bytes) (plans : List BlockPlan)
    (footer : FooterV4) : Prop where
  within : minBlockLog2 ≤ log2 ∧ log2 ≤ maxBlockLog2
  short : footerBytes.length ≤ maxFooterLen
  decoded : P.decodeFooter footerBytes = .ok footer
  sound : SoundFooter P footer 0 log2 plans
  filled : body.length = (storedLens footer).sum

theorem fills_layOut {log2 : Nat} {body footerBytes : Bytes} :
    Fills footer (layOut P log2 body footerBytes).length footerBytes.length ↔
      body.length = (storedLens footer).sum := by
  have last := offset_end headerLen (storedLens footer)
  rw [length_storedLens] at last
  unfold Fills offsetOf
  rw [last, length_layOut]
  omega

theorem header_of_take {log2 : UInt8} {src front : Bytes} {version flags : UInt8}
    (current : version = formatVersion) (known : flags = 0)
    (starts : src.take headerLen = magic ++ [version, flags, log2])
    (long : headerLen ≤ front.length) {back : Bytes} (split : src = front ++ back) :
    front = header log2.toNat ++ front.drop headerLen := by
  have same : front.take headerLen = header log2.toNat := by
    rw [split, List.take_append_of_le_length long, current, known] at starts
    rw [starts, header, UInt8.ofNat_toNat]
  rw [← same, List.take_append_drop]

/-- Opening never panics, and a file that opens is laid out as its reader says. -/
theorem fromBytes_meets (src : Bytes) :
    Meets (fun r => ∃ log2 body footerBytes plans footer,
        src = layOut P log2 body footerBytes ∧ Opens P log2 body footerBytes plans footer ∧
          r = readerOf P log2 body footerBytes plans footer)
      (fun _ => True) (Reader.fromBytes P src) := by
  unfold Reader.fromBytes
  apply (readHeader_meets src).bind
  rintro ⟨version, flags, log2⟩ ⟨-, starts⟩
  dsimp only at starts ⊢
  apply (Meets.rejectIf trivial).bind
  intro _ current
  apply (Meets.rejectIf trivial).bind
  intro _ known
  have known : flags = 0 := by simpa [knownFlags] using known
  apply (Meets.lift (fun _ valid => valid) (fun _ _ => trivial)).bind
  intro _ valid
  have within := checkLog2_eq_ok.mp valid
  apply (readTrailer_meets src).bind
  rintro ⟨footerLen, hash⟩ ⟨front, split, hashLen_, short, room⟩
  dsimp only at split hashLen_ short room ⊢
  have ends : (LittleEndian.toBytes 4 footerLen ++ hash ++ magic).length = trailerLen := by
    simp [hashLen_, hashLen, magic, trailerLen]
  rw [split]
  apply (readFooter_meets P ends (by omega) hash).bind
  rintro footer ⟨before, footerBytes, rfl, sized, hashed, decoded⟩
  rw [List.length_append] at room
  apply (validateFooter_meets P footer flags.toNat _ within short).bind
  rintro ⟨plans, offsets⟩ ⟨sound, placed, filled⟩
  dsimp only at sound placed filled ⊢
  apply Meets.ok
  rw [List.append_assoc] at split
  have begins := header_of_take (not_not.mp current) known starts (by omega) split
  have whole : src = layOut P log2.toNat (before.drop headerLen) footerBytes := by
    rw [layOut, trailer, hashed, sized, split]
    conv_lhs => rw [begins]
    simp only [List.append_assoc]
  have same : before ++ footerBytes ++ (LittleEndian.toBytes 4 footerLen ++ hash ++ magic) =
      layOut P log2.toNat (before.drop headerLen) footerBytes := by
    rw [← whole, split, List.append_assoc]
  rw [same] at filled ⊢
  rw [known] at sound
  rw [← sized] at filled short ⊢
  refine ⟨log2.toNat, before.drop headerLen, footerBytes, plans, footer, rfl, ?_, ?_⟩
  · exact { within, short, decoded, sound, filled := (fills_layOut P).mp filled }
  · rw [placed]
    rfl

theorem readHeader_eq {version flags log2 : UInt8} {rest : Bytes}
    (word : (magic ++ [version, flags, log2] ++ rest).length < 2 ^ 64) :
    readHeader (magic ++ [version, flags, log2] ++ rest) = .ok (version, flags, log2) := by
  have long : headerLen ≤ (magic ++ [version, flags, log2] ++ rest).length := by
    simp [magic, headerLen]
  unfold readHeader
  rw [Nat.min_eq_right long, readAt_eq (by omega) word, ok_bind]
  rfl

theorem slice_trailer (footerBytes : Bytes) :
    (slice (trailer P footerBytes) 0 4 : Run BlockError Bytes) =
        .ok (LittleEndian.toBytes 4 footerBytes.length) ∧
      (slice (trailer P footerBytes) 4 20 : Run BlockError Bytes) =
        .ok (shortHash P footerBytes) ∧
      (slice (trailer P footerBytes) 20 24 : Run BlockError Bytes) = .ok magic := by
  have ends : (trailer P footerBytes).length = 24 := length_trailer P footerBytes
  have hashed : (shortHash P footerBytes).length = 16 := length_shortHash P footerBytes
  have word := LittleEndian.length_toBytes 4 footerBytes.length
  rw [slice_eq (by decide) (by omega), slice_eq (by decide) (by omega),
    slice_eq (by decide) (by omega)]
  refine ⟨?_, ?_, ?_⟩
  · rw [trailer, List.append_assoc, List.drop_zero, List.take_left' word]
  · rw [trailer, List.append_assoc, List.drop_left' word, List.take_left' hashed]
  · rw [trailer, List.drop_left' (by rw [List.length_append, word, hashed])]
    rfl

theorem readTrailer_eq {front footerBytes : Bytes} (short : footerBytes.length ≤ maxFooterLen)
    (room : headerLen + footerBytes.length ≤ front.length)
    (word : (front ++ trailer P footerBytes).length < 2 ^ 64) :
    readTrailer (front ++ trailer P footerBytes) =
      .ok (footerBytes.length, shortHash P footerBytes) := by
  have ends := length_trailer P footerBytes
  have total : (front ++ trailer P footerBytes).length = front.length + trailerLen := by
    rw [List.length_append, ends]
  obtain ⟨first, second, third⟩ := slice_trailer P footerBytes
  have fits : footerBytes.length < 256 ^ 4 := short.trans_lt (by decide)
  have small : headerLen + trailerLen + footerBytes.length < 2 ^ 64 := by
    simp only [headerLen, trailerLen]
    omega
  unfold readTrailer
  rw [total, rejectIf_of_not (by omega), lift_ok, ok_bind, sub_eq (by omega), ok_bind,
    readAt_eq (by omega) word, ok_bind, Nat.add_sub_cancel, List.drop_left, ← ends,
    List.take_length, rejectIf_of_not (by simp), lift_ok, ok_bind, third, ok_bind,
    rejectIf_of_not (by simp), lift_ok, ok_bind, first, ok_bind]
  dsimp only
  rw [LittleEndian.ofBytes_toBytes_of_lt 4 _ fits, rejectIf_of_not (Nat.not_lt_of_le short),
    lift_ok, ok_bind, ends, add_eq small, ok_bind, rejectIf_of_not (by omega), lift_ok, ok_bind,
    second, ok_bind]

theorem readFooter_eq {front footerBytes tail : Bytes} (ends : tail.length = trailerLen)
    (word : (front ++ footerBytes ++ tail).length < 2 ^ 64)
    (scanned : scanFooter footerBytes = .ok ()) (decoded : P.decodeFooter footerBytes = .ok footer) :
    readFooter P (front ++ footerBytes ++ tail) footerBytes.length (shortHash P footerBytes) =
      .ok footer := by
  unfold readFooter
  have total : (front ++ footerBytes ++ tail).length =
      front.length + footerBytes.length + trailerLen := by
    rw [List.length_append, List.length_append, ends]
  rw [total, sub_eq (by omega), ok_bind, Nat.add_sub_cancel, sub_eq (by omega), ok_bind,
    Nat.add_sub_cancel, List.append_assoc, readAt_append (by rwa [← List.append_assoc]), ok_bind,
    rejectIf_of_not (by simp), lift_ok, ok_bind, scanned, decoded]
  rfl

/-- A file so laid out opens when its blocks have the length that the table says. -/
theorem fromBytes_layOut {log2 : Nat} {body footerBytes : Bytes} {plans : List BlockPlan}
    (within : minBlockLog2 ≤ log2 ∧ log2 ≤ maxBlockLog2)
    (short : footerBytes.length ≤ maxFooterLen) (scanned : scanFooter footerBytes = .ok ())
    (decoded : P.decodeFooter footerBytes = .ok footer) (sound : SoundFooter P footer 0 log2 plans)
    (word : (layOut P log2 body footerBytes).length < 2 ^ 64) :
    ∃ message, Reader.fromBytes P (layOut P log2 body footerBytes) =
      if body.length = (storedLens footer).sum then .ok (readerOf P log2 body footerBytes plans footer)
      else fails (.layoutInvalid message) := by
  have byte : (UInt8.ofNat log2).toNat = log2 := by
    have high : log2 ≤ 26 := within.2
    rw [UInt8.toNat_ofNat', Nat.mod_eq_of_lt (by omega)]
  obtain ⟨message, validated⟩ := sound.validateFooter_eq P within short
    (layOut P log2 body footerBytes).length
  refine ⟨message, ?_⟩
  have head : readHeader (layOut P log2 body footerBytes) =
      .ok (formatVersion, 0, UInt8.ofNat log2) := readHeader_eq word
  have split : layOut P log2 body footerBytes =
      header log2 ++ body ++ footerBytes ++ trailer P footerBytes := by
    simp only [layOut, List.append_assoc]
  have tail : readTrailer (layOut P log2 body footerBytes) =
      .ok (footerBytes.length, shortHash P footerBytes) := by
    rw [split] at word ⊢
    apply readTrailer_eq P short _ word
    rw [List.length_append, List.length_append, length_header]
    omega
  have found : readFooter P (layOut P log2 body footerBytes) footerBytes.length
      (shortHash P footerBytes) = .ok footer := by
    rw [split] at word ⊢
    exact readFooter_eq P (length_trailer P footerBytes) word scanned decoded
  unfold Reader.fromBytes
  rw [head, ok_bind]
  dsimp only
  rw [rejectIf_of_not (by simp), lift_ok, ok_bind, rejectIf_of_not (by simp), lift_ok, ok_bind,
    byte, checkLog2_eq_ok.mpr within, lift_ok, ok_bind, tail, ok_bind]
  dsimp only
  rw [found, ok_bind, show (0 : UInt8).toNat = 0 from rfl, validated]
  by_cases filled : body.length = (storedLens footer).sum
  · rw [if_pos ((fills_layOut P).mpr filled), if_pos filled]
    rfl
  · rw [if_neg fun fills => filled ((fills_layOut P).mp fills), if_neg filled]
    rfl

end Syntra.Blockfile

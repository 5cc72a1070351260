import Syntra.Blockfile.OneBlock
import Syntra.Blockfile.Opened

/-!
# Reading from an opened file

Every block of an opened file lies inside it, so a read fails only on its hash,
its dictionary or its decoding.
-/

set_option autoImplicit false

namespace Syntra.Blockfile

open Fallible Machine Tiling Text

variable {P : Platform} {log2 : Nat} {body footerBytes : Bytes} {plans : List BlockPlan}
  {footer : FooterV4}

/-! ## The numbers of a sound footer -/

theorem SoundFooter.count_lt {flags : Nat} (sound : SoundFooter P footer flags log2 plans) :
    footer.blockCount < 2 ^ 22 := sound.few.trans_lt maxBlocks_lt

theorem Opens.length_lt (opens : Opens P log2 body footerBytes plans footer) :
    (layOut P log2 body footerBytes).length < 2 ^ 64 := by
  have last := offsetOf_le (Nat.le_refl footer.blockCount)
  have few := opens.sound.count_lt
  have short := opens.short
  have fills : Fills footer (layOut P log2 body footerBytes).length footerBytes.length :=
    (fills_layOut P).mpr opens.filled
  simp only [Fills, headerLen, maxFooterLen, trailerLen] at *
  omega

theorem offsetOf_add_le {i : Nat} (inside : i < footer.blockCount) :
    offsetOf footer i + (entryAt footer i).storedLen ≤ headerLen + (storedLens footer).sum := by
  apply offset_add_le
  rw [storedLens, List.getElem?_map, getElem?_entries inside]
  rfl

theorem Opens.block_within (opens : Opens P log2 body footerBytes plans footer) {i : Nat}
    (inside : i < footer.blockCount) :
    offsetOf footer i + (entryAt footer i).storedLen ≤ headerLen + body.length := by
  rw [opens.filled]
  exact offsetOf_add_le inside

theorem getElem?_offsetsOf {i : Nat} (inside : i < footer.blockCount) :
    (offsetsOf footer)[i]? = some (offsetOf footer i) := by
  rw [offsetsOf, List.getElem?_map, List.getElem?_range (by omega)]
  rfl

theorem SoundFooter.hash_at {flags : Nat} (sound : SoundFooter P footer flags log2 plans) {i : Nat}
    (inside : i < footer.blockCount) :
    (i + 1) * hashLen ≤ footer.payloadHashes.length ∧
      (mul 64 i hashLen : Run BlockError Nat) = .ok (i * hashLen) ∧
      (add 64 i 1 : Run BlockError Nat) = .ok (i + 1) ∧
      (mul 64 (i + 1) hashLen : Run BlockError Nat) = .ok ((i + 1) * hashLen) := by
  have few := sound.count_lt
  rw [sound.payloadHashes]
  simp only [hashLen]
  exact ⟨by omega, mul_eq (by omega), add_eq (by omega), mul_eq (by omega)⟩

/-! ## Fetching -/

def payloadAt (src : Bytes) (footer : FooterV4) (i : Nat) : Bytes :=
  (src.drop (offsetOf footer i)).take (entryAt footer i).storedLen

/-- A block inside the file is fetched when its hash is the one of the table. -/
theorem SoundFooter.fetch_eq {flags : Nat} (sound : SoundFooter P footer flags log2 plans)
    {src : Bytes} {i : Nat} (inside : i < footer.blockCount)
    (room : offsetOf footer i + (entryAt footer i).storedLen ≤ src.length)
    (word : src.length < 2 ^ 64) :
    fetch P src (offsetsOf footer) footer i =
      if shortHash P (payloadAt src footer i) = (entryAt footer i).payloadHash then
        .ok (payloadAt src footer i)
      else fails (.blockCorrupted i (hexEncode (entryAt footer i).payloadHash)
        (hexEncode (shortHash P (payloadAt src footer i)))) := by
  obtain ⟨hashes, lo, next, hi⟩ := sound.hash_at inside
  have few := sound.count_lt
  have range : getRange footer.payloadHashes (i * hashLen) ((i + 1) * hashLen) =
      some (entryAt footer i).payloadHash := by
    rw [Nat.succ_mul] at hashes ⊢
    exact getRange_eq hashes
  have stored : leU32 footer.storedLens i = .ok (entryAt footer i).storedLen :=
    leWord_eq (by omega) _
  have read : readAt src (offsetOf footer i) (entryAt footer i).storedLen =
      .ok (payloadAt src footer i) := readAt_eq room word
  unfold fetch
  dsimp only
  rw [rejectIf_of_not (by omega), lift_ok, ok_bind, index_eq (getElem?_offsetsOf inside), ok_bind,
    stored, ok_bind, read, ok_bind, lo, ok_bind, next, ok_bind, hi, ok_bind, range, okOr, lift_ok,
    ok_bind]
  by_cases same : shortHash P (payloadAt src footer i) = (entryAt footer i).payloadHash
  · rw [rejectIf_of_not (not_not.mpr same), if_pos same]
    rfl
  · have other : shortHash P (payloadAt src footer i) ≠ (entryAt footer i).payloadHash := same
    rw [rejectIf_of other, if_neg same]
    rfl

def BlockError.isCorrupted : BlockError → Bool
  | blockCorrupted _ _ _ => true
  | _ => false

/-- The errors of a file whose parts do not fit together. -/
def BlockError.isStructural : BlockError → Bool
  | layoutInvalid _ | truncated _ | blockOutOfRange _ _ => true
  | _ => false

theorem SoundFooter.fetch_meets {flags : Nat} (sound : SoundFooter P footer flags log2 plans)
    {src : Bytes} {i : Nat} (inside : i < footer.blockCount)
    (room : offsetOf footer i + (entryAt footer i).storedLen ≤ src.length)
    (word : src.length < 2 ^ 64) :
    Meets (fun data => data = payloadAt src footer i) (fun e => e.isCorrupted = true)
      (fetch P src (offsetsOf footer) footer i) := by
  rw [sound.fetch_eq inside room word]
  split
  · exact Meets.ok rfl
  · exact Meets.fail rfl

theorem Opens.room (opens : Opens P log2 body footerBytes plans footer) {i : Nat}
    (inside : i < footer.blockCount) :
    offsetOf footer i + (entryAt footer i).storedLen ≤
      (layOut P log2 body footerBytes).length := by
  rw [length_layOut]
  exact (opens.block_within inside).trans (by omega)

theorem Opens.fetch_eq (opens : Opens P log2 body footerBytes plans footer) {i : Nat}
    (inside : i < footer.blockCount) :
    fetch P (layOut P log2 body footerBytes) (offsetsOf footer) footer i =
      if shortHash P (payloadAt (layOut P log2 body footerBytes) footer i) =
          (entryAt footer i).payloadHash then
        .ok (payloadAt (layOut P log2 body footerBytes) footer i)
      else fails (.blockCorrupted i (hexEncode (entryAt footer i).payloadHash)
        (hexEncode (shortHash P (payloadAt (layOut P log2 body footerBytes) footer i)))) :=
  opens.sound.fetch_eq inside (opens.room inside) opens.length_lt

/-! ## Reading a block -/

theorem SoundFooter.plan_there {flags : Nat} (sound : SoundFooter P footer flags log2 plans)
    {i : Nat} (inside : i < footer.blockCount) :
    ∃ plan, plans[(entryAt footer i).planIdx]? = some plan :=
  ⟨_, List.getElem?_eq_getElem (sound.entries i inside).planIdx⟩

theorem SoundFooter.fetchPlanned_eq {flags : Nat} {r : Reader}
    (sound : SoundFooter P r.footer flags r.log2 r.plans) {i : Nat}
    (inside : i < r.footer.blockCount) {plan : BlockPlan}
    (found : r.plans[(entryAt r.footer i).planIdx]? = some plan) :
    r.fetchPlanned P i = fetch P r.src r.offsets r.footer i >>= fun payload =>
      .ok (payload, (entryAt r.footer i).planIdx, plan) := by
  have few := sound.count_lt
  have planned : leU16 r.footer.planIndices i = .ok (entryAt r.footer i).planIdx :=
    leWord_eq (by omega) _
  unfold Reader.fetchPlanned
  rw [planned]
  simp only [ok_bind, found, okOr, lift_ok]

/-- Reading a block alone: its payload, its dictionary and its decoding. -/
theorem SoundFooter.readBlock_eq {flags : Nat} {r : Reader}
    (sound : SoundFooter P r.footer flags r.log2 r.plans) {i : Nat}
    (inside : i < r.footer.blockCount) {plan : BlockPlan}
    (found : r.plans[(entryAt r.footer i).planIdx]? = some plan)
    (dicts : String → Option Dictionary) :
    r.readBlock P i dicts = fetch P r.src r.offsets r.footer i >>= fun payload =>
      lift (Reader.planDictionary plan (entryAt r.footer i).planIdx i dicts []).1 >>= fun dict =>
        lift ((decodeBlock P.codecs payload plan (dict.map (·.bytes))
          (entryAt r.footer i).originalLen).mapError fun e => .blockDecode i e.text) := by
  have few := sound.count_lt
  have original : leU32 r.footer.originalLens i = .ok (entryAt r.footer i).originalLen :=
    leWord_eq (by omega) _
  unfold Reader.readBlock Reader.readCached
  rw [sound.fetchPlanned_eq inside found]
  cases fetch P r.src r.offsets r.footer i with
  | error stop => rfl
  | ok payload =>
      simp only [ok_bind, Reader.decodePlanned, original]

theorem Opens.readBlock_eq (opens : Opens P log2 body footerBytes plans footer) {i : Nat}
    (inside : i < footer.blockCount) {plan : BlockPlan}
    (found : plans[(entryAt footer i).planIdx]? = some plan) (dicts : String → Option Dictionary) :
    (readerOf P log2 body footerBytes plans footer).readBlock P i dicts =
      fetch P (layOut P log2 body footerBytes) (offsetsOf footer) footer i >>= fun payload =>
        lift (Reader.planDictionary plan (entryAt footer i).planIdx i dicts []).1 >>= fun dict =>
          lift ((decodeBlock P.codecs payload plan (dict.map (·.bytes))
            (entryAt footer i).originalLen).mapError fun e => .blockDecode i e.text) :=
  SoundFooter.readBlock_eq (r := readerOf P log2 body footerBytes plans footer) opens.sound inside
    found dicts

theorem planDictionary_meets (plan : BlockPlan) (planIdx i : Nat)
    (dicts : String → Option Dictionary) (cache : DictCache) :
    Meets (fun _ => True) (fun e => e.isStructural = false)
      (lift (Reader.planDictionary plan planIdx i dicts cache).1) := by
  unfold Reader.planDictionary
  cases plan.dictionary with
  | none => exact Meets.ok trivial
  | some reference =>
      dsimp only [dictionaryFor]
      split
      · exact Meets.ok trivial
      · split
        · exact Meets.fail rfl
        · split
          · exact Meets.fail rfl
          · exact Meets.ok trivial

theorem decodePlanned_meets {r : Reader} {i : Nat} (few : i < 2 ^ 22) (payload : Bytes)
    (plan : BlockPlan) {dict : Except BlockError (Option Dictionary)}
    (found : Meets (fun _ => True) (fun e => e.isStructural = false) (lift dict)) :
    Meets (fun _ => True) (fun e => e.isStructural = false)
      (r.decodePlanned P i payload plan dict) := by
  have original : leU32 r.footer.originalLens i = .ok (entryAt r.footer i).originalLen :=
    leWord_eq (by omega) _
  unfold Reader.decodePlanned
  apply found.bind
  intro dict _
  rw [original, ok_bind]
  apply Meets.lift (fun _ _ => trivial)
  intro e failed
  cases decoded : decodeBlock P.codecs payload plan (dict.map (·.bytes))
      (entryAt r.footer i).originalLen with
  | ok out =>
      rw [decoded] at failed
      cases failed
  | error reason =>
      rw [decoded] at failed
      cases failed
      rfl

theorem Opens.readBlock_meets (opens : Opens P log2 body footerBytes plans footer) {i : Nat}
    (inside : i < footer.blockCount) (dicts : String → Option Dictionary) :
    Meets (fun _ => True) (fun e => e.isStructural = false)
      ((readerOf P log2 body footerBytes plans footer).readBlock P i dicts) := by
  have sound := opens.sound
  obtain ⟨plan, found⟩ := sound.plan_there inside
  have planned := SoundFooter.fetchPlanned_eq (r := readerOf P log2 body footerBytes plans footer)
    sound inside found
  have fetched : Meets _ _ (fetch P (layOut P log2 body footerBytes) (offsetsOf footer) footer i) :=
    sound.fetch_meets inside (opens.room inside) opens.length_lt
  unfold Reader.readBlock Reader.readCached
  rw [planned]
  dsimp only [readerOf] at fetched ⊢
  cases run : fetch P (layOut P log2 body footerBytes) (offsetsOf footer) footer i with
  | ok payload =>
      exact decodePlanned_meets (inside.trans sound.count_lt) _ _
        (planDictionary_meets plan _ i dicts [])
  | error stop =>
      rw [run] at fetched
      cases fetched with
      | fail corrupted =>
          apply Meets.fail
          rename_i e
          cases e with
          | blockCorrupted _ _ _ => rfl
          | _ => cases corrupted

/-! ## The table that is reported -/

def infoAt (footer : FooterV4) (i : Nat) : BlockInfo :=
  { index := i
    offset := offsetOf footer i
    storedLen := (entryAt footer i).storedLen
    originalLen := (entryAt footer i).originalLen
    planIdx := (entryAt footer i).planIdx
    payloadHash := (entryAt footer i).payloadHash }

def infos (footer : FooterV4) : List BlockInfo := (List.range footer.blockCount).map (infoAt footer)

theorem getElem?_infos (footer : FooterV4) (i : Nat) :
    (infos footer)[i]? = if i < footer.blockCount then some (infoAt footer i) else none := by
  by_cases inside : i < footer.blockCount
  · rw [if_pos inside, infos, List.getElem?_map, List.getElem?_range inside]
    rfl
  · rw [if_neg inside, List.getElem?_eq_none (by simpa [infos] using Nat.le_of_not_lt inside)]

theorem SoundFooter.blockInfo_eq {flags : Nat} {r : Reader}
    (sound : SoundFooter P r.footer flags r.log2 r.plans) (placed : r.offsets = offsetsOf r.footer)
    (i : Nat) : r.blockInfo i = .ok (infos r.footer)[i]? := by
  have few := sound.count_lt
  unfold Reader.blockInfo
  rw [getElem?_infos]
  by_cases outside : r.blockCount ≤ i
  · have beyond : ¬ i < r.footer.blockCount := Nat.not_lt_of_le outside
    rw [if_pos outside, if_neg beyond]
  · have inside : i < r.footer.blockCount := Nat.lt_of_not_le outside
    obtain ⟨hashes, lo, next, hi⟩ := sound.hash_at inside
    have stored : leU32 r.footer.storedLens i = .ok (entryAt r.footer i).storedLen :=
      leWord_eq (by omega) _
    have original : leU32 r.footer.originalLens i = .ok (entryAt r.footer i).originalLen :=
      leWord_eq (by omega) _
    have planned : leU16 r.footer.planIndices i = .ok (entryAt r.footer i).planIdx :=
      leWord_eq (by omega) _
    have order : i * hashLen ≤ (i + 1) * hashLen := Nat.mul_le_mul_right _ (Nat.le_succ i)
    have width : (i + 1) * hashLen - i * hashLen = hashLen := by
      rw [Nat.succ_mul, Nat.add_sub_cancel_left]
    rw [if_neg outside, if_pos inside, lo, ok_bind, next, ok_bind, hi, ok_bind,
      slice_eq order hashes, ok_bind, placed, index_eq (getElem?_offsetsOf inside), ok_bind, stored,
      ok_bind, original, ok_bind, planned, ok_bind, width]
    rfl

structure SoundTable (r : Reader) (file : Bytes) (blocks : List BlockInfo) : Prop where
  reported : ∀ i, r.blockInfo i = .ok blocks[i]?
  room : headerLen + r.footerLen + trailerLen ≤ file.length
  tiles : Tiles headerLen (file.length - trailerLen - r.footerLen)
    (blocks.map fun b => (b.offset, b.storedLen))
  planned : ∀ b ∈ blocks, b.planIdx < r.plans.length
  slack : ∀ b ∈ blocks, b.storedLen ≤ slackLen b.originalLen
  full : ∀ b ∈ blocks.dropLast, b.originalLen = 1 <<< r.log2
  last : ∀ b ∈ blocks.getLast?, 0 < b.originalLen ∧ b.originalLen ≤ 1 <<< r.log2
  whole : (blocks.map (·.originalLen)).sum = r.originalSize
  entries : entryBytes * r.blockCount ≤ r.footerLen

/-- prost takes the tables of a footer out of its bytes, each from a place of its own. -/
def CopiesTables (P : Platform) : Prop :=
  ∀ bytes footer, P.decodeFooter bytes = .ok footer → ∃ tables : List Bytes,
    tables.Perm [footer.storedLens, footer.originalLens, footer.planIndices, footer.payloadHashes] ∧
      tables.flatten.Sublist bytes

theorem SoundFooter.entries_le {flags : Nat} (sound : SoundFooter P footer flags log2 plans)
    (copies : CopiesTables P) (decoded : P.decodeFooter footerBytes = .ok footer) :
    entryBytes * footer.blockCount ≤ footerBytes.length := by
  obtain ⟨tables, order, inside⟩ := copies footerBytes footer decoded
  have length := inside.length_le
  rw [List.length_flatten, (order.map List.length).sum_eq] at length
  simp only [List.map_cons, List.map_nil, List.sum_cons, List.sum_nil, sound.storedLens,
    sound.originalLens, sound.planIndices, sound.payloadHashes, hashLen] at length
  simp only [entryBytes, hashLen]
  omega

theorem sum_expected {originalSize n blockSize : Nat} (empty : n = 0 → originalSize = 0)
    (before : 0 < n → (n - 1) * blockSize ≤ originalSize) :
    ((List.range n).map (expected originalSize n blockSize)).sum = originalSize := by
  cases n with
  | zero => exact (empty rfl).symm
  | succ m =>
      have front : (List.range m).map (expected originalSize (m + 1) blockSize) =
          List.replicate m blockSize := by
        rw [List.eq_replicate_iff]
        refine ⟨by simp, fun len member => ?_⟩
        obtain ⟨i, inside, rfl⟩ := List.mem_map.mp member
        exact if_pos (Nat.succ_lt_succ (List.mem_range.mp inside))
      have back := before (Nat.succ_pos m)
      rw [List.range_succ, List.map_append, front, List.sum_append, List.sum_replicate_nat,
        List.map_singleton, List.sum_singleton, expected, if_neg (Nat.lt_irrefl _)]
      rw [Nat.add_sub_cancel] at back ⊢
      omega

theorem map_infos_tiles (footer : FooterV4) :
    (infos footer).map (fun b => (b.offset, b.storedLen)) = lay headerLen (storedLens footer) := by
  apply List.ext_getElem?
  intro i
  rw [List.getElem?_map, getElem?_infos, getElem?_lay, storedLens, List.getElem?_map]
  by_cases inside : i < footer.blockCount
  · rw [if_pos inside, getElem?_entries inside]
    rfl
  · rw [if_neg inside, List.getElem?_eq_none (by simpa using Nat.le_of_not_lt inside)]
    rfl

theorem Opens.table (opens : Opens P log2 body footerBytes plans footer) (copies : CopiesTables P) :
    SoundTable (readerOf P log2 body footerBytes plans footer)
      (layOut P log2 body footerBytes) (infos footer) := by
  have sound := opens.sound
  have length := length_layOut P log2 body footerBytes
  obtain ⟨power, positive, -⟩ := blockSize_bounds opens.within
  have covers := sound.covers
  rw [power] at covers
  obtain ⟨most, least⟩ := divCeil_eq positive covers
  have at_ : ∀ b ∈ infos footer, ∃ i < footer.blockCount, b = infoAt footer i := by
    intro b member
    obtain ⟨i, inside, rfl⟩ := List.mem_map.mp member
    exact ⟨i, List.mem_range.mp inside, rfl⟩
  refine
    { reported := fun i => SoundFooter.blockInfo_eq (r := readerOf P log2 body footerBytes plans
        footer) sound rfl i
      room := ?_, tiles := ?_, planned := ?_, slack := ?_, full := ?_, last := ?_, whole := ?_
      entries := sound.entries_le copies opens.decoded }
  · simp only [readerOf]
    omega
  · have stop : (layOut P log2 body footerBytes).length - trailerLen -
        (readerOf P log2 body footerBytes plans footer).footerLen =
          headerLen + (storedLens footer).sum := by
      rw [← opens.filled]
      simp only [readerOf]
      omega
    rw [stop, map_infos_tiles]
    exact tiles_lay headerLen (storedLens footer)
  · intro b member
    obtain ⟨i, inside, rfl⟩ := at_ b member
    exact (sound.entries i inside).planIdx
  · intro b member
    obtain ⟨i, inside, rfl⟩ := at_ b member
    exact (sound.entries i inside).storedLen
  · intro b member
    cases count : footer.blockCount with
    | zero =>
        rw [infos, count] at member
        cases member
    | succ m =>
        rw [infos, count, List.range_succ, List.map_append, List.map_singleton,
          List.dropLast_concat] at member
        obtain ⟨i, inside, rfl⟩ := List.mem_map.mp member
        have before := List.mem_range.mp inside
        have declared := (sound.entries i (by omega)).originalLen
        rwa [expected, if_pos (by omega)] at declared
  · intro b member
    cases count : footer.blockCount with
    | zero =>
        rw [infos, count] at member
        cases member
    | succ m =>
        rw [infos, count, List.range_succ, List.map_append, List.map_singleton,
          List.getLast?_concat] at member
        obtain rfl := Option.mem_some_iff.mp member
        have declared := (sound.entries m (by omega)).originalLen
        rw [expected, if_neg (by omega), count, power, Nat.add_sub_cancel] at declared
        have low := least (by omega)
        rw [count, Nat.add_sub_cancel] at low
        rw [count, Nat.succ_mul] at most
        simp only [infoAt, readerOf, declared, power]
        omega
  · have lens : (infos footer).map (·.originalLen) = (List.range footer.blockCount).map
        (expected footer.originalSize footer.blockCount (2 ^ log2)) := by
      rw [infos, List.map_map]
      apply List.map_congr_left
      intro i inside
      have declared := (sound.entries i (List.mem_range.mp inside)).originalLen
      rwa [power] at declared
    rw [lens]
    apply sum_expected
    · intro none_
      rw [none_, Nat.zero_mul] at most
      exact Nat.le_zero.mp most
    · exact fun filled => (least filled).le

/-! ## Any bytes -/

/-- Opening any bytes ends without an overflow, and the reader of a file that opens has a sound
table: the bytes of every block are inside the file, and a read never finds the table wrong. -/
theorem fromBytes_sound (P : Platform) (copies : CopiesTables P) (file : Bytes) :
    Reader.fromBytes P file ≠ .error .panic ∧
      ∀ r, Reader.fromBytes P file = .ok r → ∃ blocks, SoundTable r file blocks ∧
        (∀ b ∈ blocks, b.offset + b.storedLen ≤ file.length ∧
          Meets (fun data => data = (file.drop b.offset).take b.storedLen)
            (fun e => e.isCorrupted = true) (fetch P r.src r.offsets r.footer b.index)) ∧
        ∀ i < r.blockCount, ∀ dicts, Meets (fun _ => True) (fun e => e.isStructural = false)
          (r.readBlock P i dicts) := by
  have opening := fromBytes_meets P file
  refine ⟨opening.no_panic, fun r opened => ?_⟩
  obtain ⟨log2, body, footerBytes, plans, footer, rfl, opens, rfl⟩ := opening.of_ok opened
  refine ⟨infos footer, opens.table copies, ?_, fun i inside => opens.readBlock_meets inside⟩
  intro b member
  obtain ⟨i, inside, rfl⟩ := List.mem_map.mp member
  have inside := List.mem_range.mp inside
  exact ⟨opens.room inside, opens.sound.fetch_meets inside (opens.room inside) opens.length_lt⟩

theorem blockPlatform_copiesTables : CopiesTables blockPlatform := by
  intro bytes footer decoded
  obtain ⟨rfl, rfl⟩ := decodeFooter_blockPlatform decoded
  refine ⟨_, List.Perm.refl _, ?_⟩
  decide +kernel

def oneFile : Bytes := layOut blockPlatform 12 [1] oneFooterBytes

def oneReader : Reader := readerOf blockPlatform 12 [1] oneFooterBytes [.stored] oneFooter

theorem fromBytes_oneFile : Reader.fromBytes blockPlatform oneFile = .ok oneReader := by
  decide +kernel

theorem fromBytes_sound_one :
    Reader.fromBytes blockPlatform oneFile ≠ .error .panic ∧
      ∃ blocks, SoundTable oneReader oneFile blocks := by
  obtain ⟨runs, sound⟩ := fromBytes_sound blockPlatform blockPlatform_copiesTables oneFile
  obtain ⟨blocks, table, -⟩ := sound oneReader fromBytes_oneFile
  exact ⟨runs, blocks, table⟩

end Syntra.Blockfile

import Syntra.Blockfile.Accepted
import Syntra.Blockfile.Sound

/-!
# What is written can be read

The footer of any writer is sound, so the file it finishes opens unless failed
writes left bytes between the blocks.
-/

set_option autoImplicit false

namespace Syntra.Blockfile

open Fallible Machine Tiling

variable {P : Platform} {metrics : FileMetrics → Bytes} {w : Writer} {blocks : List Pushed}

/-! ## The entries -/

def Pushed.entry (P : Platform) (b : Pushed) : Entry :=
  { storedLen := b.payload.length
    originalLen := b.original.length
    planIdx := b.planIdx
    payloadHash := shortHash P b.payload }

theorem wordAt_table {width i : Nat} (value : Pushed → Nat) {b : Pushed}
    (there : blocks[i]? = some b) (fits : value b < 256 ^ width) :
    wordAt width (blocks.flatMap fun b => LittleEndian.toBytes width (value b)) i = value b := by
  have sized : ∀ b ∈ blocks, (LittleEndian.toBytes width (value b)).length = width :=
    fun b _ => LittleEndian.length_toBytes width (value b)
  have inside : i < blocks.length := (List.getElem?_eq_some_iff.mp there).1
  have room : i * width + width ≤
      (blocks.flatMap fun b => LittleEndian.toBytes width (value b)).length := by
    rw [length_flatMap_fixed sized, ← Nat.succ_mul]
    exact Nat.mul_le_mul_right _ inside
  unfold wordAt
  rw [getRange_eq room, take_drop_flatMap there sized]
  exact LittleEndian.ofBytes_toBytes_of_lt width _ fits

theorem Pushed.Fits.words {log2 planCount : Nat} {b : Pushed} (fits : b.Fits log2 planCount)
    (high : log2 ≤ maxBlockLog2) (few : planCount ≤ maxPlans) :
    b.payload.length < 2 ^ 27 ∧ b.original.length ≤ 2 ^ 26 ∧ b.planIdx < 2 ^ 16 := by
  have within := fits.within
  have slack := fits.slack
  have planned := fits.planned
  have size : 1 <<< log2 ≤ 2 ^ 26 := by
    rw [Nat.one_shiftLeft]
    exact Nat.pow_le_pow_right (by decide) high
  simp only [slackLen, saturatingAdd, maxPlans] at slack few
  omega

theorem Writer.Holds.entryAt_eq (held : w.Holds P blocks) (info : Metadata) {i : Nat} {b : Pushed}
    (there : blocks[i]? = some b) : entryAt (w.footer P info) i = b.entry P := by
  have member := List.mem_of_getElem? there
  obtain ⟨stored, original, planned⟩ :=
    (held.sound b member).words held.log2.2 held.plans.few
  simp only [entryAt, Writer.footer, held.storedLens, held.originalLens, held.planIndices,
    held.payloadHashes, storedTable, originalTable, planTable, hashTable]
  rw [wordAt_table (fun b => b.payload.length) there (by omega),
    wordAt_table (fun b => b.original.length) there (by omega),
    wordAt_table (fun b => b.planIdx) there (by omega),
    take_drop_flatMap there fun b _ => length_shortHash P b.payload]
  rfl

theorem Writer.Holds.blockCount_eq (held : w.Holds P blocks) (info : Metadata) :
    (w.footer P info).blockCount = blocks.length := by
  have few := held.few.trans_lt maxBlocks_lt
  simp only [Writer.footer, held.count]
  omega

theorem Writer.Holds.entries_eq (held : w.Holds P blocks) (info : Metadata) :
    entries (w.footer P info) = blocks.map (·.entry P) := by
  apply List.ext_getElem?
  intro i
  by_cases inside : i < blocks.length
  · have there := List.getElem?_eq_getElem inside
    rw [getElem?_entries (by rwa [held.blockCount_eq]), held.entryAt_eq info there,
      List.getElem?_map, there]
    rfl
  · rw [List.getElem?_eq_none (by rw [length_entries, held.blockCount_eq]; omega),
      List.getElem?_eq_none (by rw [List.length_map]; omega)]

theorem Writer.Holds.storedLens_eq (held : w.Holds P blocks) (info : Metadata) :
    Blockfile.storedLens (w.footer P info) = blocks.map (·.payload.length) := by
  rw [Blockfile.storedLens, held.entries_eq, List.map_map]
  rfl

theorem Writer.Holds.sum_storedLens (held : w.Holds P blocks) (info : Metadata) :
    (Blockfile.storedLens (w.footer P info)).sum = (payloads blocks).length := by
  rw [held.storedLens_eq, payloads, List.length_flatMap]

/-! ## The footer is sound -/

theorem readPlans_toProto {plans : List BlockPlan}
    (valid : ∀ plan ∈ plans, plan.validate = .ok ()) (i : Nat) :
    readPlans i (plans.map BlockPlan.toProto) = .ok plans := by
  induction plans generalizing i with
  | nil => rfl
  | cons plan plans ih =>
      have rest := ih (fun other member => valid other (List.mem_cons_of_mem _ member)) (i + 1)
      rw [List.map_cons, readPlans, BlockPlan.fromProto_toProto (valid plan List.mem_cons_self),
        Except.mapError, ok_bind, rest, ok_bind]

theorem divCeil_full {full rest size : Nat} (filled : 0 < rest) (within : rest ≤ size) :
    divCeil (full * size + rest) size = full + 1 := by
  have positive : 0 < size := filled.trans_le within
  unfold divCeil
  rcases Nat.lt_or_eq_of_le within with short | rfl
  · rw [Nat.mul_comm, Nat.mul_add_div positive, Nat.div_eq_of_lt short, Nat.mul_add_mod,
      Nat.mod_eq_of_lt short, if_neg (by omega), Nat.add_zero]
  · rw [← Nat.succ_mul, Nat.mul_div_cancel _ positive, Nat.mul_mod_left, if_pos rfl]

/-- Full blocks, and a last one that is not empty. -/
theorem Writer.Holds.originals_length (held : w.Holds P blocks) (filled : blocks ≠ []) :
    ∃ last, blocks.getLast? = some last ∧ 0 < last.original.length ∧
      last.original.length ≤ 1 <<< w.log2 ∧
      (originals blocks).length = (blocks.length - 1) * 1 <<< w.log2 + last.original.length := by
  cases blocks using List.reverseRecOn with
  | nil => exact absurd rfl filled
  | append_singleton front last _ =>
      have fits := held.sound last (by simp)
      refine ⟨last, List.getLast?_concat, fits.filled, fits.within, ?_⟩
      have full := held.full
      rw [FullButLast, List.dropLast_concat] at full
      rw [originals, List.flatMap_append, List.length_append,
        length_flatMap_fixed (fun b member => full b member), List.length_append,
        List.length_singleton, Nat.add_sub_cancel, List.flatMap_cons, List.flatMap_nil,
        List.append_nil]

theorem Writer.Holds.covers (held : w.Holds P blocks) (info : Metadata) :
    divCeil (w.footer P info).originalSize (1 <<< w.log2) = (w.footer P info).blockCount := by
  rw [held.blockCount_eq]
  simp only [Writer.footer, held.originalSize]
  cases blocks with
  | nil => simp [originals, divCeil]
  | cons b rest =>
      obtain ⟨last, -, filled, within, length⟩ := held.originals_length (List.cons_ne_nil b rest)
      rw [length, divCeil_full filled within, List.length_cons, Nat.add_sub_cancel]

theorem Writer.Holds.expected_eq (held : w.Holds P blocks) {i : Nat} {b : Pushed}
    (there : blocks[i]? = some b) :
    b.original.length = expected (originals blocks).length blocks.length (1 <<< w.log2) i := by
  have inside : i < blocks.length := (List.getElem?_eq_some_iff.mp there).1
  unfold expected
  by_cases before : i + 1 < blocks.length
  · rw [if_pos before]
    apply held.full
    apply List.mem_of_getElem? (i := i)
    rw [List.getElem?_dropLast, if_pos (by omega), there]
  · obtain ⟨last, ends, -, -, length⟩ := held.originals_length
      (List.ne_nil_of_length_pos (by omega))
    rw [if_neg before, length, Nat.add_sub_cancel_left]
    rw [List.getLast?_eq_getElem?, show blocks.length - 1 = i by omega, there] at ends
    rw [Option.some.inj ends]

/-- The footer of a writer passes every check but the one of the length. -/
theorem Writer.Holds.soundFooter (held : w.Holds P blocks) (info : Metadata) :
    SoundFooter P (w.footer P info) 0 w.log2 w.plans := by
  have count := held.blockCount_eq info
  refine
    { sameFlags := rfl, sameLog2 := rfl, fileHash := (P.blake3 w.hashed).property
      fewPlans := by simpa [Writer.footer] using held.plans.few
      readable := readPlans_toProto held.plans.valid 0
      few := count.trans_le held.few
      storedLens := ?_, originalLens := ?_, planIndices := ?_, payloadHashes := ?_
      covers := held.covers info, empty := ?_, entries := ?_ }
  · rw [count]
    simp only [Writer.footer, held.storedLens, storedTable]
    exact length_flatMap_fixed fun b _ => LittleEndian.length_toBytes 4 b.payload.length
  · rw [count]
    simp only [Writer.footer, held.originalLens, originalTable]
    exact length_flatMap_fixed fun b _ => LittleEndian.length_toBytes 4 b.original.length
  · rw [count]
    simp only [Writer.footer, held.planIndices, planTable]
    exact length_flatMap_fixed fun b _ => LittleEndian.length_toBytes 2 b.planIdx
  · rw [count]
    simp only [Writer.footer, held.payloadHashes, hashTable]
    exact length_flatMap_fixed fun b _ => length_shortHash P b.payload
  · intro none_
    rw [count, List.length_eq_zero_iff] at none_
    simp only [Writer.footer, held.hashed, none_]
    rfl
  · intro i inside
    rw [count] at inside
    have there := List.getElem?_eq_getElem inside
    have fits := held.sound _ (List.getElem_mem inside)
    rw [held.entryAt_eq info there, count]
    simp only [Writer.footer, held.originalSize]
    exact { originalLen := held.expected_eq there, planIdx := fits.planned, storedLen := fits.slack }

theorem Writer.Holds.scanFooter_eq (held : w.Holds P blocks) {info : Metadata}
    (names : info.originalNames.length ≤ maxNames)
    (short : (encodeFooter metrics (w.footer P info)).length ≤ maxFooterLen) :
    scanFooter (encodeFooter metrics (w.footer P info)) = .ok () := by
  apply scanFooter_encodeFooter _ names _ (short.trans_lt (by decide))
  · simpa [Writer.footer] using held.plans.few
  · intro p member
    obtain ⟨plan, listed, rfl⟩ := List.mem_map.mp member
    obtain ⟨_, -, rest⟩ := bind_eq_ok.mp (held.plans.valid plan listed)
    obtain ⟨-, rest⟩ := rejectIf_bind_eq_ok.mp rest
    exact Nat.le_of_not_lt (rejectIf_bind_eq_ok.mp rest).1

/-! ## The file that is finished -/

/-- A file that a writer finished: its blocks are what the sink held after the header. -/
structure Finished (P : Platform) (metrics : FileMetrics → Bytes) (w : Writer)
    (blocks : List Pushed) (info : Metadata) (body file : Bytes) (summary : Summary) : Prop where
  held : w.Holds P blocks
  out : w.out = header w.log2 ++ body
  finished : w.finish P metrics info .none = .ok (file, summary)
  decoded : P.decodeFooter (encodeFooter metrics (w.footer P info)) = .ok (w.footer P info)

variable {info : Metadata} {body file : Bytes} {summary : Summary}

theorem Finished.file_eq (made : Finished P metrics w blocks info body file summary) :
    file = layOut P w.log2 body (encodeFooter metrics (w.footer P info)) := by
  obtain ⟨-, -, same, -⟩ := Writer.finish_eq_ok P metrics made.finished
  rw [same, made.out, layOut, List.append_assoc]

theorem Finished.short (made : Finished P metrics w blocks info body file summary) :
    (encodeFooter metrics (w.footer P info)).length ≤ maxFooterLen :=
  (Writer.finish_eq_ok P metrics made.finished).2.1

theorem Finished.opens (made : Finished P metrics w blocks info body file summary)
    (clean : body = payloads blocks) :
    Opens P w.log2 body (encodeFooter metrics (w.footer P info)) w.plans (w.footer P info) :=
  { within := made.held.log2, short := made.short, decoded := made.decoded
    sound := made.held.soundFooter info
    filled := by rw [clean, made.held.sum_storedLens] }

theorem Finished.fromBytes_eq (made : Finished P metrics w blocks info body file summary)
    (clean : body = payloads blocks) :
    Reader.fromBytes P file = .ok (readerOf P w.log2 body
      (encodeFooter metrics (w.footer P info)) w.plans (w.footer P info)) := by
  have opens := made.opens clean
  obtain ⟨names, -⟩ := Writer.finish_eq_ok P metrics made.finished
  obtain ⟨message, opened⟩ := fromBytes_layOut P made.held.log2 made.short
    (made.held.scanFooter_eq names made.short) made.decoded (made.held.soundFooter info)
    opens.length_lt
  rw [made.file_eq, opened, if_pos opens.filled]

/-! ## What the reader reports -/

def Pushed.infoOf (P : Platform) (blocks : List Pushed) (i : Nat) (b : Pushed) : BlockInfo :=
  { index := i
    offset := offset headerLen (blocks.map (·.payload.length)) i
    storedLen := b.payload.length
    originalLen := b.original.length
    planIdx := b.planIdx
    payloadHash := shortHash P b.payload }

theorem Writer.Holds.infos_eq (held : w.Holds P blocks) (info : Metadata) {i : Nat} {b : Pushed}
    (there : blocks[i]? = some b) :
    (infos (w.footer P info))[i]? = some (b.infoOf P blocks i) := by
  have inside : i < blocks.length := (List.getElem?_eq_some_iff.mp there).1
  rw [getElem?_infos, if_pos (by rwa [held.blockCount_eq]), infoAt, held.entryAt_eq info there,
    offsetOf, held.storedLens_eq]
  rfl

theorem Reader.fileHash_eq {r : Reader} (sized : r.footer.fileHash.length = 32) :
    r.fileHash = .ok r.footer.fileHash := by
  unfold fileHash
  rw [assert_eq sized, ok_bind]

/-- The reader and the summary say of the file what the writer was given. -/
structure Reports (P : Platform) (w : Writer) (blocks : List Pushed) (info : Metadata)
    (file : Bytes) (summary : Summary) (r : Reader) : Prop where
  plans : r.plans = w.plans
  log2 : r.log2 = w.log2
  count : r.blockCount = blocks.length
  table : ∀ i b, blocks[i]? = some b → r.blockInfo i = .ok (some (b.infoOf P blocks i))
  originalSize : r.originalSize = (originals blocks).length
  fileHash : r.fileHash = .ok (P.blake3 (originals blocks)).val
  metadata : r.metadata = info
  fileLen : r.fileLen = file.length
  summary : summary =
    { fileHash := P.blake3 (originals blocks), originalSize := (originals blocks).length
      fileLen := file.length, blockCount := blocks.length }

theorem Finished.reports (made : Finished P metrics w blocks info body file summary)
    (clean : body = payloads blocks) :
    Reports P w blocks info file summary (readerOf P w.log2 body
      (encodeFooter metrics (w.footer P info)) w.plans (w.footer P info)) := by
  have held := made.held
  have sound := held.soundFooter info
  obtain ⟨-, -, -, same⟩ := Writer.finish_eq_ok P metrics made.finished
  refine
    { plans := rfl, log2 := rfl, count := held.blockCount_eq info, table := ?_
      originalSize := held.originalSize, fileHash := ?_, metadata := rfl, fileLen := ?_
      summary := ?_ }
  · intro i b there
    have reported := SoundFooter.blockInfo_eq (r := readerOf P w.log2 body
      (encodeFooter metrics (w.footer P info)) w.plans (w.footer P info)) sound rfl i
    exact reported.trans (congrArg Except.ok (held.infos_eq info there))
  · have reported := Reader.fileHash_eq (r := readerOf P w.log2 body
      (encodeFooter metrics (w.footer P info)) w.plans (w.footer P info)) sound.fileHash
    exact reported.trans (congrArg (fun hashed => Except.ok (P.blake3 hashed).val) held.hashed)
  · exact congrArg List.length made.file_eq.symm
  · have length : file.length = headerLen + trailerLen + (payloads blocks).length +
        (encodeFooter metrics (w.footer P info)).length := by
      rw [made.file_eq, length_layOut, clean]
      omega
    rw [same, length, held.hashed, held.originalSize, held.payloadBytes, held.count]

theorem finished_of_calls {log2 : Nat} {w₀ : Writer} {first second : Option Fault}
    (made : Writer.new log2 first second = .ok w₀) (calls : List Call)
    (finished : (w₀.steps P calls).2.finish P metrics info .none = .ok (file, summary))
    (decoded : P.decodeFooter (encodeFooter metrics ((w₀.steps P calls).2.footer P info)) =
      .ok ((w₀.steps P calls).2.footer P info)) :
    ∃ body, Finished P metrics (w₀.steps P calls).2 (acceptedBy (w₀.steps P calls).1) info body
        file summary ∧
      (w₀.steps P calls).2.log2 = log2 ∧
      body.length = (payloads (acceptedBy (w₀.steps P calls).1)).length +
        (w₀.litters P calls).length ∧
      (w₀.litters P calls = [] → body = payloads (acceptedBy (w₀.steps P calls).1)) := by
  obtain ⟨held, out, same⟩ := Writer.new_eq_ok P made
  obtain ⟨holds, log2_, body, grown, length, clean⟩ := Writer.steps_hold held calls
  refine ⟨body, { held := holds, out := ?_, finished, decoded }, log2_.trans same, length, clean⟩
  rw [grown, out, log2_, same]

/-- Whatever the writer accepts, over a sink that never fails, the reader opens, and it reports
what was written. -/
theorem finish_opens (P : Platform) (metrics : FileMetrics → Bytes) (log2 : Nat) (w₀ : Writer)
    (made : Writer.new log2 none none = .ok w₀) (calls : List Call)
    (unfailing : ∀ call ∈ calls, call.unfailing) (info : Metadata) (file : Bytes)
    (summary : Summary)
    (finished : (w₀.steps P calls).2.finish P metrics info .none = .ok (file, summary))
    (decoded : P.decodeFooter (encodeFooter metrics ((w₀.steps P calls).2.footer P info)) =
      .ok ((w₀.steps P calls).2.footer P info)) :
    (∃ r, Reader.fromBytes P file = .ok r ∧ Reports P (w₀.steps P calls).2
        (acceptedBy (w₀.steps P calls).1) info file summary r ∧ r.log2 = log2) ∧
      (w₀.steps P calls).2.plans.Nodup ∧ (w₀.steps P calls).2.plans.length ≤ 2 ^ 16 ∧
      (∀ b ∈ acceptedBy (w₀.steps P calls).1, b.planIdx < (w₀.steps P calls).2.plans.length) ∧
      (∀ before plan after i w, calls = before ++ .addPlan plan :: after →
        (w₀.steps P before).2.addPlan plan = (.ok i, w) →
        (w₀.steps P calls).2.plans[i]? = some plan.normalized) ∧
      ∀ plan i w, (w₀.steps P calls).2.addPlan plan = (.ok i, w) →
        w.plans[i]? = some plan.normalized := by
  obtain ⟨body, done, same, -, clean⟩ := finished_of_calls made calls finished decoded
  have body_eq := clean (Writer.litters_of_unfailing P unfailing w₀)
  refine ⟨⟨_, done.fromBytes_eq body_eq, done.reports body_eq, same⟩, done.held.plans.nodup,
    done.held.plans.few, fun b member => (done.held.sound b member).planned, ?_, ?_⟩
  · rintro before plan after i w rfl added
    exact Writer.addPlan_stays (Writer.new_eq_ok P made).1 added
  intro plan i w added
  rcases (w₀.steps P calls).2.addPlan_cases plan done.held.plans with
    ⟨refusal, refused⟩ | ⟨j, more, new, -, there⟩
  · rw [refused] at added
    cases added
  · rw [new] at added
    cases added
    exact there

def oneCalls : List Call := [.addPlan .stored, .pushBlock [1] 0 [1] none]

def emptyWriter : Writer :=
  { out := header 12, log2 := 12, plans := [], storedLens := [], originalLens := []
    planIndices := [], payloadHashes := [], blocks := 0, hashed := [], originalSize := 0
    payloadBytes := 0, sealedByShortBlock := false }

def oneSummary : Summary := { fileHash := oneHash, originalSize := 1, fileLen := 135, blockCount := 1 }

theorem finish_opens_one :
    ∃ r, Reader.fromBytes blockPlatform oneFile = .ok r ∧
      Reports blockPlatform (emptyWriter.steps blockPlatform oneCalls).2
        [⟨[1], 0, [1]⟩] oneInfo oneFile oneSummary r ∧ r.log2 = 12 :=
  (finish_opens blockPlatform noMetrics 12 emptyWriter (by decide) oneCalls
    (by simp [oneCalls, Call.unfailing]) oneInfo oneFile oneSummary (by decide +kernel)
    (by decide +kernel)).1

end Syntra.Blockfile

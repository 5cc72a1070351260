import Syntra.Blockfile.Atomic
import Syntra.Planner.Restore

/-!
# Round trips

A chunk that was compressed decodes to itself whatever its plan, as long as no
step of the plan is Rle.  A file of such blocks restores to the data.
-/

set_option autoImplicit false

namespace Syntra.Blockfile

open Fallible Tiling

/-! ## One block -/

/-- What zstd and LZ4 write about the length of what they encode. -/
structure DeclaresLengths (C : Codecs) : Prop where
  zstd : ∀ level longDistance dict data payload,
    C.zstdEncode level longDistance dict data = .ok payload →
      C.zstdFrameContentSize payload = .ok (some data.length)
  lz4 : ∀ data, LittleEndian.ofBytes ((C.lz4CompressPrependSize data).take 4) =
    data.length % 2 ^ 32

variable {C : Codecs}

theorem checkDeclaredSize_encode (declares : DeclaresLengths C) {data payload : Bytes}
    {codec : Codec} {level : Int} {dict : Option Bytes} {limit : Nat}
    (encoded : encode C data codec level dict = .ok payload) (fits : data.length ≤ limit) :
    checkDeclaredSize C payload codec limit = .ok () := by
  cases codec with
  | lz4 =>
      obtain rfl := Except.ok.inj encoded
      have small : data.length % 2 ^ 32 ≤ limit := (Nat.mod_le _ _).trans fits
      simp only [checkDeclaredSize, declares.lz4]
      rw [rejectIf_of_not (Nat.not_lt_of_le small), ite_self]
  | zstd =>
      have declared := declares.zstd _ _ _ _ _ encoded
      simp only [checkDeclaredSize, declared]
      exact rejectIf_of_not (Nat.not_lt_of_le fits)
  | _ => rfl

def CompressedBlock.dictBytes (block : CompressedBlock) (dict : Option Dictionary) : Option Bytes :=
  if block.plan.dictionary.isSome then dict.map (·.bytes) else none

/-- The block of a chunk whose last stage was encoded to `payload`. -/
def codedBlock (plan : Plan) (dict : Option Dictionary) (payload : Bytes)
    (steps : List TransformStep) : CompressedBlock :=
  { plan :=
      { transforms := steps.map (keepLen false), codec := plan.codec
        level := plan.codec.clampLevel plan.level
        dictionary := if dictInUse plan dict then dict.map dictionaryRef else none }
    payload }

def blockExecution (plan : Plan) (dict : Option Dictionary) : Plan :=
  { plan with useDictionary := dictInUse plan dict }

variable {original payload : Bytes} {plan : Plan} {dict : Option Dictionary}
  {steps : List TransformStep} {block : CompressedBlock}

theorem dict_blockExecution : (if (blockExecution plan dict).useDictionary then
    (if dictInUse plan dict then dict.map (·.bytes) else none) else none) =
      if dictInUse plan dict then dict.map (·.bytes) else none := by
  unfold blockExecution
  cases inUse : dictInUse plan dict with
  | false => rfl
  | true => rfl

/-- A compressed block is the chunk as it was, or a coded block when that is shorter. -/
theorem compressBlock_cases (compressed : compressBlock C original plan dict = .ok block) :
    block = storedBlock original ∨
      ∃ payload steps, plan.isStored = false ∧ payload.length < original.length ∧
        execute C original (blockExecution plan dict)
          (if dictInUse plan dict then dict.map (·.bytes) else none) = .ok (payload, steps) ∧
        block = codedBlock plan dict payload steps := by
  unfold compressBlock at compressed
  split at compressed
  · exact Or.inl (Except.ok.inj compressed).symm
  · rename_i coded
    rw [Bool.or_eq_true, not_or, Bool.not_eq_true, Bool.not_eq_true] at coded
    obtain ⟨⟨payload, steps⟩, executed, chosen⟩ := bind_eq_ok.mp compressed
    dsimp only at chosen
    split at chosen
    · exact Or.inl (Except.ok.inj chosen).symm
    · rename_i shorter
      refine Or.inr ⟨payload, steps, coded.2, Nat.lt_of_not_le shorter, executed, ?_⟩
      rw [← Except.ok.inj chosen]
      rfl

theorem compressBlock_normalized (compressed : compressBlock C original plan dict = .ok block) :
    block.plan.normalized = block.plan := by
  rcases compressBlock_cases compressed with rfl | ⟨payload, steps, -, -, -, rfl⟩
  · rfl
  · simp [codedBlock, BlockPlan.normalized, keepLen]

theorem codedBlock_dictBytes : (codedBlock plan dict payload steps).dictBytes dict =
    if dictInUse plan dict then dict.map (·.bytes) else none := by
  rw [CompressedBlock.dictBytes, codedBlock]
  cases inUse : dictInUse plan dict with
  | false => rfl
  | true =>
      cases dict with
      | none => rfl
      | some d => rfl

theorem codedBlock_isStored (count : steps.length = plan.transforms.length) :
    (codedBlock plan dict payload steps).plan.isStored = plan.isStored := by
  rw [codedBlock, BlockPlan.isStored, Plan.isStored, keepLen_map_isEmpty, Bool.eq_iff_iff]
  simp only [Bool.and_eq_true, List.isEmpty_iff_length_eq_zero, count]

theorem length_staged_le {staged : Bytes} {recorded : List TransformStep}
    (fits : StagesFit (stageSlack original.length) original plan.transforms)
    (word : original.length < 2 ^ 64)
    (chain : applyChain original plan.transforms = .ok (staged, recorded)) :
    staged.length ≤ slackLen original.length := by
  cases transforms : plan.transforms with
  | nil =>
      simp only [transforms, applyChain, Except.ok.injEq, Prod.mk.injEq] at chain
      rw [← chain.1]
      exact le_stageSlack _ word
  | cons s rest =>
      rw [transforms] at chain fits
      exact fits.within staged (mem_stages_of_applyChain chain)

/-- A block never takes more bytes than its chunk, and decodes to it. -/
theorem compressBlock_decodes (trusted : C.RoundTrip) (declares : DeclaresLengths C)
    (few : plan.transforms.length ≤ maxChain) (noRle : NoRle plan.transforms)
    (size : original.length + original.length / 8 + 128 ≤ maxDecompressed)
    (compressed : compressBlock C original plan dict = .ok block) :
    block.payload.length ≤ original.length ∧
      decodeBlock C block.payload block.plan (block.dictBytes dict) original.length =
        .ok original := by
  rcases compressBlock_cases compressed with rfl | ⟨payload, steps, coded, shorter, executed, rfl⟩
  · exact ⟨le_refl _, rejectIf_bind_eq_ok.mpr ⟨fun differ => differ rfl, rfl⟩⟩
  refine ⟨shorter.le, ?_⟩
  obtain ⟨staged, chain, encoded⟩ := (execute_eq_ok C).mp executed
  have fits := stagesFit_of_noRle original plan.transforms few noRle size
  have word : original.length < 2 ^ 64 := by
    simp only [maxDecompressed] at size
    omega
  have bounded := length_staged_le fits word chain
  have short : (blockExecution plan dict).transforms.length ≤ maxChain := few
  have restored := restore_execute_of_noRle trusted false short noRle size executed
  rw [dict_blockExecution] at encoded restored
  have count : steps.length = plan.transforms.length := length_applyChain chain
  rw [decodeBlock, codedBlock_isStored count, coded, codedBlock_dictBytes]
  dsimp only [codedBlock, blockExecution] at encoded restored ⊢
  rw [checkDeclaredSize_encode declares encoded bounded, ok_bind]
  rw [restored, ok_bind, rejectIf_of_not (fun differ => differ rfl), ok_bind, if_neg]
  exact Bool.false_ne_true

/-! ## The calls that write a file -/

/-- The block is the chunk under some plan without Rle, and the resolver has its dictionary. -/
def Compressed (C : Codecs) (dicts : String → Option Dictionary) (chunk : Bytes)
    (block : CompressedBlock) : Prop :=
  ∃ plan dict, plan.transforms.length ≤ maxChain ∧ NoRle plan.transforms ∧
    compressBlock C chunk plan dict = .ok block ∧
    ∀ d ∈ dict, block.plan.dictionary.isSome → dicts d.id = some d

/-- The calls push the compressed chunks in order; plans may be registered in between. -/
inductive Writes (C : Codecs) (dicts : String → Option Dictionary) :
    List Bytes → List Call → Prop where
  | done : Writes C dicts [] []
  | register {chunks : List Bytes} {calls : List Call} (plan : BlockPlan)
      (rest : Writes C dicts chunks calls) : Writes C dicts chunks (.addPlan plan :: calls)
  | push {chunk : Bytes} {block : CompressedBlock} {chunks : List Bytes} {calls : List Call}
      (fault : Option Fault) (compressed : Compressed C dicts chunk block)
      (rest : Writes C dicts chunks calls) :
      Writes C dicts (chunk :: chunks) (.pushCompressed chunk block fault :: calls)

variable {P : Platform} {w : Writer} {blocks : List Pushed}

/-- The block that was accepted for a chunk, under a table of plans. -/
def Carries (C : Codecs) (dicts : String → Option Dictionary) (plans : List BlockPlan)
    (chunk : Bytes) (b : Pushed) : Prop :=
  b.original = chunk ∧ ∃ block, Compressed C dicts chunk block ∧ b.payload = block.payload ∧
    plans[b.planIdx]? = some block.plan

theorem dictionaryOf_compressed {dicts : String → Option Dictionary}
    (compressed : compressBlock C original plan dict = .ok block)
    (resolved : ∀ d ∈ dict, block.plan.dictionary.isSome → dicts d.id = some d) :
    ∃ found, dictionaryOf dicts block.plan = some found ∧
      found.map (·.bytes) = block.dictBytes dict := by
  rcases compressBlock_cases compressed with rfl | ⟨payload, steps, -, -, -, rfl⟩
  · exact ⟨none, rfl, rfl⟩
  rw [codedBlock_dictBytes]
  rw [codedBlock] at resolved
  rw [dictionaryOf, codedBlock]
  dsimp only at resolved ⊢
  cases inUse : dictInUse plan dict with
  | false => exact ⟨none, rfl, rfl⟩
  | true =>
      cases dict with
      | none => exact ⟨none, rfl, rfl⟩
      | some d =>
          refine ⟨some d, ?_, rfl⟩
          have found := resolved d rfl (by rw [inUse]; rfl)
          simp only [if_true, Option.map_some, dictionaryRef, found]

theorem Carries.decodes (trusted : P.codecs.RoundTrip) (declares : DeclaresLengths P.codecs)
    {dicts : String → Option Dictionary} {plans : List BlockPlan} {chunk : Bytes} {b : Pushed}
    (carries : Carries P.codecs dicts plans chunk b) (small : chunk.length ≤ 2 ^ maxBlockLog2) :
    b.Decodes P dicts plans := by
  obtain ⟨rfl, block, ⟨plan, dict, few, noRle, compressed, resolved⟩, payload, planned⟩ := carries
  have size : b.original.length + b.original.length / 8 + 128 ≤ maxDecompressed := by
    simp only [maxBlockLog2, maxDecompressed] at *
    omega
  obtain ⟨-, decoded⟩ := compressBlock_decodes trusted declares few noRle size compressed
  obtain ⟨found, resolved, bytes⟩ := dictionaryOf_compressed compressed resolved
  refine ⟨block.plan, found, planned, resolved, ?_⟩
  rw [payload, bytes]
  exact decoded

theorem Carries.mono {dicts : String → Option Dictionary} {plans more : List BlockPlan}
    {chunk : Bytes} {b : Pushed} (carries : Carries C dicts plans chunk b)
    (grown : plans <+: more) : Carries C dicts more chunk b := by
  obtain ⟨same, block, compressed, payload, planned⟩ := carries
  obtain ⟨rest, rfl⟩ := grown
  have inside := (List.getElem?_eq_some_iff.mp planned).1
  exact ⟨same, block, compressed, payload, (List.getElem?_append_left inside).trans planned⟩

theorem Writer.pushCompressed_accepted (held : w.Holds P blocks) {fault : Option Fault}
    {added : Option Pushed}
    (accepted : (w.step P (.pushCompressed original block fault)).1 = .ok added) :
    ∃ i, added = some ⟨original, i, block.payload⟩ ∧
      (w.step P (.pushCompressed original block fault)).2.plans[i]? =
        some block.plan.normalized ∧
      w.litter (.pushCompressed original block fault) = [] := by
  rcases w.addPlan_cases block.plan held.plans with ⟨refusal, same⟩ | ⟨i, more, new, table, there⟩
  · simp only [step, pushCompressed, same] at accepted
    cases accepted
  · have grown := held.addPlans table
    rcases Writer.pushBlock_steps grown original i block.payload fault with
      ⟨failure, left, same, -⟩ | ⟨w', made, -, -, plans, -, clean⟩
    · simp only [step, pushCompressed, new, same] at accepted
      cases accepted
    · simp only [step, pushCompressed, new, made, litter] at accepted ⊢
      refine ⟨i, (Except.ok.inj accepted).symm, ?_, clean⟩
      rw [plans]
      exact there

/-- When all calls succeed, the blocks of the file carry the chunks in order. -/
theorem Writes.carried {dicts : String → Option Dictionary} {chunks : List Bytes}
    {calls : List Call} (writes : Writes C dicts chunks calls) (held : w.Holds P blocks)
    (success : ∀ result ∈ (w.steps P calls).1, result.isOk = true) :
    w.litters P calls = [] ∧
      List.Forall₂ (Carries C dicts (w.steps P calls).2.plans) chunks
        (acceptedBy (w.steps P calls).1) := by
  induction writes generalizing w blocks with
  | done => exact ⟨rfl, List.Forall₂.nil⟩
  | @register chunks calls plan rest ih =>
      have one := Writer.step_steps held (.addPlan plan)
      obtain ⟨clean, carried⟩ := ih one.holds fun result member =>
        success result (List.mem_cons_of_mem _ member)
      have nothing : addedBy (w.step P (.addPlan plan)).1 = none := by
        simp only [Writer.step]
        cases (w.addPlan plan).1 <;> rfl
      have accepted : acceptedBy (w.steps P (.addPlan plan :: calls)).1 =
          acceptedBy ((w.step P (.addPlan plan)).2.steps P calls).1 := by
        simp only [Writer.steps, acceptedBy, List.filterMap_cons, nothing]
      refine ⟨?_, accepted ▸ carried⟩
      rw [Writer.litters, clean]
      rfl
  | @push chunk block chunks calls fault compressed rest ih =>
      have one := Writer.step_steps held (.pushCompressed chunk block fault)
      obtain ⟨clean, carried⟩ := ih one.holds fun result member =>
        success result (List.mem_cons_of_mem _ member)
      have first : (w.step P (.pushCompressed chunk block fault)).1.isOk = true :=
        success _ List.mem_cons_self
      cases pushed : (w.step P (.pushCompressed chunk block fault)).1 with
      | error failure =>
          rw [pushed] at first
          cases first
      | ok added =>
          obtain ⟨i, rfl, planned, none_left⟩ := Writer.pushCompressed_accepted held pushed
          have accepted : acceptedBy (w.steps P (.pushCompressed chunk block fault :: calls)).1 =
              ⟨chunk, i, block.payload⟩ ::
                acceptedBy ((w.step P (.pushCompressed chunk block fault)).2.steps P calls).1 := by
            simp only [Writer.steps, acceptedBy, List.filterMap_cons, pushed, addedBy]
          have normal : block.plan.normalized = block.plan := by
            obtain ⟨plan, dict, -, -, made, -⟩ := compressed
            exact compressBlock_normalized made
          rw [normal] at planned
          have here : Carries C dicts (w.step P (.pushCompressed chunk block fault)).2.plans chunk
              ⟨chunk, i, block.payload⟩ := ⟨rfl, block, compressed, rfl, planned⟩
          refine ⟨?_, ?_⟩
          · rw [Writer.litters, none_left, clean, List.append_nil]
          · rw [accepted]
            exact List.Forall₂.cons (here.mono (Writer.plans_steps one.holds calls)) carried

/-! ## Round trips -/

variable {metrics : FileMetrics → Bytes} {info : Metadata} {body file : Bytes} {summary : Summary}

/-- The file restores to the data, and block `i` reads as chunk `i`. -/
theorem Finished.restores_chunks (made : Finished P metrics w blocks info body file summary)
    (clean : body = payloads blocks) (trusted : P.codecs.RoundTrip)
    (declares : DeclaresLengths P.codecs) {dicts : String → Option Dictionary}
    {chunks : List Bytes} (carried : List.Forall₂ (Carries P.codecs dicts w.plans) chunks blocks)
    (small : ∀ chunk ∈ chunks, chunk.length ≤ 2 ^ maxBlockLog2) {r : Reader}
    (opened : Reader.fromBytes P file = .ok r) :
    r.blockCount = chunks.length ∧ r.restoreAll P dicts = .ok chunks.flatten ∧
      ∀ i chunk, chunks[i]? = some chunk → r.readBlock P i dicts = .ok chunk := by
  obtain ⟨-, blockCount⟩ := made.reader_eq clean opened
  have same : chunks = blocks.map (·.original) := by
    rw [← List.forall₂_eq_eq_eq, List.forall₂_map_right_iff]
    exact carried.imp fun chunk b carries => carries.1.symm
  subst same
  rw [List.forall₂_map_left_iff, List.forall₂_same] at carried
  have decodes : ∀ b ∈ blocks, b.Decodes P dicts w.plans := fun b member =>
    (carried b member).decodes trusted declares (small _ (List.mem_map_of_mem member))
  refine ⟨by rw [blockCount, List.length_map], ?_, ?_⟩
  · rw [(made.restores_iff clean opened).mpr decodes, originals, List.flatMap_def]
  · intro i chunk there
    rw [List.getElem?_map, Option.map_eq_some_iff] at there
    obtain ⟨b, there, rfl⟩ := there
    exact (made.readBlock_iff clean there opened).mpr (decodes b (List.mem_of_getElem? there))

/-- A chunk without Rle never outgrows its slack, compresses to no more than its length and
decodes to itself.  A file whose chunks were all compressed and accepted opens, restores to the
data, and reads chunk by chunk. -/
theorem written_restores (P : Platform) (trusted : P.codecs.RoundTrip)
    (declares : DeclaresLengths P.codecs) (metrics : FileMetrics → Bytes)
    (dicts : String → Option Dictionary) :
    (∀ chunk plan, chunk.length ≤ 2 ^ maxBlockLog2 → plan.transforms.length ≤ maxChain →
        NoRle plan.transforms →
        (∀ stage ∈ stages chunk plan.transforms, stage.length ≤ slackLen chunk.length) ∧
        ∀ dict block, compressBlock P.codecs chunk plan dict = .ok block →
          block.payload.length ≤ chunk.length ∧
            decodeBlock P.codecs block.payload block.plan (block.dictBytes dict) chunk.length =
              .ok chunk) ∧
      ∀ log2 w₀ first second, Writer.new log2 first second = .ok w₀ → ∀ data calls,
        Writes P.codecs dicts (chunks (1 <<< log2) data) calls →
        (∀ result ∈ (w₀.steps P calls).1, result.isOk = true) → ∀ info faults file summary,
        (w₀.steps P calls).2.finish P metrics info faults = .ok (file, summary) →
        P.decodeFooter (encodeFooter metrics ((w₀.steps P calls).2.footer P info)) =
          .ok ((w₀.steps P calls).2.footer P info) →
        ∃ r, Reader.fromBytes P file = .ok r ∧
          r.blockCount = (chunks (1 <<< log2) data).length ∧ r.restoreAll P dicts = .ok data ∧
          ∀ i chunk, (chunks (1 <<< log2) data)[i]? = some chunk →
            r.readBlock P i dicts = .ok chunk := by
  constructor
  · intro chunk plan small few noRle
    have size : chunk.length + chunk.length / 8 + 128 ≤ maxDecompressed := by
      simp only [maxBlockLog2, maxDecompressed] at *
      omega
    refine ⟨(stagesFit_of_noRle chunk plan.transforms few noRle size).within, ?_⟩
    intro dict block compressed
    exact compressBlock_decodes trusted declares few noRle size compressed
  · intro log2 w₀ first second made data calls writes success info faults file summary finished
      decoded
    obtain ⟨held, -, same⟩ := Writer.new_eq_ok P made
    obtain ⟨none_left, carried⟩ := writes.carried held success
    obtain ⟨body, done, log2_, -, clean⟩ := finished_of_calls made calls
      (Writer.finish_unfailing P metrics finished) decoded
    have clean := clean none_left
    have small : ∀ chunk ∈ chunks (1 <<< log2) data, chunk.length ≤ 2 ^ maxBlockLog2 := by
      intro chunk member
      have power : 1 <<< log2 ≤ 2 ^ maxBlockLog2 := by
        rw [Nat.one_shiftLeft, ← same]
        exact Nat.pow_le_pow_right (by decide) held.log2.2
      exact (length_le_of_mem_chunks member).trans power
    have opened := done.fromBytes_eq clean
    obtain ⟨blockCount, restored, read⟩ := done.restores_chunks clean trusted declares carried small
      opened
    refine ⟨_, opened, blockCount, ?_, read⟩
    rwa [flatten_chunks] at restored
    rw [Nat.one_shiftLeft]
    exact Nat.two_pow_pos log2

theorem framingCodecs_declaresLengths : DeclaresLengths framingCodecs where
  zstd _ _ _ _ _ encoded := by
    cases encoded
    rfl
  lz4 data := by
    have front : (framingCodecs.lz4CompressPrependSize data).take 4 =
        LittleEndian.toBytes 4 data.length := List.take_left' (LittleEndian.length_toBytes 4 _)
    have word : 256 ^ 4 = 2 ^ 32 := by decide
    rw [front, LittleEndian.ofBytes_toBytes, word]

/-! ## Two blocks -/

/-- BLAKE3 of a block of 4096 zeros. -/
def zerosHash : Digest :=
  ⟨[0xb6, 0xfb, 0x73, 0xfc, 0x46, 0x93, 0x8c, 0x98, 0x1e, 0x2b, 0x0b, 0x4b, 0x1e, 0xf2, 0x82,
    0xad, 0xcf, 0xc8, 0x98, 0x54, 0xd0, 0x1b, 0xfe, 0x39, 0x72, 0xfd, 0xc4, 0x78, 0x5b, 0x41,
    0xb2, 0xc7], rfl⟩

/-- BLAKE3 of the zeros and the byte 1 after them. -/
def zerosOneHash : Digest :=
  ⟨[0x35, 0x54, 0x8e, 0x5d, 0x25, 0x35, 0x20, 0x8e, 0xee, 0x7d, 0xf8, 0x94, 0xfd, 0x42, 0xdb,
    0x23, 0x54, 0x47, 0xbe, 0xc9, 0x42, 0x40, 0x2b, 0x29, 0xa3, 0x2f, 0x94, 0x8f, 0xb5, 0xe0,
    0x27, 0x1d], rfl⟩

/-- BLAKE3 of the footer below. -/
def twoFooterHash : Digest :=
  ⟨[0x7e, 0x00, 0x0c, 0xd6, 0x43, 0x43, 0xe3, 0x10, 0x8d, 0x87, 0x65, 0xe7, 0x07, 0x6d, 0xf0,
    0xea, 0xdd, 0xa2, 0x29, 0x94, 0xd5, 0x84, 0x06, 0x58, 0xa3, 0xa8, 0x42, 0xd1, 0x08, 0x62,
    0xc7, 0xa0], rfl⟩

def twoFooter : FooterV4 :=
  { oneFooter with
    originalSize := 4097, fileHash := zerosOneHash.val, blockCount := 2
    storedLens := [0, 16, 0, 0, 1, 0, 0, 0], originalLens := [0, 16, 0, 0, 1, 0, 0, 0]
    planIndices := [0, 0, 0, 0]
    payloadHashes := zerosHash.val.take 16 ++ oneHash.val.take 16 }

/-- BLAKE3 of what a file of two blocks is made of tells their lengths apart. -/
def twoPlatform : Platform :=
  { framingPlatform with
    blake3 := fun data =>
      if data.length = 1 then oneHash
      else if data.length = 4096 then zerosHash
      else if data.length = 4097 then zerosOneHash
      else twoFooterHash
    decodeFooter := fun bytes =>
      if bytes = encodeFooter noMetrics twoFooter then .ok twoFooter
      else .error "invalid wire type" }

def twoCalls (chunk : Bytes) : List Call :=
  [.pushCompressed chunk (storedBlock chunk) none, .addPlan .stored,
    .pushCompressed [1] (storedBlock [1]) none]

theorem chunks_two (chunk : Bytes) (full : chunk.length = 4096) :
    chunks (1 <<< 12) (chunk ++ [1]) = [chunk, [1]] := by
  simp [chunks, full, List.range_succ, List.take_append, List.drop_append, List.take_of_length_le]

theorem steps_two (chunk : Bytes) (full : chunk.length = 4096) :
    (emptyWriter.steps twoPlatform (twoCalls chunk)).1 =
        [.ok (some ⟨chunk, 0, chunk⟩), .ok none, .ok (some ⟨[1], 0, [1]⟩)] ∧
      (emptyWriter.steps twoPlatform (twoCalls chunk)).2.footer twoPlatform oneInfo = twoFooter := by
  have filled : chunk ≠ [] := by rintro rfl; cases full
  have plan : BlockPlan.stored.normalized = .stored ∧ BlockPlan.stored.validate = .ok () :=
    ⟨rfl, rfl⟩
  have slack : slackLen 4096 = 8704 ∧ slackLen 1 = 4097 := by decide
  have table : ¬ maxBlocks ≤ 0 ∧ ¬ maxBlocks ≤ 1 ∧ ¬ maxPlans ≤ 0 := by decide
  simp [Writer.steps, twoCalls, Writer.step, Writer.pushCompressed, Writer.addPlan, emptyWriter,
    storedBlock, plan, Writer.pushBlock, Writer.checkPush, full, filled, writeAll, Writer.record,
    Writer.blockSize, rejectIf, slack, table.1, table.2.1, table.2.2, Except.map, ok_bind,
    Writer.footer, twoFooter, oneFooter, oneInfo, shortHash, twoPlatform]
  exact ⟨rfl, rfl, rfl, rfl⟩

/-- Zstd gains nothing on the first chunk, and the second is stored by its plan. -/
theorem writes_two (chunk : Bytes) (full : chunk.length = 4096) :
    Writes framingCodecs (fun _ => none) (chunks (1 <<< 12) (chunk ++ [1])) (twoCalls chunk) := by
  have filled : chunk ≠ [] := by rintro rfl; cases full
  have kept : compressBlock framingCodecs chunk (.new .zstd 3) none = .ok (storedBlock chunk) := by
    simp [compressBlock, execute, encode, framingCodecs, Plan.new, Plan.isStored, filled,
      dictInUse, ok_bind]
  rw [chunks_two chunk full]
  exact .push none ⟨.new .zstd 3, none, by decide, by simp [NoRle, Plan.new], kept, by simp⟩
    (.register _ (.push none
      ⟨.stored, none, by decide, by simp [NoRle, Plan.stored, Plan.new], rfl, by simp⟩ .done))

/-- A block of zeros and the byte 1. -/
theorem written_restores_two :
    ∃ file summary r, (emptyWriter.steps twoPlatform (twoCalls (List.replicate 4096 0))).2.finish
        twoPlatform noMetrics oneInfo .none = .ok (file, summary) ∧
      Reader.fromBytes twoPlatform file = .ok r ∧ r.blockCount = 2 ∧
      r.restoreAll twoPlatform (fun _ => none) = .ok (List.replicate 4096 0 ++ [1]) ∧
      r.readBlock twoPlatform 0 (fun _ => none) = .ok (List.replicate 4096 0) ∧
      r.readBlock twoPlatform 1 (fun _ => none) = .ok [1] := by
  have full : (List.replicate 4096 0 : Bytes).length = 4096 := List.length_replicate
  generalize (List.replicate 4096 0 : Bytes) = chunk at full ⊢
  obtain ⟨accepted, footer⟩ := steps_two chunk full
  have sized : (encodeFooter noMetrics
      ((emptyWriter.steps twoPlatform (twoCalls chunk)).2.footer twoPlatform oneInfo)).length ≤
        maxFooterLen := by
    rw [footer]
    decide +kernel
  have finished := Writer.finish_of_fits twoPlatform noMetrics
    (by decide : oneInfo.originalNames.length ≤ maxNames) sized
  obtain ⟨r, opened, blockCount, restored, read⟩ :=
    (written_restores twoPlatform framingCodecs_roundTrip framingCodecs_declaresLengths
      noMetrics fun _ => none).2 12 emptyWriter none none (by decide) (chunk ++ [1])
      (twoCalls chunk) (writes_two chunk full)
      (by rw [accepted]; simp [Except.isOk, Except.toBool]) oneInfo .none _ _ finished
      (by rw [footer]; exact if_pos rfl)
  rw [chunks_two chunk full] at blockCount read
  exact ⟨_, _, r, finished, opened, blockCount, restored, read 0 chunk rfl, read 1 [1] rfl⟩

end Syntra.Blockfile

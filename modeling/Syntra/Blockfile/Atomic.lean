import Syntra.Blockfile.Reopened
import Syntra.Blockfile.Streaming

/-!
# Failed writes

A push whose write fails leaves the tables as they were, and the bytes it wrote
before in the sink.  The file of a writer that goes on opens only when there
are no such bytes.
-/

set_option autoImplicit false

namespace Syntra.Blockfile

open Fallible Machine Tiling

variable {P : Platform} {metrics : FileMetrics → Bytes} {w : Writer} {blocks : List Pushed}
  {info : Metadata} {body file : Bytes} {summary : Summary}

/-! ## One layout -/

theorem hash_of_trailer {left right : Bytes}
    (same : (trailer P left).drop 4 = (trailer P right).drop 4) :
    shortHash P left = shortHash P right := by
  simp only [trailer, List.append_assoc] at same
  rw [List.drop_left' (LittleEndian.length_toBytes 4 _),
    List.drop_left' (LittleEndian.length_toBytes 4 _)] at same
  exact (List.append_inj same (by simp)).1

theorem length_of_trailer {left right : Bytes} (short : left.length ≤ maxFooterLen)
    (short' : right.length ≤ maxFooterLen)
    (same : (trailer P left).take 4 = (trailer P right).take 4) :
    left.length = right.length := by
  simp only [trailer, List.append_assoc] at same
  rw [List.take_left' (LittleEndian.length_toBytes 4 _),
    List.take_left' (LittleEndian.length_toBytes 4 _)] at same
  have value := congrArg LittleEndian.ofBytes same
  have small : maxFooterLen < 256 ^ 4 := by decide
  rwa [LittleEndian.ofBytes_toBytes_of_lt 4 _ (by omega),
    LittleEndian.ofBytes_toBytes_of_lt 4 _ (by omega)] at value

theorem trailer_injective {left right : Bytes} (short : left.length ≤ maxFooterLen)
    (short' : right.length ≤ maxFooterLen) (same : trailer P left = trailer P right) :
    left.length = right.length ∧ shortHash P left = shortHash P right :=
  ⟨length_of_trailer short short' (by rw [same]), hash_of_trailer (by rw [same])⟩

theorem layOut_injective {log2 log2' : Nat} {body body' footerBytes footerBytes' : Bytes}
    (short : footerBytes.length ≤ maxFooterLen) (short' : footerBytes'.length ≤ maxFooterLen)
    (same : layOut P log2 body footerBytes = layOut P log2' body' footerBytes') :
    body = body' ∧ footerBytes = footerBytes' := by
  simp only [layOut, ← List.append_assoc] at same
  obtain ⟨front, tail⟩ := List.append_inj' same (by simp)
  obtain ⟨length, -⟩ := trailer_injective short short' tail
  obtain ⟨head, footer⟩ := List.append_inj' front length
  exact ⟨(List.append_inj head (by simp)).2, footer⟩

/-- A finished file opens only when its sink held nothing but the payloads. -/
theorem Finished.body_of_opens (made : Finished P metrics w blocks info body file summary)
    {r : Reader} (opened : Reader.fromBytes P file = .ok r) :
    body.length = (payloads blocks).length := by
  obtain ⟨log2, body', footerBytes, plans, footer, same, opens, -⟩ :=
    (fromBytes_meets P file).of_ok opened
  rw [made.file_eq] at same
  obtain ⟨rfl, rfl⟩ := layOut_injective made.short opens.short same
  have footers := made.decoded.symm.trans opens.decoded
  rw [opens.filled, ← Except.ok.inj footers, made.held.sum_storedLens]

/-! ## Blocks that decode -/

/-- The dictionary of a plan, when it needs none or the resolver has the right one. -/
def dictionaryOf (dicts : String → Option Dictionary) (plan : BlockPlan) :
    Option (Option Dictionary) :=
  match plan.dictionary with
  | none => some none
  | some reference =>
    match dicts reference.id with
    | none => none
    | some found => if reference.digest = found.digest.val then some (some found) else none

theorem planDictionary_eq_ok {dicts : String → Option Dictionary} {plan : BlockPlan}
    {planIdx i : Nat} {dict : Option Dictionary} :
    (Reader.planDictionary plan planIdx i dicts []).1 = .ok dict ↔
      dictionaryOf dicts plan = some dict := by
  unfold Reader.planDictionary dictionaryOf
  cases plan.dictionary with
  | none => simp
  | some reference =>
      dsimp only [dictionaryFor]
      cases resolved : dicts reference.id with
      | none => simp [Except.map]
      | some found =>
          by_cases digest : reference.digest = found.digest.val <;> simp [digest, Except.map]

/-- The payload of a block decodes to the block under its plan. -/
def Pushed.Decodes (P : Platform) (dicts : String → Option Dictionary) (plans : List BlockPlan)
    (b : Pushed) : Prop :=
  ∃ plan dict, plans[b.planIdx]? = some plan ∧ dictionaryOf dicts plan = some dict ∧
    decodeBlock P.codecs b.payload plan (dict.map (·.bytes)) b.original.length = .ok b.original

theorem payloadAt_layOut {log2 : Nat} {footerBytes : Bytes} {footer : FooterV4} {i : Nat}
    {b : Pushed} (lens : Blockfile.storedLens footer = blocks.map (·.payload.length))
    (stored : (entryAt footer i).storedLen = b.payload.length) (there : blocks[i]? = some b) :
    payloadAt (layOut P log2 (payloads blocks) footerBytes) footer i = b.payload := by
  have chunk : (blocks.map (·.payload))[i]? = some b.payload := by
    rw [List.getElem?_map, there]
    rfl
  have found := take_drop_flatten chunk (header log2) (footerBytes ++ trailer P footerBytes)
  rw [List.map_map, length_header, ← List.flatMap_def] at found
  rw [payloadAt, stored, offsetOf, lens]
  exact found

theorem Finished.readBlock_eq (made : Finished P metrics w blocks info body file summary)
    (clean : body = payloads blocks) (dicts : String → Option Dictionary) {i : Nat} {b : Pushed}
    (there : blocks[i]? = some b) {plan : BlockPlan} (planned : w.plans[b.planIdx]? = some plan)
    {r : Reader} (opened : Reader.fromBytes P file = .ok r) :
    r.readBlock P i dicts = lift (Reader.planDictionary plan b.planIdx i dicts []).1 >>= fun dict =>
      lift ((decodeBlock P.codecs b.payload plan (dict.map (·.bytes)) b.original.length).mapError
        fun e => .blockDecode i e.text) := by
  have held := made.held
  have opens := made.opens clean
  have entry := held.entryAt_eq info there
  have inside : i < (w.footer P info).blockCount := by
    rw [held.blockCount_eq]
    exact (List.getElem?_eq_some_iff.mp there).1
  rw [made.fromBytes_eq clean] at opened
  cases opened
  have fetched := opens.fetch_eq inside
  have payload : payloadAt (layOut P w.log2 body (encodeFooter metrics (w.footer P info)))
      (w.footer P info) i = b.payload := by
    rw [clean]
    exact payloadAt_layOut (held.storedLens_eq info) (congrArg Entry.storedLen entry) there
  have hashed : shortHash P b.payload = (entryAt (w.footer P info) i).payloadHash := by
    rw [entry]
    rfl
  rw [payload, if_pos hashed] at fetched
  have found : w.plans[(entryAt (w.footer P info) i).planIdx]? = some plan := by
    rw [entry]
    exact planned
  rw [opens.readBlock_eq inside found, fetched, ok_bind, entry]
  rfl

theorem Finished.readBlock_iff (made : Finished P metrics w blocks info body file summary)
    (clean : body = payloads blocks) {dicts : String → Option Dictionary} {i : Nat} {b : Pushed}
    (there : blocks[i]? = some b) {r : Reader} (opened : Reader.fromBytes P file = .ok r) :
    r.readBlock P i dicts = .ok b.original ↔ b.Decodes P dicts w.plans := by
  have planIdx := (made.held.sound b (List.mem_of_getElem? there)).planned
  have planned := List.getElem?_eq_getElem planIdx
  rw [made.readBlock_eq clean dicts there planned opened]
  constructor
  · intro read
    obtain ⟨dict, resolved, decoded⟩ := bind_eq_ok.mp read
    exact ⟨_, dict, planned, planDictionary_eq_ok.mp (mapError_eq_ok.mp resolved),
      mapError_eq_ok.mp (mapError_eq_ok.mp decoded)⟩
  · rintro ⟨plan, dict, found, resolved, decoded⟩
    cases Option.some.inj (planned.symm.trans found)
    rw [planDictionary_eq_ok.mpr resolved, lift_ok, ok_bind, decoded]
    rfl

/-! ## The whole file -/

theorem Finished.reader_eq (made : Finished P metrics w blocks info body file summary)
    (clean : body = payloads blocks) {r : Reader} (opened : Reader.fromBytes P file = .ok r) :
    r.footer = w.footer P info ∧ r.blockCount = blocks.length := by
  rw [made.fromBytes_eq clean] at opened
  cases opened
  exact ⟨rfl, made.held.blockCount_eq info⟩

/-- Blocks of the right lengths that together are the originals are the originals. -/
theorem Finished.read_originals (made : Finished P metrics w blocks info body file summary)
    (clean : body = payloads blocks) {dicts : String → Option Dictionary} {r : Reader}
    (opened : Reader.fromBytes P file = .ok r) {read : List Bytes}
    (reads : BlocksRead P r dicts (List.range r.blockCount) read)
    (whole : read.flatten = originals blocks) : read = blocks.map (·.original) := by
  have held := made.held
  have few := blockCount_le opened
  have count := reads.length_eq
  rw [List.length_range] at count
  rw [List.eq_iff_flatten_eq, List.map_map, ← List.flatMap_def]
  refine ⟨whole, ?_⟩
  obtain ⟨footer, blockCount⟩ := made.reader_eq clean opened
  apply List.ext_getElem?
  intro i
  rw [List.getElem?_map, List.getElem?_map]
  by_cases inside : i < blocks.length
  · have there := List.getElem?_eq_getElem inside
    have listed : i < read.length := by rw [← count, blockCount]; exact inside
    have one := (List.forall₂_iff_get.mp reads).2 i (by simpa [blockCount] using inside) listed
    simp only [List.get_eq_getElem, List.getElem_range] at one
    have sized := readBlock_length (by omega) one
    have entry := held.entryAt_eq info there
    rw [footer] at sized
    rw [there, List.getElem?_eq_getElem listed]
    simp only [Option.map_some, sized, Function.comp_apply]
    exact congrArg (fun e : Entry => some e.originalLen) entry
  · rw [List.getElem?_eq_none (by omega), List.getElem?_eq_none (by omega)]
    rfl

theorem Finished.restores_iff (made : Finished P metrics w blocks info body file summary)
    (clean : body = payloads blocks) {dicts : String → Option Dictionary} {r : Reader}
    (opened : Reader.fromBytes P file = .ok r) :
    r.restoreAll P dicts = .ok (originals blocks) ↔ ∀ b ∈ blocks, b.Decodes P dicts w.plans := by
  obtain ⟨footer, blockCount⟩ := made.reader_eq clean opened
  rw [restoreAll_eq_ok (blockCount_le opened)]
  constructor
  · rintro ⟨read, reads, whole, -, -⟩ b member
    have same := made.read_originals clean opened reads whole.symm
    obtain ⟨i, inside, rfl⟩ := List.getElem_of_mem member
    have there := List.getElem?_eq_getElem inside
    rw [same] at reads
    have one := (List.forall₂_iff_get.mp reads).2 i (by simpa [blockCount] using inside)
      (by simpa using inside)
    simp only [List.get_eq_getElem, List.getElem_range, List.getElem_map] at one
    exact (made.readBlock_iff clean there opened).mp one
  · intro decodes
    have whole : (blocks.map (·.original)).flatten = originals blocks := List.flatMap_def.symm
    refine ⟨blocks.map (·.original), ?_, whole.symm, ?_, ?_⟩
    · apply List.forall₂_iff_get.mpr
      refine ⟨by simp [blockCount], fun i _ inside => ?_⟩
      have inside : i < blocks.length := by simpa using inside
      simp only [List.get_eq_getElem, List.getElem_range, List.getElem_map]
      exact (made.readBlock_iff clean (List.getElem?_eq_getElem inside) opened).mpr
        (decodes _ (List.getElem_mem inside))
    · rw [whole, footer]
      exact made.held.originalSize.symm
    · rw [whole, footer]
      exact congrArg (fun hashed => (P.blake3 hashed).val) made.held.hashed.symm

/-- Over any sink a failed call leaves the tables, the hash and the counters unchanged, and an
accepted plan keeps its index.  The file of a writer that finishes opens exactly when no failed
write left bytes in the sink, and then it restores to the accepted blocks exactly when each of
their payloads decodes. -/
theorem finish_restores_iff (P : Platform) (metrics : FileMetrics → Bytes) (log2 : Nat)
    (w₀ : Writer) (first second : Option Fault) (made : Writer.new log2 first second = .ok w₀)
    (calls : List Call) (info : Metadata) (faults : FinishFaults) (file : Bytes)
    (summary : Summary)
    (finished : (w₀.steps P calls).2.finish P metrics info faults = .ok (file, summary))
    (decoded : P.decodeFooter (encodeFooter metrics ((w₀.steps P calls).2.footer P info)) =
      .ok ((w₀.steps P calls).2.footer P info)) (dicts : String → Option Dictionary) :
    (∀ before call failure, ((w₀.steps P before).2.step P call).1 = .error failure →
        (w₀.steps P before).2.SameTables ((w₀.steps P before).2.step P call).2) ∧
      (∀ before plan after i w, calls = before ++ .addPlan plan :: after →
        (w₀.steps P before).2.addPlan plan = (.ok i, w) →
        (w₀.steps P calls).2.plans[i]? = some plan.normalized) ∧
      ((∃ r, Reader.fromBytes P file = .ok r) ↔ w₀.litters P calls = []) ∧
      ((∃ r, Reader.fromBytes P file = .ok r ∧
          r.restoreAll P dicts = .ok (originals (acceptedBy (w₀.steps P calls).1))) ↔
        w₀.litters P calls = [] ∧ ∀ b ∈ acceptedBy (w₀.steps P calls).1,
          b.Decodes P dicts (w₀.steps P calls).2.plans) := by
  obtain ⟨body, done, -, length, clean⟩ := finished_of_calls made calls
    (Writer.finish_unfailing P metrics finished) decoded
  have opens_iff : (∃ r, Reader.fromBytes P file = .ok r) ↔ w₀.litters P calls = [] := by
    constructor
    · rintro ⟨r, opened⟩
      have same := done.body_of_opens opened
      exact List.eq_nil_of_length_eq_zero (by omega)
    · exact fun none_left => ⟨_, done.fromBytes_eq (clean none_left)⟩
  obtain ⟨held, -, -⟩ := Writer.new_eq_ok P made
  refine ⟨?_, ?_, opens_iff, ?_⟩
  · intro before call failure failed
    exact (Writer.step_steps (Writer.steps_hold held before).1 call).failed failure failed
  · rintro before plan after i w rfl added
    exact Writer.addPlan_stays held added
  · constructor
    · rintro ⟨r, opened, restored⟩
      have none_left := opens_iff.mp ⟨r, opened⟩
      exact ⟨none_left, (done.restores_iff (clean none_left) opened).mp restored⟩
    · rintro ⟨none_left, decodes⟩
      obtain ⟨r, opened⟩ := opens_iff.mpr none_left
      exact ⟨r, opened, (done.restores_iff (clean none_left) opened).mpr decodes⟩

def retriedCalls (written : Nat) : List Call :=
  [.addPlan .stored, .pushBlock [1] 0 [1] (some ⟨written, .other "no space left on device"⟩),
    .pushBlock [1] 0 [1] none]

theorem finish_restores_iff_retried :
    (∃ r, Reader.fromBytes blockPlatform oneFile = .ok r ∧
        r.restoreAll blockPlatform (fun _ => none) = .ok [1]) ↔
      emptyWriter.litters blockPlatform (retriedCalls 0) = [] ∧
        ∀ b ∈ [(⟨[1], 0, [1]⟩ : Pushed)], b.Decodes blockPlatform (fun _ => none) [.stored] :=
  (finish_restores_iff blockPlatform noMetrics 12 emptyWriter none none (by decide)
    (retriedCalls 0) oneInfo .none oneFile oneSummary (by decide +kernel) (by decide +kernel)
    fun _ => none).2.2.2

/-- What the sink holds when the first write stopped after one byte. -/
def drifted : Bytes := layOut blockPlatform 12 [1, 1] oneFooterBytes

/-- The writer goes on after the failed write and finishes a file that does not open. -/
theorem finish_after_fault :
    Writer.new 12 none none = .ok emptyWriter ∧
      (emptyWriter.steps blockPlatform (retriedCalls 1)).1 =
        [.ok none, .error (.io "no space left on device"), .ok (some ⟨[1], 0, [1]⟩)] ∧
      (emptyWriter.steps blockPlatform (retriedCalls 1)).2.finish blockPlatform noMetrics oneInfo
        .none = .ok (drifted, oneSummary) ∧
      ¬ ∃ r, Reader.fromBytes blockPlatform drifted = .ok r ∧
        r.restoreAll blockPlatform (fun _ => none) = .ok [1] := by
  refine ⟨by decide, by decide +kernel, by decide +kernel, ?_⟩
  rintro ⟨r, opened, -⟩
  have fails : (Reader.fromBytes blockPlatform drifted).isOk = false := by decide +kernel
  rw [opened] at fails
  cases fails

end Syntra.Blockfile

import Mathlib.Data.Finset.Sort
import Syntra.Blockfile.Atomic

/-!
# Damaged files

A change inside the payloads is found in the blocks that it touches and nowhere
else.  A change of the header, of the footer or of one field of the trailer
keeps the file from opening.
-/

set_option autoImplicit false

namespace Syntra.Blockfile

open Fallible Machine Tiling

variable {P : Platform} {metrics : FileMetrics → Bytes} {w : Writer} {blocks : List Pushed}
  {info : Metadata} {body file altered : Bytes} {summary : Summary}

/-! ## Going over damaged blocks -/

/-- The failure of a block whose hash is wrong. -/
def FailsAt {α : Type} (k : Nat) (run : Run BlockError α) : Prop :=
  ∃ expected found, run = fails (.blockCorrupted k expected found)

def Damaged (P : Platform) (r : Reader) (bad : Nat → Bool) : Prop :=
  ∀ i < r.blockCount, (bad i = true → FailsAt i (fetch P r.src r.offsets r.footer i)) ∧
    (bad i = false → ∃ data, fetch P r.src r.offsets r.footer i = .ok data)

theorem corruptedLoop_eq {r : Reader} {bad : Nat → Bool} (damaged : Damaged P r bad)
    {i count : Nat} (within : i + count ≤ r.blockCount) (before : List Nat) :
    r.corruptedLoop P i count before = .ok (before ++ (List.range' i count).filter bad) := by
  induction count generalizing i before with
  | zero => simp [Reader.corruptedLoop]
  | succ count ih =>
      obtain ⟨wrong, right⟩ := damaged i (by omega)
      rw [Reader.corruptedLoop, List.range'_succ]
      cases isBad : bad i with
      | true =>
          obtain ⟨expected, found, failed⟩ := wrong isBad
          rw [failed, List.filter_cons_of_pos isBad]
          dsimp only [fails]
          rw [ih (by omega), List.append_assoc]
          rfl
      | false =>
          obtain ⟨data, fetched⟩ := right isBad
          rw [fetched, List.filter_cons_of_neg (by simp [isBad])]
          exact ih (by omega) before

theorem corruptedBlocks_eq {r : Reader} {bad : Nat → Bool} (damaged : Damaged P r bad) :
    r.corruptedBlocks P = .ok ((List.range r.blockCount).filter bad) := by
  have looped := corruptedLoop_eq damaged (i := 0) (Nat.zero_add _).le []
  rwa [List.nil_append, ← List.range_eq_range'] at looped

theorem verifyLoop_fails {r : Reader} {bad : Nat → Bool} (damaged : Damaged P r bad) {k : Nat}
    (isBad : bad k = true) (least : ∀ j < k, bad j = false) {i count : Nat} (low : i ≤ k)
    (high : k < i + count) (within : i + count ≤ r.blockCount) :
    FailsAt k (r.verifyLoop P i count) := by
  induction count generalizing i with
  | zero => omega
  | succ count ih =>
      obtain ⟨wrong, right⟩ := damaged i (by omega)
      rw [Reader.verifyLoop]
      rcases Nat.lt_or_eq_of_le low with before | rfl
      · obtain ⟨data, fetched⟩ := right (least i before)
        rw [fetched, ok_bind]
        exact ih before (by omega) (by omega)
      · obtain ⟨expected, found, failed⟩ := wrong isBad
        rw [failed]
        exact ⟨expected, found, rfl⟩

/-! ## Changes of payloads -/

def startOf (blocks : List Pushed) (i : Nat) : Nat :=
  offset headerLen (blocks.map (·.payload.length)) i

def InBlock (blocks : List Pushed) (k pos : Nat) : Prop :=
  ∃ b, blocks[k]? = some b ∧ startOf blocks k ≤ pos ∧ pos < startOf blocks k + b.payload.length

/-- The file has the same length, and differs in the payloads of all the blocks of `K` and
nowhere else. -/
structure AltersBlocks (blocks : List Pushed) (K : Finset Nat) (file altered : Bytes) : Prop where
  length : altered.length = file.length
  only : ∀ pos, altered[pos]? ≠ file[pos]? → ∃ k ∈ K, InBlock blocks k pos
  each : ∀ k ∈ K, ∃ pos, InBlock blocks k pos ∧ altered[pos]? ≠ file[pos]?

/-- No part of the altered file has the short hash of one of the pieces, but the piece. -/
def CollisionFree (P : Platform) (pieces : List Bytes) (altered : Bytes) : Prop :=
  ∀ piece ∈ pieces, ∀ part, part <:+: altered → shortHash P part = shortHash P piece → part = piece

theorem InBlock.bounds {k pos : Nat} (inside : InBlock blocks k pos) :
    headerLen ≤ pos ∧ pos < headerLen + (payloads blocks).length := by
  obtain ⟨b, there, low, high⟩ := inside
  have start : headerLen ≤ startOf blocks k := offset_mono headerLen _ (Nat.zero_le k)
  have stop : startOf blocks k + b.payload.length ≤ headerLen + _ :=
    offset_add_le (by rw [List.getElem?_map, there]; rfl)
  rw [payloads, List.length_flatMap]
  omega

theorem InBlock.unique {j k pos : Nat} (inside : InBlock blocks j pos)
    (inside' : InBlock blocks k pos) : j = k := by
  obtain ⟨b, there, low, high⟩ := inside
  obtain ⟨c, there', low', high'⟩ := inside'
  apply eq_of_inside _ _ low high low' high'
  · rw [List.getElem?_map, there]
    rfl
  · rw [List.getElem?_map, there']
    rfl

theorem AltersBlocks.agree {K : Finset Nat} (alters : AltersBlocks blocks K file altered)
    {lo hi : Nat} (free : ∀ pos, lo ≤ pos → pos < hi → ∀ k ∈ K, ¬ InBlock blocks k pos) :
    Agree lo hi altered file := by
  intro pos low high
  by_contra differ
  obtain ⟨k, member, inside⟩ := alters.only pos differ
  exact free pos low high k member inside

theorem Finished.fromBytes_altered (made : Finished P metrics w blocks info body file summary)
    (clean : body = payloads blocks) {K : Finset Nat}
    (alters : AltersBlocks blocks K file altered) :
    ∃ body', Opens P w.log2 body' (encodeFooter metrics (w.footer P info)) w.plans
        (w.footer P info) ∧
      altered = layOut P w.log2 body' (encodeFooter metrics (w.footer P info)) ∧
      Reader.fromBytes P altered = .ok (readerOf P w.log2 body'
        (encodeFooter metrics (w.footer P info)) w.plans (w.footer P info)) := by
  have file_eq := made.file_eq
  have file_length := length_layOut P w.log2 body (encodeFooter metrics (w.footer P info))
  rw [← file_eq] at file_length
  have front : altered.take headerLen = header w.log2 := by
    have same : Agree 0 headerLen altered file := alters.agree fun pos _ high k _ inside =>
      absurd inside.bounds.1 (by omega)
    rw [same.take, file_eq, layOut, List.take_left' (length_header _)]
  have back : altered.drop (headerLen + body.length) =
      encodeFooter metrics (w.footer P info) ++
        trailer P (encodeFooter metrics (w.footer P info)) := by
    have same : Agree (headerLen + body.length) altered.length altered file :=
      alters.agree fun pos low _ k _ inside => absurd inside.bounds.2 (by rw [← clean]; omega)
    rw [same.drop alters.length, file_eq, layOut, ← List.drop_drop,
      List.drop_left' (length_header _), List.drop_left]
  have sized : ((altered.drop headerLen).take body.length).length = body.length := by
    rw [List.length_take, List.length_drop, alters.length, file_length]
    omega
  have whole : altered = layOut P w.log2 ((altered.drop headerLen).take body.length)
      (encodeFooter metrics (w.footer P info)) := by
    rw [layOut, ← front, ← back, ← List.drop_drop, List.take_append_drop, List.take_append_drop]
  generalize (altered.drop headerLen).take body.length = body' at sized whole
  have filled : body'.length = (Blockfile.storedLens (w.footer P info)).sum := by
    rw [sized, clean, made.held.sum_storedLens]
  have opens : Opens P w.log2 body' (encodeFooter metrics (w.footer P info)) w.plans
      (w.footer P info) :=
    { within := made.held.log2, short := made.short, decoded := made.decoded
      sound := made.held.soundFooter info, filled }
  obtain ⟨names, -⟩ := Writer.finish_eq_ok P metrics made.finished
  obtain ⟨message, opened⟩ := fromBytes_layOut P made.held.log2 made.short
    (made.held.scanFooter_eq names made.short) made.decoded (made.held.soundFooter info)
    opens.length_lt
  exact ⟨body', opens, whole, by rw [whole, opened, if_pos filled]⟩

theorem Writer.Holds.payloadAt_eq (held : w.Holds P blocks) (info : Metadata) {i : Nat}
    {b : Pushed} (there : blocks[i]? = some b) (src : Bytes) :
    payloadAt src (w.footer P info) i = (src.drop (startOf blocks i)).take b.payload.length := by
  rw [payloadAt, offsetOf, held.storedLens_eq, held.entryAt_eq info there]
  rfl

/-- In the altered file a payload is the old one exactly when its block is not in `K`. -/
theorem Finished.payload_altered (made : Finished P metrics w blocks info body file summary)
    (clean : body = payloads blocks) {K : Finset Nat}
    (alters : AltersBlocks blocks K file altered) {i : Nat} {b : Pushed}
    (there : blocks[i]? = some b) :
    payloadAt altered (w.footer P info) i = b.payload ↔ i ∉ K := by
  have held := made.held
  have original : payloadAt file (w.footer P info) i = b.payload := by
    rw [made.file_eq, clean]
    exact payloadAt_layOut (held.storedLens_eq info)
      (congrArg Entry.storedLen (held.entryAt_eq info there)) there
  rw [← original, held.payloadAt_eq info there, held.payloadAt_eq info there, take_drop_eq_iff]
  constructor
  · intro same member
    obtain ⟨pos, inside, differ⟩ := alters.each i member
    obtain ⟨c, there', low, high⟩ := inside
    cases Option.some.inj (there.symm.trans there')
    exact differ (same pos low high)
  · intro outside
    apply alters.agree
    intro pos low high k member inside
    have same : i = k := InBlock.unique ⟨b, there, low, high⟩ inside
    exact outside (same ▸ member)

def hashedPieces (blocks : List Pushed) (footerBytes : Bytes) : List Bytes :=
  footerBytes :: blocks.map (·.payload)

theorem payloadAt_infix (src : Bytes) (footer : FooterV4) (i : Nat) :
    payloadAt src footer i <:+: src :=
  (List.take_prefix _ _).isInfix.trans (List.drop_suffix _ _).isInfix

theorem Finished.damaged (made : Finished P metrics w blocks info body file summary)
    (clean : body = payloads blocks) {K : Finset Nat}
    (alters : AltersBlocks blocks K file altered)
    (free : CollisionFree P (hashedPieces blocks (encodeFooter metrics (w.footer P info))) altered)
    {r : Reader} (opened : Reader.fromBytes P altered = .ok r) :
    Damaged P r fun i => decide (i ∈ K) := by
  have held := made.held
  obtain ⟨body', opens, whole, opened'⟩ := made.fromBytes_altered clean alters
  cases Except.ok.inj (opened.symm.trans opened')
  intro i inside
  have listed : i < blocks.length := by rwa [← held.blockCount_eq info]
  have there := List.getElem?_eq_getElem listed
  have fetched := opens.fetch_eq inside
  have hash : (entryAt (w.footer P info) i).payloadHash = shortHash P blocks[i].payload := by
    rw [held.entryAt_eq info there]
    rfl
  have kept := made.payload_altered clean alters there
  rw [whole] at kept
  rw [hash] at fetched
  change (_ → FailsAt i (fetch P (layOut P w.log2 body' _) (offsetsOf _) (w.footer P info) i)) ∧ _
  rw [decide_eq_true_iff, decide_eq_false_iff_not]
  constructor
  · intro member
    have differ : shortHash P (payloadAt (layOut P w.log2 body'
        (encodeFooter metrics (w.footer P info))) (w.footer P info) i) ≠
          shortHash P blocks[i].payload := by
      intro same
      have piece : blocks[i].payload ∈ hashedPieces blocks (encodeFooter metrics (w.footer P info)) :=
        List.mem_cons_of_mem _ (List.mem_map_of_mem (List.getElem_mem listed))
      have equal := free _ piece _ (whole ▸ payloadAt_infix _ _ i) same
      exact kept.mp equal member
    rw [if_neg differ] at fetched
    exact ⟨_, _, fetched⟩
  · intro outside
    rw [kept.mpr outside, if_pos rfl] at fetched
    exact ⟨_, fetched⟩

theorem Finished.readBlock_kept (made : Finished P metrics w blocks info body file summary)
    (clean : body = payloads blocks) {K : Finset Nat}
    (alters : AltersBlocks blocks K file altered) {r r' : Reader}
    (opened : Reader.fromBytes P file = .ok r) (opened' : Reader.fromBytes P altered = .ok r')
    {i : Nat} (inside : i < blocks.length) (outside : i ∉ K) (dicts : String → Option Dictionary) :
    r'.readBlock P i dicts = r.readBlock P i dicts := by
  have held := made.held
  have there := List.getElem?_eq_getElem inside
  obtain ⟨body', opens', whole, opening⟩ := made.fromBytes_altered clean alters
  have opens := made.opens clean
  have counted : i < (w.footer P info).blockCount := by rwa [held.blockCount_eq]
  obtain ⟨plan, found⟩ := opens.sound.plan_there counted
  have original : payloadAt file (w.footer P info) i = blocks[i].payload := by
    rw [made.file_eq, clean]
    exact payloadAt_layOut (held.storedLens_eq info)
      (congrArg Entry.storedLen (held.entryAt_eq info there)) there
  have same : payloadAt altered (w.footer P info) i = payloadAt file (w.footer P info) i := by
    rw [original]
    exact (made.payload_altered clean alters there).mpr outside
  rw [made.fromBytes_eq clean] at opened
  cases opened
  cases Except.ok.inj (opened'.symm.trans opening)
  rw [opens'.readBlock_eq counted found, opens.readBlock_eq counted found, opens'.fetch_eq counted,
    opens.fetch_eq counted, ← whole, ← made.file_eq, same]

/-! ## Changes around the payloads -/

/-- The header, the footer, and the fields of the trailer: where each starts and its length. -/
def regions (fileLen footerLen : Nat) : List (Nat × Nat) :=
  [(0, headerLen), (fileLen - trailerLen - footerLen, footerLen), (fileLen - trailerLen, 4),
    (fileLen - trailerLen + 4, hashLen), (fileLen - trailerLen + 4 + hashLen, 4)]

/-- The file has the same length and differs, but only inside the region. -/
structure AltersOnly (region : Nat × Nat) (file altered : Bytes) : Prop where
  length : altered.length = file.length
  differs : altered ≠ file
  before : Agree 0 region.1 altered file
  after : Agree (region.1 + region.2) altered.length altered file

variable {log2 log2' : Nat} {body' footerBytes footerBytes' : Bytes}

theorem take_layOut : (layOut P log2 body footerBytes).take
    ((layOut P log2 body footerBytes).length - trailerLen) =
      header log2 ++ body ++ footerBytes := by
  have length : (layOut P log2 body footerBytes).length - trailerLen =
      (header log2 ++ body ++ footerBytes).length := by
    rw [length_layOut, Nat.add_sub_cancel]
    simp only [List.length_append, length_header]
  rw [length, layOut, ← List.append_assoc, ← List.append_assoc, List.take_left]

theorem take_body_layOut : (layOut P log2 body footerBytes).take
    ((layOut P log2 body footerBytes).length - trailerLen - footerBytes.length) =
      header log2 ++ body := by
  have length : (layOut P log2 body footerBytes).length - trailerLen - footerBytes.length =
      (header log2 ++ body).length := by
    rw [length_layOut, Nat.add_sub_cancel, List.length_append, length_header]
    omega
  rw [length, layOut, ← List.append_assoc, List.take_left]

theorem drop_layOut (k : Nat) : (layOut P log2 body footerBytes).drop
    ((layOut P log2 body footerBytes).length - trailerLen + k) =
      (trailer P footerBytes).drop k := by
  have length : (layOut P log2 body footerBytes).length - trailerLen =
      (header log2 ++ body ++ footerBytes).length := by
    rw [length_layOut, Nat.add_sub_cancel]
    simp only [List.length_append, length_header]
  rw [length, layOut, ← List.append_assoc, ← List.append_assoc, ← List.drop_drop, List.drop_left]

/-- What two layouts of one length share makes them one when the footers are as long. -/
theorem layOut_eq_of_front
    (length : (layOut P log2 body footerBytes).length = (layOut P log2' body' footerBytes').length)
    (front : Agree 0 ((layOut P log2 body footerBytes).length - trailerLen)
      (layOut P log2 body footerBytes) (layOut P log2' body' footerBytes'))
    (sized : footerBytes.length = footerBytes'.length) :
    layOut P log2 body footerBytes = layOut P log2' body' footerBytes' := by
  have same := front.take
  rw [take_layOut, length, take_layOut] at same
  obtain ⟨head, footer⟩ := List.append_inj' same sized
  rw [layOut, layOut, ← List.append_assoc, head, footer, List.append_assoc]

theorem trailer_drop_eq
    (length : (layOut P log2 body footerBytes).length = (layOut P log2' body' footerBytes').length)
    {lo k : Nat} (from_ : lo ≤ (layOut P log2 body footerBytes).length - trailerLen + k)
    (agree : Agree lo (layOut P log2 body footerBytes).length (layOut P log2 body footerBytes)
      (layOut P log2' body' footerBytes')) :
    (trailer P footerBytes).drop k = (trailer P footerBytes').drop k := by
  have same : Agree ((layOut P log2 body footerBytes).length - trailerLen + k) _ _ _ :=
    fun pos low high => agree pos (from_.trans low) high
  have dropped := same.drop length
  rwa [drop_layOut, length, drop_layOut] at dropped

theorem footer_infix : footerBytes <:+: layOut P log2 body footerBytes := by
  refine ⟨header log2 ++ body, trailer P footerBytes, ?_⟩
  simp only [layOut, List.append_assoc]

theorem layOut_eq_of_word (short : footerBytes.length ≤ maxFooterLen)
    (short' : footerBytes'.length ≤ maxFooterLen)
    (length : (layOut P log2 body footerBytes).length = (layOut P log2' body' footerBytes').length)
    {hi : Nat} (long : (layOut P log2 body footerBytes).length - trailerLen + 4 ≤ hi)
    (agree : Agree 0 hi (layOut P log2 body footerBytes) (layOut P log2' body' footerBytes')) :
    layOut P log2 body footerBytes = layOut P log2' body' footerBytes' := by
  have word : (trailer P footerBytes).take 4 = (trailer P footerBytes').take 4 := by
    have here : Agree ((layOut P log2 body footerBytes).length - trailerLen + 0) _ _ _ :=
      fun pos low high => agree pos (Nat.zero_le _) (high.trans_le long)
    have same := take_drop_eq_iff.mpr here
    rwa [drop_layOut, length, drop_layOut] at same
  apply layOut_eq_of_front length _ (length_of_trailer short short' word)
  exact fun pos low high => agree pos low (high.trans_le ((Nat.le_add_right _ 4).trans long))

theorem Opens.log2_eq {plans plans' : List BlockPlan} {footer : FooterV4}
    (opens : Opens P log2 body footerBytes plans footer) {footer' : FooterV4}
    (opens' : Opens P log2' body' footerBytes plans' footer') : log2 = log2' := by
  have footers := Except.ok.inj (opens.decoded.symm.trans opens'.decoded)
  rw [← opens.sound.sameLog2, ← opens'.sound.sameLog2, footers]

/-- A change of one region around the payloads keeps the file from opening. -/
theorem Opens.not_opens_altered {plans : List BlockPlan} {footer : FooterV4}
    (opens : Opens P log2 body footerBytes plans footer)
    (free : ∀ part, part <:+: altered → shortHash P part = shortHash P footerBytes →
      part = footerBytes)
    {region : Nat × Nat}
    (listed : region ∈ regions (layOut P log2 body footerBytes).length footerBytes.length)
    (alters : AltersOnly region (layOut P log2 body footerBytes) altered) (r : Reader) :
    Reader.fromBytes P altered ≠ .ok r := by
  intro opened
  obtain ⟨log2', body', footerBytes', plans', footer', rfl, opens', -⟩ :=
    (fromBytes_meets P altered).of_ok opened
  have length := alters.length
  have before := alters.before
  have after := alters.after
  apply alters.differs
  simp only [regions, List.mem_cons, List.not_mem_nil, or_false] at listed
  rw [← length] at listed
  rcases listed with rfl | rfl | rfl | rfl | rfl
  · -- The header: the footer is the same, and it repeats what the header says.
    have dropped : (layOut P log2' body' footerBytes').drop headerLen =
        (layOut P log2 body footerBytes).drop headerLen := by
      apply Agree.drop length
      rwa [Nat.zero_add] at after
    rw [layOut, layOut, List.drop_left' (length_header _), List.drop_left' (length_header _)]
      at dropped
    have same : layOut P log2 body' footerBytes' = layOut P log2 body footerBytes := by
      rw [layOut, layOut, dropped]
    obtain ⟨rfl, rfl⟩ := layOut_injective opens'.short opens.short same
    rw [opens'.log2_eq opens]
  · -- The footer: the trailer has its hash.
    have fits : footerBytes.length ≤ (layOut P log2' body' footerBytes').length - trailerLen := by
      rw [length, length_layOut]
      omega
    have tails := trailer_drop_eq (k := 0) length (by dsimp only; omega) after
    rw [List.drop_zero, List.drop_zero] at tails
    have footers := free _ footer_infix (trailer_injective opens'.short opens.short tails).2
    subst footers
    have heads := before.take
    rw [take_body_layOut, length, take_body_layOut] at heads
    rw [layOut, layOut, ← List.append_assoc, heads, List.append_assoc]
  · -- The length: the hash is that of the old footer.
    have tails := trailer_drop_eq (k := 4) length (Nat.le_refl _) after
    have footers := free _ footer_infix (hash_of_trailer tails)
    exact layOut_eq_of_front length before (congrArg List.length footers)
  · -- The hash and the signature: the footer before them is the same.
    exact layOut_eq_of_word opens'.short opens.short length (Nat.le_refl _) before
  · exact layOut_eq_of_word opens'.short opens.short length (Nat.le_add_right _ _) before

/-! ## Any file of the writer -/

/-- The damage is found in the blocks of `K`, before they are decoded, and nowhere else. -/
structure Contained (P : Platform) (K : Finset Nat) (r r' : Reader) : Prop where
  blockCount : r'.blockCount = r.blockCount
  early : ∀ k ∈ K, FailsAt k (r'.fetchPlanned P k)
  damaged : ∀ k ∈ K, ∃ expected found, ∀ codecs dicts,
    r'.readBlock { P with codecs } k dicts = fails (.blockCorrupted k expected found)
  kept : ∀ i < r.blockCount, i ∉ K → ∀ dicts, r'.readBlock P i dicts = r.readBlock P i dicts
  corruptedBlocks : r'.corruptedBlocks P = .ok (K.sort (· ≤ ·))
  verifyAll : ∀ k ∈ K, (∀ j ∈ K, k ≤ j) → FailsAt k (r'.verifyAll P)

theorem filter_range_eq_sort {n : Nat} {K : Finset Nat} (inside : ∀ k ∈ K, k < n) :
    (List.range n).filter (fun i => decide (i ∈ K)) = K.sort (· ≤ ·) := by
  have nodup : ((List.range n).filter fun i => decide (i ∈ K)).Nodup := List.nodup_range.filter _
  have sorted : ((List.range n).filter fun i => decide (i ∈ K)).Pairwise (· ≤ ·) :=
    List.pairwise_le_range.filter _
  have same : ((List.range n).filter fun i => decide (i ∈ K)).toFinset = K := by
    ext i
    rw [List.mem_toFinset, List.mem_filter, List.mem_range, decide_eq_true_iff]
    exact ⟨And.right, fun member => ⟨inside i member, member⟩⟩
  rw [← (List.toFinset_sort (· ≤ ·) nodup).mpr sorted, same]

theorem Finished.contained (made : Finished P metrics w blocks info body file summary)
    (clean : body = payloads blocks) {K : Finset Nat}
    (alters : AltersBlocks blocks K file altered)
    (free : CollisionFree P (hashedPieces blocks (encodeFooter metrics (w.footer P info))) altered)
    {r r' : Reader} (opened : Reader.fromBytes P file = .ok r)
    (opened' : Reader.fromBytes P altered = .ok r') : Contained P K r r' := by
  obtain ⟨-, blockCount⟩ := made.reader_eq clean opened
  have blockCount' : r'.blockCount = blocks.length := by
    obtain ⟨body', -, -, opening⟩ := made.fromBytes_altered clean alters
    cases Except.ok.inj (opened'.symm.trans opening)
    exact made.held.blockCount_eq info
  have inside : ∀ k ∈ K, k < r'.blockCount := by
    intro k member
    obtain ⟨pos, ⟨b, there, -⟩, -⟩ := alters.each k member
    rw [blockCount']
    exact (List.getElem?_eq_some_iff.mp there).1
  have damaged := made.damaged clean alters free opened'
  have fetched : ∀ k ∈ K, FailsAt k (fetch P r'.src r'.offsets r'.footer k) := fun k member =>
    (damaged k (inside k member)).1 (decide_eq_true member)
  have planned : ∀ k ∈ K, FailsAt k (r'.fetchPlanned P k) := by
    intro k member
    obtain ⟨expected, found, failed⟩ := fetched k member
    refine ⟨expected, found, ?_⟩
    rw [Reader.fetchPlanned, failed]
    rfl
  refine
    { blockCount := blockCount'.trans blockCount.symm, early := planned, damaged := ?_, kept := ?_
      corruptedBlocks := ?_, verifyAll := ?_ }
  · intro k member
    obtain ⟨expected, found, failed⟩ := planned k member
    refine ⟨expected, found, fun codecs dicts => ?_⟩
    have same : r'.fetchPlanned { P with codecs } k = r'.fetchPlanned P k := rfl
    rw [Reader.readBlock, Reader.readCached, same, failed]
    rfl
  · intro i counted outside dicts
    exact made.readBlock_kept clean alters opened opened' (blockCount ▸ counted) outside dicts
  · rw [corruptedBlocks_eq damaged, filter_range_eq_sort inside]
  · intro k member least
    apply verifyLoop_fails damaged (decide_eq_true member) _ (Nat.zero_le k)
    · rw [Nat.zero_add]
      exact inside k member
    · exact (Nat.zero_add _).le
    · intro j before
      apply decide_eq_false
      intro also
      exact absurd (least j also) (by omega)

/-- A change of the payloads of any blocks is found in these blocks and leaves the others as they
were.  A change of the header, the footer or one field of the trailer keeps the file from
opening. -/
theorem corruption_contained (P : Platform) (metrics : FileMetrics → Bytes) (log2 : Nat)
    (w₀ : Writer) (first second : Option Fault) (made : Writer.new log2 first second = .ok w₀)
    (calls : List Call) (info : Metadata) (faults : FinishFaults) (file : Bytes)
    (summary : Summary)
    (finished : (w₀.steps P calls).2.finish P metrics info faults = .ok (file, summary))
    (decoded : P.decodeFooter (encodeFooter metrics ((w₀.steps P calls).2.footer P info)) =
      .ok ((w₀.steps P calls).2.footer P info)) :
    ((∀ call ∈ calls, call.unfailing) → ∃ r, Reader.fromBytes P file = .ok r) ∧
      ∀ r, Reader.fromBytes P file = .ok r → ∀ altered,
        CollisionFree P (hashedPieces (acceptedBy (w₀.steps P calls).1)
          (encodeFooter metrics ((w₀.steps P calls).2.footer P info))) altered →
        (∀ K, AltersBlocks (acceptedBy (w₀.steps P calls).1) K file altered →
          ∃ r', Reader.fromBytes P altered = .ok r' ∧ Contained P K r r') ∧
        ∀ region ∈ regions file.length
            (encodeFooter metrics ((w₀.steps P calls).2.footer P info)).length,
          AltersOnly region file altered → ∀ r', Reader.fromBytes P altered ≠ .ok r' := by
  obtain ⟨body, done, -, length, clean⟩ := finished_of_calls made calls
    (Writer.finish_unfailing P metrics finished) decoded
  constructor
  · intro unfailing
    exact ⟨_, done.fromBytes_eq (clean (Writer.litters_of_unfailing P unfailing w₀))⟩
  intro r opened altered free
  have same := done.body_of_opens opened
  have clean := clean (List.eq_nil_of_length_eq_zero (by omega))
  constructor
  · intro K alters
    obtain ⟨body', -, -, opening⟩ := done.fromBytes_altered clean alters
    exact ⟨_, opening, done.contained clean alters free opened opening⟩
  · intro region listed alters r'
    rw [done.file_eq] at listed alters
    exact (done.opens clean).not_opens_altered (free _ List.mem_cons_self) listed alters r'

def alteredFile : Bytes := layOut blockPlatform 12 [2] oneFooterBytes

theorem blockPlatform_collisionFree :
    CollisionFree blockPlatform (hashedPieces [⟨[1], 0, [1]⟩] oneFooterBytes) alteredFile := by
  intro piece member part _ same
  simp only [hashedPieces, List.map_cons, List.map_nil, List.mem_cons, List.not_mem_nil,
    or_false] at member
  simp only [shortHash, blockPlatform] at same
  by_cases empty : part.isEmpty
  · rw [if_pos empty] at same
    rcases member with rfl | rfl <;> exact absurd same (by decide +kernel)
  rw [if_neg empty] at same
  by_cases one : part = [1]
  · rw [if_pos one] at same
    rcases member with rfl | rfl
    · exact absurd same (by decide +kernel)
    · exact one
  rw [if_neg one] at same
  by_cases footer : part = oneFooterBytes
  · rw [if_pos footer] at same
    rcases member with rfl | rfl
    · exact footer
    · exact absurd same (by decide +kernel)
  · rw [if_neg footer] at same
    rcases member with rfl | rfl <;> exact absurd same (by decide +kernel)

theorem alteredFile_alters : AltersBlocks [⟨[1], 0, [1]⟩] {0} oneFile alteredFile := by
  have length : oneFile.length = 135 := by decide +kernel
  have length' : alteredFile.length = 135 := by decide +kernel
  have place : InBlock [⟨[1], 0, [1]⟩] 0 headerLen := ⟨_, rfl, by decide, by decide⟩
  have differs : ∀ pos < 135, alteredFile[pos]? ≠ oneFile[pos]? → pos = headerLen := by
    decide +kernel
  refine { length := by rw [length, length'], only := ?_, each := ?_ }
  · intro pos differ
    refine ⟨0, Finset.mem_singleton_self 0, ?_⟩
    by_cases inside : pos < 135
    · rw [differs pos inside differ]
      exact place
    · rw [List.getElem?_eq_none (by omega), List.getElem?_eq_none (by omega)] at differ
      exact absurd rfl differ
  · intro k member
    rw [Finset.mem_singleton.mp member]
    exact ⟨headerLen, place, by decide +kernel⟩

theorem corruption_contained_one :
    ∃ r', Reader.fromBytes blockPlatform alteredFile = .ok r' ∧
      Contained blockPlatform {0} oneReader r' :=
  ((corruption_contained blockPlatform noMetrics 12 emptyWriter none none (by decide) oneCalls
    oneInfo .none oneFile oneSummary (by decide +kernel) (by decide +kernel)).2 oneReader
      fromBytes_oneFile alteredFile blockPlatform_collisionFree).1 {0} alteredFile_alters

end Syntra.Blockfile

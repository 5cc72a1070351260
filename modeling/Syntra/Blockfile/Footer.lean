import Syntra.Blockfile
import Syntra.Lib.Protobuf

/-!
# The footer

How the footer is written, field by field, and the scan that bounds what the
decoder will allocate before it runs.
-/

set_option autoImplicit false

namespace Syntra.Blockfile

open Fallible Protobuf

/-! ## Writing -/

def stepFields (s : TransformStep) : List Field :=
  int 1 s.transform ++ uint 2 s.width ++ uint 3 s.inputLen

def dictionaryFields (d : DictionaryRef) : List Field :=
  string 1 d.id ++ bytes 2 d.digest ++ uint 3 d.size

def planFields (p : BlockPlanV4) : List Field :=
  p.transforms.map (fun s => message 1 (stepFields s)) ++ int 2 p.codec ++ int 3 p.codecLevel ++
    (p.dictionary.map fun d => message 4 (dictionaryFields d)).toList

/-- `metrics` is the encoding of the one message that has floating-point fields. -/
def footerFields (metrics : FileMetrics → Bytes) (f : FooterV4) : List Field :=
  uint 1 f.headerFlags ++ uint 2 f.blockSizeLog2 ++ uint 3 f.originalSize ++
    bytes 4 f.fileHash ++ f.plans.map (fun p => message 5 (planFields p)) ++
    uint 6 f.blockCount ++ bytes 7 f.storedLens ++ bytes 8 f.originalLens ++
    bytes 9 f.planIndices ++ bytes 10 f.payloadHashes ++ string 11 f.originalName ++
    f.originalNames.map (fun name => ({ number := 12, value := .bytes name.toUTF8.toList } : Field)) ++
    string 13 f.originalMime ++ string 14 f.contentClass ++ string 15 f.planReason ++
    boolean 16 f.verified ++ int 17 f.createdAt ++ int 18 f.updatedAt ++
    (f.fileMetrics.map fun m => { number := 19, value := .bytes (metrics m) : Field }).toList

/-- What prost writes: the fields in the order of their numbers, without those that have
their default. -/
def encodeFooter (metrics : FileMetrics → Bytes) (f : FooterV4) : Bytes :=
  Protobuf.encode (footerFields metrics f)

/-! ## Scanning -/

def wireVarint (buf : Bytes) :
    Except String { read : Nat × Bytes // read.2.length < buf.length } :=
  match read : Leb128.decode "varint truncado" "varint fora de faixa" 0 0 buf with
  | .ok got => .ok ⟨got, Leb128.decode_length read⟩
  | .error failure => .error failure

def skip (buf : Bytes) (n : Nat) : Except String { rest : Bytes // rest.length ≤ buf.length } :=
  if n ≤ buf.length then .ok ⟨buf.drop n, by rw [List.length_drop]; omega⟩
  else .error "campo truncado"

/-- One more field of that number, under the limits on the numbers. -/
def countField (field : Nat) : List (Nat × Nat) → List Nat → Except String (List Nat)
  | (number, max) :: limits, count :: counts => do
    let count := if number = field then count + 1 else count
    rejectIf (number = field ∧ max < count) s!"campo {field} repetido mais de {max} vezes"
    let counts ← countField field limits counts
    .ok (count :: counts)
  | _, _ => .ok []

/-- The loop of `scan_fields`. -/
def scanLoop (limits : List (Nat × Nat)) (onLen : Nat → Bytes → Except String Unit)
    (counts : List Nat) (buf : Bytes) : Except String Unit :=
  if buf.isEmpty then .ok ()
  else do
    let key ← wireVarint buf
    let field := key.val.1 >>> 3
    rejectIf (2 ^ 32 ≤ field) "número de campo fora de faixa"
    match key.val.1 &&& 7 with
    | 0 => do
      let value ← wireVarint key.val.2
      scanLoop limits onLen counts value.val.2
    | 1 => do
      let rest ← skip key.val.2 8
      scanLoop limits onLen counts rest.val
    | 5 => do
      let rest ← skip key.val.2 4
      scanLoop limits onLen counts rest.val
    | 2 => do
      let len ← wireVarint key.val.2
      let rest ← skip len.val.2 len.val.1
      let counts ← countField field limits counts
      onLen field (len.val.2.take len.val.1)
      scanLoop limits onLen counts rest.val
    | other => .error s!"tipo de fio {other} inválido"
termination_by buf.length
decreasing_by
  · exact value.property.trans key.property
  · exact rest.property.trans_lt key.property
  · exact rest.property.trans_lt key.property
  · exact rest.property.trans_lt (len.property.trans key.property)

def scanFields (buf : Bytes) (limits : List (Nat × Nat))
    (onLen : Nat → Bytes → Except String Unit) : Except String Unit :=
  scanLoop limits onLen (limits.map fun _ => 0) buf

def scanFooter (buf : Bytes) : Except String Unit :=
  scanFields buf [(5, maxPlans), (12, maxNames)] fun field slice =>
    if field = 5 then scanFields slice [(1, maxChain)] fun _ _ => .ok () else .ok ()

/-! ## What is written can be scanned -/

theorem wireVarint_reads {bytes : Bytes} {value : Nat} (reads : Reads bytes value) (rest : Bytes) :
    ∃ shorter, wireVarint (bytes ++ rest) = .ok ⟨(value, rest), shorter⟩ := by
  have decoded : Leb128.decode "varint truncado" "varint fora de faixa" 0 0 (bytes ++ rest) =
      .ok (value, rest) := by
    refine Leb128.decode_zero_eq_ok.mpr ⟨bytes, rfl, reads.complete, reads.short, ?_⟩
    rw [reads.exact, Nat.mod_eq_of_lt reads.word]
  unfold wireVarint
  split
  · rename_i got read
    rw [decoded] at read
    cases read
    exact ⟨Leb128.decode_length decoded, rfl⟩
  · rename_i failure read
    rw [decoded] at read
    cases read

theorem skip_append (front rest : Bytes) :
    ∃ shorter, skip (front ++ rest) front.length = .ok ⟨rest, shorter⟩ := by
  unfold skip
  rw [if_pos (by simp)]
  exact ⟨by simp, congrArg Except.ok (Subtype.ext List.drop_left)⟩

/-- The limits still allow the fields with payloads. -/
def Allowed (limits : List (Nat × Nat)) (counts : List Nat) (fields : List Field) : Prop :=
  List.Forall₂ (fun limit count =>
    count + occurrences limit.1 fields ≤ limit.2) limits counts

theorem Allowed.skip {limits : List (Nat × Nat)} {counts : List Nat} {field : Field}
    {fields : List Field} (allowed : Allowed limits counts (field :: fields)) :
    Allowed limits counts fields := by
  apply allowed.imp
  intro limit count within
  rw [occurrences, List.countP_cons] at within
  unfold occurrences
  omega

theorem Allowed.count {limits : List (Nat × Nat)} {counts : List Nat} {field : Field}
    {fields : List Field} {payload : Bytes} (carries : field.payload = some payload)
    (allowed : Allowed limits counts (field :: fields)) :
    ∃ next, countField field.number limits counts = .ok next ∧ Allowed limits next fields := by
  induction allowed with
  | nil => exact ⟨[], rfl, List.Forall₂.nil⟩
  | @cons limit count limits counts within _ ih =>
      obtain ⟨next, counted, rest⟩ := ih
      obtain ⟨number, max⟩ := limit
      rw [occurrences, List.countP_cons, carries] at within
      refine ⟨(if number = field.number then count + 1 else count) :: next, ?_, ?_⟩
      · rw [countField, rejectIf_of_not, ok_bind, counted, ok_bind]
        rintro ⟨same, exceeded⟩
        simp [same] at within exceeded
        omega
      · refine List.Forall₂.cons ?_ rest
        dsimp only
        unfold occurrences
        by_cases same : number = field.number
        · simp [same] at within ⊢
          omega
        · simp [same, Ne.symm same] at within ⊢
          omega

theorem key_parts (number wireType : Nat) (small : wireType < 8) :
    (number * 8 + wireType) >>> 3 = number ∧ (number * 8 + wireType) &&& 7 = wireType := by
  rw [Nat.shiftRight_eq_div_pow, show (7 : Nat) = 2 ^ 3 - 1 from rfl, Nat.and_two_pow_sub_one_eq_mod]
  omega

inductive Accepts (limits : List (Nat × Nat)) (onLen : Nat → Bytes → Except String Unit)
    (counts : List Nat) (number : Nat) (rest : Bytes) : (kind : Nat) → Prop
  | varint (value : { read : Nat × Bytes // read.2.length < rest.length })
      (read : wireVarint rest = .ok value)
      (later : scanLoop limits onLen counts value.val.2 = .ok ()) :
      Accepts limits onLen counts number rest 0
  | fixed64 (left : { left : Bytes // left.length ≤ rest.length }) (skipped : skip rest 8 = .ok left)
      (later : scanLoop limits onLen counts left.val = .ok ()) :
      Accepts limits onLen counts number rest 1
  | delimited (len : { read : Nat × Bytes // read.2.length < rest.length })
      (left : { left : Bytes // left.length ≤ len.val.2.length }) (next : List Nat)
      (read : wireVarint rest = .ok len) (skipped : skip len.val.2 len.val.1 = .ok left)
      (counted : countField number limits counts = .ok next)
      (visited : onLen number (len.val.2.take len.val.1) = .ok ())
      (later : scanLoop limits onLen next left.val = .ok ()) :
      Accepts limits onLen counts number rest 2
  | fixed32 (left : { left : Bytes // left.length ≤ rest.length }) (skipped : skip rest 4 = .ok left)
      (later : scanLoop limits onLen counts left.val = .ok ()) :
      Accepts limits onLen counts number rest 5

theorem scanLoop_key {limits : List (Nat × Nat)} {onLen : Nat → Bytes → Except String Unit}
    {counts : List Nat} {key rest : Bytes} {number kind : Nat}
    (keyed : Reads key (number * 8 + kind)) (small : kind < 8) :
    scanLoop limits onLen counts (key ++ rest) = .ok () ↔
      number < 2 ^ 32 ∧ Accepts limits onLen counts number rest kind := by
  obtain ⟨_, keyRead⟩ := wireVarint_reads keyed rest
  obtain ⟨own, low⟩ := key_parts number kind small
  have nonempty : ¬ (key ++ rest).isEmpty = true := by
    rw [List.isEmpty_iff, List.append_eq_nil_iff]
    exact fun empty => keyed.complete.ne_nil empty.1
  rw [scanLoop, if_neg nonempty, keyRead, ok_bind]
  dsimp only
  rw [own, low, rejectIf_bind_eq_ok, Nat.not_le]
  apply and_congr_right
  intro _
  constructor
  · intro scanned
    rcases kind with _ | _ | _ | _ | _ | _ | kind
    · obtain ⟨value, read, later⟩ := bind_eq_ok.mp scanned
      exact Accepts.varint value read later
    · obtain ⟨left, skipped, later⟩ := bind_eq_ok.mp scanned
      exact Accepts.fixed64 left skipped later
    · obtain ⟨len, read, later⟩ := bind_eq_ok.mp scanned
      obtain ⟨left, skipped, later⟩ := bind_eq_ok.mp later
      obtain ⟨next, counted, later⟩ := bind_eq_ok.mp later
      obtain ⟨_, visited, later⟩ := bind_eq_ok.mp later
      exact Accepts.delimited len left next read skipped counted visited later
    · cases scanned
    · cases scanned
    · obtain ⟨left, skipped, later⟩ := bind_eq_ok.mp scanned
      exact Accepts.fixed32 left skipped later
    · cases scanned
  · intro accepts
    cases accepts with
    | varint value read later => exact bind_eq_ok.mpr ⟨value, read, later⟩
    | fixed64 left skipped later => exact bind_eq_ok.mpr ⟨left, skipped, later⟩
    | delimited len left next read skipped counted visited later =>
        exact bind_eq_ok.mpr ⟨len, read, bind_eq_ok.mpr ⟨left, skipped,
          bind_eq_ok.mpr ⟨next, counted, bind_eq_ok.mpr ⟨(), visited, later⟩⟩⟩⟩
    | fixed32 left skipped later => exact bind_eq_ok.mpr ⟨left, skipped, later⟩

theorem scanLoop_encode {limits : List (Nat × Nat)} {onLen : Nat → Bytes → Except String Unit}
    {counts : List Nat} {fields : List Field} (numbered : Numbered (· < 2 ^ 29) fields)
    (sized : (Protobuf.encode fields).length < 2 ^ 64) (allowed : Allowed limits counts fields)
    (accepts : ∀ field ∈ fields, ∀ payload, field.payload = some payload →
      onLen field.number payload = .ok ()) :
    scanLoop limits onLen counts (Protobuf.encode fields) = .ok () := by
  induction fields generalizing counts with
  | nil =>
      rw [scanLoop]
      rfl
  | cons field fields ih =>
      have number := numbered field List.mem_cons_self
      rw [encode_cons] at sized ⊢
      have later : ∀ counts, Allowed limits counts fields →
          scanLoop limits onLen counts (Protobuf.encode fields) = .ok () := by
        intro counts allowed
        apply ih _ _ allowed
        · exact fun other member => accepts other (List.mem_cons_of_mem _ member)
        · exact fun other member => numbered other (List.mem_cons_of_mem _ member)
        · rw [List.length_append] at sized
          omega
      obtain ⟨n, value⟩ := field
      dsimp only at number
      rw [Field.encode, List.append_assoc]
      cases value with
      | varint value =>
          obtain ⟨_, read⟩ := wireVarint_reads (reads_encode (Nat.mod_lt value (by decide)))
            (Protobuf.encode fields)
          have keyed : Reads (Leb128.encode (n * 8 + 0)) (n * 8 + 0) := reads_encode (by omega)
          exact (scanLoop_key keyed (by decide)).mpr
            ⟨by omega, Accepts.varint _ read (later counts allowed.skip)⟩
      | bytes payload =>
          have fits : payload.length < 2 ^ 64 := by
            simp only [Field.encode, List.length_append] at sized
            omega
          obtain ⟨_, read⟩ := wireVarint_reads (reads_encode fits) (payload ++ Protobuf.encode fields)
          obtain ⟨_, skipped⟩ := skip_append payload (Protobuf.encode fields)
          obtain ⟨next, counted, rest⟩ := allowed.count rfl
          have visited : onLen n ((payload ++ Protobuf.encode fields).take payload.length) =
              .ok () := by
            rw [List.take_left' rfl]
            exact accepts _ List.mem_cons_self payload rfl
          have keyed : Reads (Leb128.encode (n * 8 + 2)) (n * 8 + 2) := reads_encode (by omega)
          rw [List.append_assoc]
          exact (scanLoop_key keyed (by decide)).mpr
            ⟨by omega, Accepts.delimited _ _ next read skipped counted visited (later next rest)⟩

/-! ## The footer that is written -/

theorem scanFields_encode {limits : List (Nat × Nat)} {onLen : Nat → Bytes → Except String Unit}
    {fields : List Field} (numbered : Numbered (· < 2 ^ 29) fields)
    (sized : (Protobuf.encode fields).length < 2 ^ 64)
    (few : ∀ limit ∈ limits, occurrences limit.1 fields ≤ limit.2)
    (accepts : ∀ field ∈ fields, ∀ payload, field.payload = some payload →
      onLen field.number payload = .ok ()) :
    scanFields (Protobuf.encode fields) limits onLen = .ok () := by
  apply scanLoop_encode numbered sized _ accepts
  clear numbered sized accepts
  induction limits with
  | nil => exact List.Forall₂.nil
  | cons limit limits ih =>
      refine List.Forall₂.cons ?_ (ih fun other member => few other (List.mem_cons_of_mem _ member))
      rw [Nat.zero_add]
      exact few limit List.mem_cons_self

theorem planFields_eq (p : BlockPlanV4) :
    ∃ others, planFields p = p.transforms.map (fun s => message 1 (stepFields s)) ++ others ∧
      Numbered (fun number => number < 2 ^ 29 ∧ number ≠ 1) others := by
  refine ⟨int 2 p.codec ++ int 3 p.codecLevel ++
    (p.dictionary.map fun d => message 4 (dictionaryFields d)).toList, ?_, ?_⟩
  · simp only [planFields, List.append_assoc]
  · simp only [numbered_append]
    exact ⟨⟨numbered_int (by decide) _, numbered_int (by decide) _⟩,
      numbered_option fun _ => (by decide : 4 < 2 ^ 29 ∧ 4 ≠ 1)⟩

theorem scan_planFields {p : BlockPlanV4} (few : p.transforms.length ≤ maxChain)
    (sized : (Protobuf.encode (planFields p)).length < 2 ^ 64) :
    scanFields (Protobuf.encode (planFields p)) [(1, maxChain)] (fun _ _ => .ok ()) = .ok () := by
  obtain ⟨others, fields, numbered⟩ := planFields_eq p
  apply scanFields_encode _ sized
  · intro limit member
    rw [List.mem_singleton.mp member, fields, occurrences_append,
      occurrences_eq_zero fun field member => (numbered field member).2]
    exact (occurrences_le _ _).trans (by rwa [List.length_map])
  · exact fun _ _ _ _ => rfl
  · rw [fields, numbered_append]
    exact ⟨numbered_map fun _ => (by decide : 1 < 2 ^ 29),
      fun field member => (numbered field member).1⟩

def Unlimited (number : Nat) : Prop := number < 2 ^ 29 ∧ number ≠ 5 ∧ number ≠ 12

instance (number : Nat) : Decidable (Unlimited number) :=
  inferInstanceAs (Decidable (_ ∧ _ ∧ _))

/-- The plans and the names, and fields without limits around them. -/
theorem footerFields_eq (metrics : FileMetrics → Bytes) (f : FooterV4) :
    ∃ before middle after, footerFields metrics f =
      before ++ (f.plans.map (fun p => message 5 (planFields p)) ++ (middle ++
        (f.originalNames.map (fun name =>
          ({ number := 12, value := .bytes name.toUTF8.toList } : Field)) ++ after))) ∧
      Numbered Unlimited before ∧ Numbered Unlimited middle ∧ Numbered Unlimited after := by
  refine ⟨uint 1 f.headerFlags ++ uint 2 f.blockSizeLog2 ++ uint 3 f.originalSize ++
      bytes 4 f.fileHash,
    uint 6 f.blockCount ++ bytes 7 f.storedLens ++ bytes 8 f.originalLens ++
      bytes 9 f.planIndices ++ bytes 10 f.payloadHashes ++ string 11 f.originalName,
    string 13 f.originalMime ++ string 14 f.contentClass ++ string 15 f.planReason ++
      boolean 16 f.verified ++ int 17 f.createdAt ++ int 18 f.updatedAt ++
      (f.fileMetrics.map fun m => { number := 19, value := .bytes (metrics m) : Field }).toList,
    ?_, ?_, ?_, ?_⟩
  · simp only [footerFields, List.append_assoc]
  · simp only [numbered_append]
    exact ⟨⟨⟨numbered_uint (by decide) _, numbered_uint (by decide) _⟩,
      numbered_uint (by decide) _⟩, numbered_bytes (by decide) _⟩
  · simp only [numbered_append]
    exact ⟨⟨⟨⟨⟨numbered_uint (by decide) _, numbered_bytes (by decide) _⟩,
      numbered_bytes (by decide) _⟩, numbered_bytes (by decide) _⟩,
      numbered_bytes (by decide) _⟩, numbered_string (by decide) _⟩
  · simp only [numbered_append]
    exact ⟨⟨⟨⟨⟨⟨numbered_string (by decide) _, numbered_string (by decide) _⟩,
      numbered_string (by decide) _⟩, numbered_boolean (by decide) _⟩,
      numbered_int (by decide) _⟩, numbered_int (by decide) _⟩,
      numbered_option fun _ => (by decide : Unlimited 19)⟩

theorem scanFooter_encodeFooter {metrics : FileMetrics → Bytes} {f : FooterV4}
    (plans : f.plans.length ≤ maxPlans) (names : f.originalNames.length ≤ maxNames)
    (chains : ∀ p ∈ f.plans, p.transforms.length ≤ maxChain)
    (sized : (encodeFooter metrics f).length < 2 ^ 64) :
    scanFooter (encodeFooter metrics f) = .ok () := by
  obtain ⟨before, middle, after, fields, beforeFree, middleFree, afterFree⟩ :=
    footerFields_eq metrics f
  have none_of : ∀ {number : Nat} {part : List Field}, (number = 5 ∨ number = 12) →
      Numbered Unlimited part → occurrences number part = 0 := by
    intro number part limited free
    apply occurrences_eq_zero
    intro field member
    obtain ⟨-, first, second⟩ := free field member
    rcases limited with rfl | rfl <;> assumption
  have fromPlans : occurrences 12 (f.plans.map fun p => message 5 (planFields p)) = 0 :=
    occurrences_eq_zero (numbered_map fun _ => (by decide : 5 ≠ 12))
  have fromNames : occurrences 5 (f.originalNames.map fun name =>
      ({ number := 12, value := .bytes name.toUTF8.toList } : Field)) = 0 :=
    occurrences_eq_zero (numbered_map fun _ => (by decide : 12 ≠ 5))
  apply scanFields_encode _ sized
  · intro limit member
    rcases List.mem_cons.mp member with rfl | other
    · simp only [fields, occurrences_append, none_of (Or.inl rfl) beforeFree,
        none_of (Or.inl rfl) middleFree, none_of (Or.inl rfl) afterFree, fromNames, Nat.zero_add,
        Nat.add_zero]
      exact (occurrences_le _ _).trans (by rwa [List.length_map])
    · rw [List.mem_singleton.mp other]
      simp only [fields, occurrences_append, none_of (Or.inr rfl) beforeFree,
        none_of (Or.inr rfl) middleFree, none_of (Or.inr rfl) afterFree, fromPlans, Nat.zero_add,
        Nat.add_zero]
      exact (occurrences_le _ _).trans (by rwa [List.length_map])
  · intro field member payload carries
    by_cases isPlan : field.number = 5
    · rw [if_pos isPlan]
      have short := (length_payload_le member carries).trans_lt sized
      rw [fields] at member
      have skips : ∀ {part : List Field}, Numbered Unlimited part → field ∉ part :=
        fun free inside => (free field inside).2.1 isPlan
      simp only [List.mem_append, skips beforeFree, skips middleFree, skips afterFree, false_or,
        or_false] at member
      rcases member with plan | name
      · obtain ⟨p, listed, rfl⟩ := List.mem_map.mp plan
        cases carries
        exact scan_planFields (chains p listed) short
      · obtain ⟨name, -, rfl⟩ := List.mem_map.mp name
        exact absurd isPlan (show 12 ≠ 5 by decide)
    · rw [if_neg isPlan]
  · rw [fields]
    simp only [numbered_append]
    have free : ∀ {part : List Field}, Numbered Unlimited part → Numbered (· < 2 ^ 29) part :=
      fun free field member => (free field member).1
    exact ⟨free beforeFree, numbered_map fun _ => (by decide : 5 < 2 ^ 29), free middleFree,
      numbered_map fun _ => (by decide : 12 < 2 ^ 29), free afterFree⟩

end Syntra.Blockfile

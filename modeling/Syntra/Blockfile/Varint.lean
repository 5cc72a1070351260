import Syntra.Blockfile.Scan

/-!
# The two readers of varints

`get_varint` and `wire_varint` read the same number or both fail, and the number is
the one that the bytes say, unless the tenth byte ends it with more than one bit.
-/

set_option autoImplicit false

namespace Syntra

open Fallible Machine
open Blockfile.Scan (wireVarint)
open Indexed (ReadsTo)

def Fails {ε α : Type} (run : Run ε α) : Prop := ∃ failure, run = .error (.fail failure)

/-- What is promised of both readers at a position. -/
structure VarintExact (data : Bytes) (p : Nat) : Prop where
  agree : ∀ v q, Indexed.getVarint data p = .ok (v, q) ↔ wireVarint data p = .ok (v, q)
  exact : ∀ v q, Indexed.getVarint data p = .ok (v, q) →
    p ≤ q ∧ q ≤ data.length ∧ v = Leb128.value ((data.drop p).take (q - p))
  large : ∀ front rest, data.drop p = front ++ rest → Leb128.Complete front →
    2 ^ 64 ≤ Leb128.value front → Fails (Indexed.getVarint data p) ∧ Fails (wireVarint data p)
  truncated : (∀ byte ∈ data.drop p, byte &&& 0x80 ≠ 0) →
    Fails (Indexed.getVarint data p) ∧ Fails (wireVarint data p)

theorem eq_ok_of_follows {ε : Type} {run : Run ε (Nat × Nat)} {truncated range : ε} {data : Bytes}
    {p : Nat} (inside : p ≤ data.length)
    (follows : Follows (ReadsTo data p) run (Leb128.decode truncated range 0 0 (data.drop p)))
    (v q : Nat) :
    run = .ok (v, q) ↔ ∃ front, data.drop p = front ++ data.drop q ∧ Leb128.Complete front ∧
      front.length ≤ 10 ∧ q = p + front.length ∧ v = Leb128.value front % 2 ^ 64 := by
  have length : ∀ {front rest : Bytes}, data.drop p = front ++ rest →
      front.length + rest.length = data.length - p := by
    intro front rest whole
    have lengths := congrArg List.length whole
    rw [List.length_drop, List.length_append] at lengths
    omega
  constructor
  · intro success
    obtain ⟨⟨value, rest⟩, decoded, reads⟩ := follows.of_ok success
    obtain ⟨front, whole, complete, short, got⟩ := Leb128.decode_zero_eq_ok.mp decoded
    have value_ := reads.value
    have rest_ := reads.rest
    have within := reads.inside
    have moved := reads.moved
    dsimp only at value_ rest_ within moved
    have counted := length whole
    rw [rest_, List.length_drop] at counted
    rw [rest_] at whole
    exact ⟨front, whole, complete, short, by omega, value_.trans got⟩
  · rintro ⟨front, whole, complete, short, rfl, rfl⟩
    have decoded : Leb128.decode truncated range 0 0 (data.drop p) =
        .ok (Leb128.value front % 2 ^ 64, data.drop (p + front.length)) :=
      Leb128.decode_zero_eq_ok.mpr ⟨front, whole, complete, short, rfl⟩
    rw [decoded] at follows
    cases follows with
    | @ok got _ reads =>
        obtain ⟨value, stop⟩ := got
        have value_ := reads.value
        have rest_ := congrArg List.length reads.rest
        have within := reads.inside
        have counted := length whole
        dsimp only at value_ rest_ within
        rw [List.length_drop, List.length_drop] at rest_
        rw [List.length_drop] at counted
        have stops : stop = p + front.length := by omega
        rw [value_, stops]

variable {data : Bytes} {p : Nat}

theorem getVarint_eq_ok (small : data.length < 2 ^ 64) (inside : p ≤ data.length) (v q : Nat) :
    Indexed.getVarint data p = .ok (v, q) ↔ ∃ front, data.drop p = front ++ data.drop q ∧
      Leb128.Complete front ∧ front.length ≤ 10 ∧ q = p + front.length ∧
      v = Leb128.value front % 2 ^ 64 :=
  eq_ok_of_follows inside (Indexed.getVarint_follows small inside) v q

theorem wireVarint_eq_ok (small : data.length < 2 ^ 64) (inside : p ≤ data.length) (v q : Nat) :
    wireVarint data p = .ok (v, q) ↔ ∃ front, data.drop p = front ++ data.drop q ∧
      Leb128.Complete front ∧ front.length ≤ 10 ∧ q = p + front.length ∧
      v = Leb128.value front % 2 ^ 64 :=
  eq_ok_of_follows inside (Blockfile.Scan.wireVarint_follows small inside) v q

theorem fails_of_follows {ε α β : Type} {agree : α → β → Prop} {run : Run ε α} {model : Except ε β}
    (follows : Follows agree run model) (never : ∀ value, run ≠ .ok value) : Fails run := by
  cases follows with
  | ok same => exact absurd rfl (never _)
  | fail failure => exact ⟨failure, rfl⟩

/-- Both readers fail where none of the first ten bytes ends a number that fits. -/
theorem fail_both (small : data.length < 2 ^ 64) (inside : p ≤ data.length)
    (none_ : ∀ front rest, data.drop p = front ++ rest → Leb128.Complete front →
      ¬ front.length ≤ 10) :
    Fails (Indexed.getVarint data p) ∧ Fails (wireVarint data p) := by
  constructor
  · apply fails_of_follows (Indexed.getVarint_follows small inside)
    rintro ⟨v, q⟩ success
    obtain ⟨front, whole, complete, short, -⟩ := (getVarint_eq_ok small inside v q).mp success
    exact none_ front _ whole complete short
  · apply fails_of_follows (Blockfile.Scan.wireVarint_follows small inside)
    rintro ⟨v, q⟩ success
    obtain ⟨front, whole, complete, short, -⟩ := (wireVarint_eq_ok small inside v q).mp success
    exact none_ front _ whole complete short

theorem fail_past (past : data.length ≤ p) :
    Indexed.getVarint data p = fails (invalid "varint truncado") ∧
      wireVarint data p = fails "varint truncado" := by
  constructor
  · rw [Indexed.getVarint, Indexed.varintLoop, if_pos past]
  · rw [wireVarint, Blockfile.Scan.wireLoop, if_pos past]

theorem not_complete_of_continued {bytes front rest : Bytes}
    (continued : ∀ byte ∈ bytes, byte &&& 0x80 ≠ 0) (whole : bytes = front ++ rest) :
    ¬ Leb128.Complete front := by
  intro complete
  obtain ⟨init, last, rfl, -, final⟩ := complete.eq_append
  exact continued last (by simp [whole]) final

theorem varintExact_of_fits (small : data.length < 2 ^ 64)
    (fits : ¬ Leb128.Spills (data.drop p)) : VarintExact data p := by
  by_cases inside : p ≤ data.length
  · have exact_ : ∀ front rest, data.drop p = front ++ rest → Leb128.Complete front →
        front.length ≤ 10 → Leb128.value front < 2 ^ 64 := by
      intro front rest whole complete short
      by_contra large
      exact fits (Leb128.spills_iff.mpr ⟨front, rest, whole, complete, short, Nat.le_of_not_lt large⟩)
    refine { agree := ?_, exact := ?_, large := ?_, truncated := ?_ }
    · intro v q
      rw [getVarint_eq_ok small inside, wireVarint_eq_ok small inside]
    · intro v q success
      obtain ⟨front, whole, complete, short, rfl, rfl⟩ := (getVarint_eq_ok small inside v q).mp success
      have lengths := congrArg List.length whole
      have nonempty := List.length_pos_iff.mpr complete.ne_nil
      rw [List.length_append, List.length_drop, List.length_drop] at lengths
      refine ⟨Nat.le_add_right _ _, by omega, ?_⟩
      rw [Nat.add_sub_cancel_left, whole, List.take_left' rfl,
        Nat.mod_eq_of_lt (exact_ front _ whole complete short)]
    · intro front rest whole complete large
      apply fail_both small inside
      intro front' rest' whole' complete' short
      obtain ⟨rfl, -⟩ := complete.unique complete' (whole.symm.trans whole')
      exact absurd (exact_ front rest whole complete short) (Nat.not_lt_of_le large)
    · intro continued
      apply fail_both small inside
      exact fun front rest whole complete => absurd complete (not_complete_of_continued continued whole)
  · have past : data.length ≤ p := Nat.le_of_not_le inside
    obtain ⟨get, wire⟩ := fail_past past
    refine { agree := ?_, exact := ?_, large := ?_, truncated := ?_ }
    · intro v q
      rw [get, wire]
      exact iff_of_false (fun impossible => by cases impossible) (fun impossible => by cases impossible)
    · intro v q impossible
      rw [get] at impossible
      cases impossible
    · exact fun _ _ _ _ _ => ⟨⟨_, get⟩, ⟨_, wire⟩⟩
    · exact fun _ => ⟨⟨_, get⟩, ⟨_, wire⟩⟩

theorem not_varintExact_of_spills (small : data.length < 2 ^ 64)
    (spills : Leb128.Spills (data.drop p)) : ¬ VarintExact data p := by
  intro promised
  obtain ⟨front, rest, whole, complete, short, large⟩ := Leb128.spills_iff.mp spills
  have inside : p ≤ data.length := by
    by_contra past
    rw [List.drop_eq_nil_iff.mpr (by omega)] at whole
    exact complete.ne_nil (List.append_eq_nil_iff.mp whole.symm).1
  have rest_ : rest = data.drop (p + front.length) := by
    rw [← List.drop_drop, whole, List.drop_left' rfl]
  rw [rest_] at whole
  have read := (getVarint_eq_ok small inside _ _).mpr ⟨front, whole, complete, short, rfl, rfl⟩
  obtain ⟨⟨failure, failed⟩, -⟩ := promised.large front _ whole complete large
  rw [read] at failed
  cases failed

theorem read_putVarint {v : Nat} (word : v < 2 ^ 64) (before after : Bytes)
    (small : (before ++ (putVarint v ++ after)).length < 2 ^ 64) :
    Indexed.getVarint (before ++ (putVarint v ++ after)) before.length =
        .ok (v, before.length + (putVarint v).length) ∧
      wireVarint (before ++ (putVarint v ++ after)) before.length =
        .ok (v, before.length + (putVarint v).length) := by
  have inside : before.length ≤ (before ++ (putVarint v ++ after)).length := by
    rw [List.length_append]
    exact Nat.le_add_right _ _
  have reads : ∃ front, (before ++ (putVarint v ++ after)).drop before.length = front ++
      (before ++ (putVarint v ++ after)).drop (before.length + (putVarint v).length) ∧
      Leb128.Complete front ∧ front.length ≤ 10 ∧
      before.length + (putVarint v).length = before.length + front.length ∧
      v = Leb128.value front % 2 ^ 64 := by
    refine ⟨putVarint v, ?_, Leb128.complete_encode v, ?_, rfl, ?_⟩
    · rw [← List.drop_drop, List.drop_left' rfl, List.drop_left' rfl]
    · exact Leb128.length_encode_le 10 v (by decide) (by omega)
    · rw [putVarint, Leb128.value_encode, Nat.mod_eq_of_lt word]
  exact ⟨(getVarint_eq_ok small inside _ _).mpr reads, (wireVarint_eq_ok small inside _ _).mpr reads⟩

/-- What is put is read, and the readers keep their promise on all bytes but those whose
tenth byte spills. -/
theorem varints_exact (data : Bytes) (p : Nat) (small : data.length < 2 ^ 64) :
    (∀ v < 2 ^ 64, ∀ before after : Bytes, (before ++ (putVarint v ++ after)).length < 2 ^ 64 →
      Indexed.getVarint (before ++ (putVarint v ++ after)) before.length =
          .ok (v, before.length + (putVarint v).length) ∧
        wireVarint (before ++ (putVarint v ++ after)) before.length =
          .ok (v, before.length + (putVarint v).length)) ∧
      (VarintExact data p ↔ ¬ Leb128.Spills (data.drop p)) := by
  refine ⟨fun v word before after small => read_putVarint word before after small, ?_⟩
  exact ⟨fun promised spills => not_varintExact_of_spills small spills promised,
    varintExact_of_fits small⟩

/-- The digits of 300. -/
theorem varints_exact_two_bytes : VarintExact [0xAC, 0x02] 0 := by
  apply (varints_exact [0xAC, 0x02] 0 (by decide)).2.mpr
  rintro ⟨-, last, there, -⟩
  cases there

def spilled : Bytes := [0x80, 0x80, 0x80, 0x80, 0x80, 0x80, 0x80, 0x80, 0x80, 0x02]

theorem spilled_reads_zero :
    Indexed.getVarint spilled 0 = .ok (0, 10) ∧ wireVarint spilled 0 = .ok (0, 10) ∧
      Leb128.value spilled = 2 ^ 64 ∧ ¬ VarintExact spilled 0 := by
  have read : Indexed.getVarint spilled 0 = .ok (0, 10) := by decide +kernel
  have exact_ : Leb128.value spilled = 2 ^ 64 := by decide +kernel
  refine ⟨read, by decide +kernel, exact_, ?_⟩
  intro promised
  obtain ⟨-, -, equal⟩ := promised.exact 0 10 read
  exact absurd equal (by decide +kernel)

end Syntra

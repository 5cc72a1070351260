import Syntra.Blockfile.Footer
import Syntra.Transform.Indexed

/-!
# The scan of a footer, index by index

`wire_varint`, `scan_fields` and `scan_footer` with their positions, counters and
slices, in which an overflow or a bad index is a panic.  They follow the scan over
what is left of the buffer, so none of them panics.
-/

set_option autoImplicit false

namespace Syntra.Blockfile.Scan

open Fallible Machine Syntra.Indexed

/-- The loop of `wire_varint`, with the value read and the position after it. -/
def wireLoop (buf : Bytes) (pos shift value : Nat) : Run String (Nat × Nat) :=
  if buf.length ≤ pos then fails "varint truncado"
  else do
    let byte ← index buf pos
    let next ← increment 64 pos
    lift (rejectIf (63 < shift) "varint fora de faixa")
    let digit ← shiftLeft 64 (byte &&& 0x7f).toNat shift
    let value := value ||| digit
    if byte &&& 0x80 = 0 then .ok (value, next.val)
    else do
      let shift ← add 32 shift 7
      wireLoop buf next.val shift value
termination_by buf.length - pos
decreasing_by
  have := next.property
  omega

def wireVarint (buf : Bytes) (pos : Nat) : Run String (Nat × Nat) := wireLoop buf pos 0 0

theorem wireLoop_moves {buf : Bytes} {pos shift value : Nat} {got : Nat × Nat}
    (read : wireLoop buf pos shift value = .ok got) : pos < got.2 := by
  induction pos, shift, value using wireLoop.induct buf generalizing got with
  | case1 pos shift value ended =>
      rw [wireLoop, if_pos ended] at read
      cases read
  | case2 pos shift value more ih =>
      rw [wireLoop, if_neg more] at read
      obtain ⟨byte, -, read⟩ := bind_eq_ok.mp read
      obtain ⟨next, -, read⟩ := bind_eq_ok.mp read
      obtain ⟨_, -, read⟩ := bind_eq_ok.mp read
      obtain ⟨digit, -, read⟩ := bind_eq_ok.mp read
      have moved := next.property
      dsimp only at read
      split at read
      · cases read
        dsimp only
        omega
      · obtain ⟨shift', -, read⟩ := bind_eq_ok.mp read
        have later := ih next digit shift' read
        omega

def nextVarint (buf : Bytes) (pos : Nat) : Run String { read : Nat × Nat // pos < read.2 } :=
  match read : wireVarint buf pos with
  | .ok got => .ok ⟨got, wireLoop_moves read⟩
  | .error stop => .error stop

def skip (buf : Bytes) (pos n : Nat) : Run String { stop : Nat // pos ≤ stop } :=
  if pos + n < 2 ^ 64 ∧ pos + n ≤ buf.length then .ok ⟨pos + n, Nat.le_add_right pos n⟩
  else fails "campo truncado"

def countTurn (field : Nat) (limits : List (Nat × Nat)) (i : Nat) (counts : List Nat) :
    Run String (List Nat) := do
  let limit ← index limits i
  if limit.1 = field then do
    let count ← index counts i
    let count ← add 64 count 1
    let counts ← store counts i count
    lift (rejectIf (limit.2 < count) s!"campo {field} repetido mais de {limit.2} vezes")
    .ok counts
  else .ok counts

def countField (field : Nat) (limits : List (Nat × Nat)) (counts : List Nat) : Run String (List Nat) :=
  loop (countTurn field limits) 0 limits.length counts

/-- One turn of the loop of `scan_fields`, with what it leaves in `counts` and `pos`. -/
def scanTurn (limits : List (Nat × Nat)) (onLen : Nat → Bytes → Run String Unit) (buf : Bytes)
    (counts : List Nat) (pos : Nat) : Run String { next : List Nat × Nat // pos < next.2 } := do
  let key ← nextVarint buf pos
  let field := key.val.1 >>> 3
  lift (rejectIf (2 ^ 32 ≤ field) "número de campo fora de faixa")
  match key.val.1 &&& 7 with
  | 0 => do
    let value ← nextVarint buf key.val.2
    .ok ⟨(counts, value.val.2), key.property.trans value.property⟩
  | 1 => do
    let stop ← skip buf key.val.2 8
    .ok ⟨(counts, stop.val), key.property.trans_le stop.property⟩
  | 5 => do
    let stop ← skip buf key.val.2 4
    .ok ⟨(counts, stop.val), key.property.trans_le stop.property⟩
  | 2 => do
    let len ← nextVarint buf key.val.2
    let stop ← skip buf len.val.2 len.val.1
    let counts ← countField field limits counts
    let payload ← slice buf len.val.2 stop.val
    onLen field payload
    .ok ⟨(counts, stop.val), (key.property.trans len.property).trans_le stop.property⟩
  | other => fails s!"tipo de fio {other} inválido"

/-- The loop of `scan_fields`. -/
def scanLoop (limits : List (Nat × Nat)) (onLen : Nat → Bytes → Run String Unit) (buf : Bytes)
    (counts : List Nat) (pos : Nat) : Run String Unit :=
  if buf.length ≤ pos then .ok ()
  else do
    let next ← scanTurn limits onLen buf counts pos
    scanLoop limits onLen buf next.val.1 next.val.2
termination_by buf.length - pos
decreasing_by
  have := next.property
  omega

def scanFields (buf : Bytes) (limits : List (Nat × Nat)) (onLen : Nat → Bytes → Run String Unit) :
    Run String Unit :=
  scanLoop limits onLen buf (limits.map fun _ => 0) 0

def scanFooter (buf : Bytes) : Run String Unit :=
  scanFields buf [(5, maxPlans), (12, maxNames)] fun field slice =>
    if field = 5 then scanFields slice [(1, maxChain)] fun _ _ => .ok () else .ok ()

/-! ## The scan over what is left -/

theorem wireLoop_follows {buf : Bytes} (small : buf.length < 2 ^ 64) {rest : Bytes} {pos : Nat}
    (shift value : Nat) (inside : pos ≤ buf.length) (here : buf.drop pos = rest)
    (word : value < 2 ^ 64) :
    Follows (ReadsTo buf pos) (wireLoop buf pos shift value)
      (Leb128.decode "varint truncado" "varint fora de faixa" shift value rest) := by
  induction rest generalizing pos shift value with
  | nil =>
      have ended : buf.length ≤ pos := List.drop_eq_nil_iff.mp here
      rw [wireLoop, if_pos ended, Leb128.decode]
      exact Follows.fail _
  | cons byte rest ih =>
      have more : ¬ buf.length ≤ pos := by
        intro ended
        rw [List.drop_eq_nil_iff.mpr ended] at here
        cases here
      have read : buf[pos]? = some byte := by
        rw [← List.head?_drop, here]
        rfl
      have next : buf.drop (pos + 1) = rest := by
        rw [← List.tail_drop, here]
        rfl
      rw [wireLoop, if_neg more, Leb128.decode, index_eq read, ok_bind, increment_eq (by omega),
        ok_bind]
      by_cases far : 63 < shift
      · rw [if_pos far, rejectIf, if_pos far]
        exact Follows.fail _
      · rw [if_neg far, rejectIf_of_not far, lift_ok, ok_bind, shiftLeft_eq (by omega), ok_bind]
        have grown : value ||| (((byte &&& 0x7f).toNat <<< shift) % 2 ^ 64) < 2 ^ 64 :=
          Nat.or_lt_two_pow word (Nat.mod_lt _ (by decide))
        dsimp only
        split
        · exact Follows.ok ⟨rfl, grown, Nat.lt_succ_self pos, Nat.lt_of_not_le more, next.symm⟩
        · rw [add_eq (by omega), ok_bind]
          apply (ih (shift + 7) _ (Nat.lt_of_not_le more) next grown).imp
          intro got model later
          exact { later with moved := (Nat.lt_succ_self pos).trans later.moved }

theorem wireVarint_follows {buf : Bytes} (small : buf.length < 2 ^ 64) {pos : Nat}
    (inside : pos ≤ buf.length) :
    Follows (ReadsTo buf pos) (wireVarint buf pos)
      (Leb128.decode "varint truncado" "varint fora de faixa" 0 0 (buf.drop pos)) :=
  wireLoop_follows small 0 0 inside rfl (by decide)

theorem nextVarint_follows {buf : Bytes} (small : buf.length < 2 ^ 64) {pos : Nat}
    (inside : pos ≤ buf.length) :
    Follows (fun got read => ReadsTo buf pos got.val read.val) (nextVarint buf pos)
      (Blockfile.wireVarint (buf.drop pos)) := by
  have follows := wireVarint_follows small inside
  unfold nextVarint Blockfile.wireVarint
  split
  · rename_i got read
    rw [read] at follows
    split
    · rename_i model decoded
      rw [decoded] at follows
      cases follows with
      | ok same => exact Follows.ok same
    · rename_i failure decoded
      rw [decoded] at follows
      cases follows
  · rename_i stop read
    rw [read] at follows
    split
    · rename_i model decoded
      rw [decoded] at follows
      cases follows
    · rename_i failure decoded
      rw [decoded] at follows
      cases follows with
      | fail => exact Follows.fail _

theorem skip_follows {buf : Bytes} (small : buf.length < 2 ^ 64) {pos n : Nat}
    (inside : pos ≤ buf.length) :
    Follows (fun stop rest => stop.val = pos + n ∧ stop.val ≤ buf.length ∧
      rest.val = buf.drop stop.val) (skip buf pos n) (Blockfile.skip (buf.drop pos) n) := by
  unfold skip Blockfile.skip
  by_cases room : n ≤ (buf.drop pos).length
  · have stop : pos + n ≤ buf.length := by
      rw [List.length_drop] at room
      omega
    rw [if_pos room, if_pos ⟨by omega, stop⟩]
    exact Follows.ok ⟨rfl, stop, List.drop_drop⟩
  · rw [if_neg room, if_neg]
    · exact Follows.fail _
    · rintro ⟨-, stop⟩
      rw [List.length_drop] at room
      omega

def Within (limits : List (Nat × Nat)) (counts : List Nat) : Prop :=
  List.Forall₂ (fun limit count => count ≤ limit.2) limits counts

/-- The limits can be counted past. -/
def Countable (limits : List (Nat × Nat)) : Prop := ∀ limit ∈ limits, limit.2 + 1 < 2 ^ 64

instance (limits : List (Nat × Nat)) : Decidable (Countable limits) :=
  inferInstanceAs (Decidable (∀ limit ∈ limits, limit.2 + 1 < 2 ^ 64))

/-- The loop from any place on, by induction on the limits that are left. -/
theorem countLoop_follows {field : Nat} {limits : List (Nat × Nat)} {counts : List Nat}
    (within : Within limits counts) (countable : Countable limits) (before : List (Nat × Nat))
    (passed : List Nat) (same : passed.length = before.length) :
    Follows (fun got value => got = passed ++ value ∧ Within limits value)
      (loop (countTurn field (before ++ limits)) before.length limits.length (passed ++ counts))
      (Blockfile.countField field limits counts) := by
  induction within generalizing before passed with
  | nil => exact Follows.ok ⟨rfl, List.Forall₂.nil⟩
  | @cons limit count limits counts few _ ih =>
      obtain ⟨number, max⟩ := limit
      obtain ⟨word, words⟩ := List.forall_mem_cons.mp countable
      dsimp only at few word
      have here : (before ++ (number, max) :: limits)[before.length]? = some (number, max) := by
        rw [List.getElem?_append_right (Nat.le_refl _), Nat.sub_self]
        rfl
      have rest : ∀ count, count ≤ max →
          Follows (fun got value => got = passed ++ value ∧ Within ((number, max) :: limits) value)
            (loop (countTurn field (before ++ (number, max) :: limits)) (before.length + 1)
              limits.length (passed ++ count :: counts))
            (Blockfile.countField field limits counts >>= fun counts => .ok (count :: counts)) := by
        intro count within
        have later := ih words (before ++ [(number, max)]) (passed ++ [count]) (by simp [same])
        simp only [List.append_assoc, List.singleton_append, List.length_append,
          List.length_singleton] at later
        rw [show (loop (countTurn field (before ++ (number, max) :: limits)) (before.length + 1)
          limits.length (passed ++ count :: counts) : Run String _) = _ >>= fun got => .ok got
          from (bind_pure _).symm]
        apply later.bind
        rintro got value ⟨rfl, kept⟩
        exact Follows.ok ⟨rfl, List.Forall₂.cons within kept⟩
      rw [List.length_cons, loop, Blockfile.countField, countTurn, index_eq here, ok_bind]
      dsimp only
      by_cases counted : number = field
      · have there : (passed ++ count :: counts)[before.length]? = some count := by
          rw [← same, List.getElem?_append_right (Nat.le_refl _), Nat.sub_self]
          rfl
        have stored : (passed ++ count :: counts).set before.length (count + 1) =
            passed ++ (count + 1) :: counts := by
          rw [← same, List.set_append_right _ _ (Nat.le_refl _), Nat.sub_self]
          rfl
        rw [if_pos counted, if_pos counted, index_eq there, ok_bind, add_eq (by omega), ok_bind,
          store_eq _ (by simp [← same]), ok_bind, stored]
        by_cases exceeded : max < count + 1
        · rw [rejectIf, rejectIf, if_pos exceeded, if_pos ⟨counted, exceeded⟩]
          exact Follows.fail _
        · rw [rejectIf_of_not exceeded, rejectIf_of_not (fun both => exceeded both.2), lift_ok,
            ok_bind, ok_bind, ok_bind]
          exact rest (count + 1) (Nat.le_of_not_lt exceeded)
      · rw [if_neg counted, if_neg counted, rejectIf_of_not (fun both => counted both.1), ok_bind,
          ok_bind]
        exact rest count few

theorem countField_follows {field : Nat} {limits : List (Nat × Nat)} {counts : List Nat}
    (within : Within limits counts) (countable : Countable limits) :
    Follows (fun got value => got = value ∧ Within limits value)
      (countField field limits counts) (Blockfile.countField field limits counts) :=
  countLoop_follows within countable [] [] rfl

theorem slice_drop {buf : Bytes} {pos len : Nat} (inside : pos + len ≤ buf.length) :
    (slice buf pos (pos + len) : Run String Bytes) = .ok ((buf.drop pos).take len) := by
  rw [slice_eq (Nat.le_add_right _ _) inside, Nat.add_sub_cancel_left]

/-- The loop from any position on, by induction on how much of the buffer is left. -/
theorem scanLoop_follows {limits : List (Nat × Nat)} {onLen : Nat → Bytes → Run String Unit}
    {onLen' : Nat → Bytes → Except String Unit} {buf : Bytes} (small : buf.length < 2 ^ 64)
    (countable : Countable limits)
    (visits : ∀ field payload, payload.length ≤ buf.length →
      Follows (fun got value => got = value) (onLen field payload) (onLen' field payload))
    {counts : List Nat} (within : Within limits counts) {pos : Nat} (inside : pos ≤ buf.length) :
    Follows (fun got value => got = value) (scanLoop limits onLen buf counts pos)
      (Blockfile.scanLoop limits onLen' counts (buf.drop pos)) := by
  induction left : buf.length - pos using Nat.strongRecOn generalizing counts pos with
  | ind left ih =>
      subst left
      rw [scanLoop, Blockfile.scanLoop]
      by_cases ended : buf.length ≤ pos
      · rw [if_pos ended, if_pos (List.isEmpty_iff.mpr (List.drop_eq_nil_iff.mpr ended))]
        exact Follows.ok rfl
      · have more : ¬ (buf.drop pos).isEmpty = true := by
          rw [List.isEmpty_iff, List.drop_eq_nil_iff]
          exact ended
        -- every kind of field goes on at a later position
        have later : ∀ {counts next}, Within limits counts → pos < next → next ≤ buf.length →
            Follows (fun got value => got = value) (scanLoop limits onLen buf counts next)
              (Blockfile.scanLoop limits onLen' counts (buf.drop next)) := by
          intro counts next within moved inside
          exact ih (buf.length - next) (by omega) within inside rfl
        rw [if_neg ended, if_neg more, scanTurn, bind_assoc]
        apply (nextVarint_follows small inside).bind
        rintro ⟨⟨key, pos'⟩, moved⟩ ⟨⟨key', rest⟩, shorter⟩ ⟨rfl, word, -, inside', rfl⟩
        dsimp only at moved inside' word ⊢
        rw [bind_assoc]
        apply (Follows.lift _).bind
        rintro - - -
        generalize key &&& 7 = kind
        rcases kind with _ | _ | _ | _ | _ | _ | kind
        · change Follows _ ((_ >>= _) >>= _) (_ >>= _)
          rw [bind_assoc]
          apply (nextVarint_follows small inside').bind
          rintro ⟨⟨value, stop⟩, further⟩ ⟨⟨value', rest⟩, shorter⟩ ⟨rfl, -, -, there, rfl⟩
          exact later within (moved.trans further) there
        · change Follows _ ((_ >>= _) >>= _) (_ >>= _)
          rw [bind_assoc]
          apply (skip_follows small inside').bind
          rintro ⟨stop, further⟩ ⟨rest, shorter⟩ ⟨-, there, rfl⟩
          exact later within (moved.trans_le further) there
        · change Follows _ ((_ >>= _) >>= _) (_ >>= _)
          rw [bind_assoc]
          apply (nextVarint_follows small inside').bind
          rintro ⟨⟨len, start⟩, further⟩ ⟨⟨len', rest⟩, shorter⟩ ⟨rfl, -, -, there, rfl⟩
          dsimp only at further there ⊢
          rw [bind_assoc]
          apply (skip_follows small there).bind
          rintro ⟨stop, onwards⟩ ⟨rest, shorter⟩ ⟨rfl, ends, rfl⟩
          dsimp only at ends ⊢
          rw [bind_assoc]
          apply (countField_follows within countable).bind
          rintro counts counts' ⟨rfl, kept⟩
          rw [slice_drop ends, ok_bind, bind_assoc]
          apply (visits _ _ _).bind
          · rintro - - -
            exact later kept ((moved.trans further).trans_le onwards) ends
          · rw [List.length_take, List.length_drop]
            omega
        · exact Follows.fail _
        · exact Follows.fail _
        · change Follows _ ((_ >>= _) >>= _) (_ >>= _)
          rw [bind_assoc]
          apply (skip_follows small inside').bind
          rintro ⟨stop, further⟩ ⟨rest, shorter⟩ ⟨-, there, rfl⟩
          exact later within (moved.trans_le further) there
        · exact Follows.fail _

theorem within_zero (limits : List (Nat × Nat)) : Within limits (limits.map fun _ => 0) := by
  induction limits with
  | nil => exact List.Forall₂.nil
  | cons limit limits ih => exact List.Forall₂.cons (Nat.zero_le _) ih

theorem scanFields_follows {limits : List (Nat × Nat)} {onLen : Nat → Bytes → Run String Unit}
    {onLen' : Nat → Bytes → Except String Unit} {buf : Bytes} (small : buf.length < 2 ^ 64)
    (countable : Countable limits)
    (visits : ∀ field payload, payload.length ≤ buf.length →
      Follows (fun got value => got = value) (onLen field payload) (onLen' field payload)) :
    Follows (fun got value => got = value) (scanFields buf limits onLen)
      (Blockfile.scanFields buf limits onLen') :=
  scanLoop_follows small countable visits (within_zero limits) (Nat.zero_le _)

theorem scanFooter_follows {buf : Bytes} (small : buf.length < 2 ^ 64) :
    Follows (fun got value => got = value) (scanFooter buf) (Blockfile.scanFooter buf) := by
  apply scanFields_follows small (by decide)
  intro field payload shorter
  split
  · apply scanFields_follows (shorter.trans_lt small) (by decide)
    intro _ _ _
    exact Follows.ok rfl
  · exact Follows.ok rfl

end Syntra.Blockfile.Scan

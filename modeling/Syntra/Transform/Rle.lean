import Mathlib.Algebra.Order.Ring.Nat
import Mathlib.Data.List.Basic
import Syntra.IoError

/-!
# Run-length coding

A control byte below 128 announces that many literal bytes plus one, a control
byte above 128 repeats the next byte; 128 itself is reserved.  Lengths of
buffers stay far below `usize::MAX`, so the saturating additions of the source
are additions here.
-/

set_option autoImplicit false

namespace Syntra

/-- How many of the first `budget` bytes repeat `b`. -/
def runLength (b : UInt8) : Nat → Bytes → Nat
  | 0, _ => 0
  | _ + 1, [] => 0
  | budget + 1, x :: rest => if x = b then runLength b budget rest + 1 else 0

/-- How many of the first `budget` bytes a literal block takes before two equal
bytes start a run. -/
def literalLength : Nat → Bytes → Nat
  | 0, _ => 0
  | _ + 1, [] => 0
  | _ + 1, [_] => 1
  | budget + 1, x :: y :: rest => if x = y then 0 else literalLength budget (y :: rest) + 1

def rleApply : Bytes → Bytes
  | [] => []
  | b :: rest =>
    let run := runLength b 127 rest + 1
    if 2 ≤ run then
      UInt8.ofNat (257 - run) :: b :: rleApply (rest.drop (run - 1))
    else
      let lit := literalLength 127 rest + 1
      UInt8.ofNat (lit - 1) :: (b :: rest).take lit ++ rleApply (rest.drop (lit - 1))
termination_by data => data.length
decreasing_by
  all_goals simp only [List.length_drop, List.length_cons]; omega

def rleInvertFrom (limit : Nat) (out : Bytes) : Bytes → Except IoError Bytes
  | [] => .ok out
  | ctrl :: rest =>
    if ctrl.toNat < 128 then
      let n := ctrl.toNat + 1
      if rest.length < n then .error (invalid "RLE truncado em bloco literal")
      else do
        checkLen (out.length + n) limit
        rleInvertFrom limit (out ++ rest.take n) (rest.drop n)
    else if 128 < ctrl.toNat then
      let n := 257 - ctrl.toNat
      match rest with
      | [] => .error (invalid "RLE truncado em bloco de repetição")
      | b :: rest => do
        checkLen (out.length + n) limit
        rleInvertFrom limit (out ++ List.replicate n b) rest
    else .error (invalid "byte de controle RLE reservado (128)")
termination_by data => data.length
decreasing_by
  all_goals simp only [List.length_drop, List.length_cons]; omega

def rleInvertLimited (data : Bytes) (limit : Nat) : Except IoError Bytes :=
  rleInvertFrom limit [] data

/-! ## What the two scans find -/

theorem runLength_le_budget (b : UInt8) (budget : Nat) (data : Bytes) :
    runLength b budget data ≤ budget := by
  induction budget generalizing data with
  | zero => simp [runLength]
  | succ budget ih =>
      cases data with
      | nil => simp [runLength]
      | cons x rest =>
          have bound := ih rest
          rw [runLength]
          split <;> omega

theorem take_runLength (b : UInt8) (budget : Nat) (data : Bytes) :
    data.take (runLength b budget data) = List.replicate (runLength b budget data) b := by
  induction budget generalizing data with
  | zero => simp [runLength]
  | succ budget ih =>
      cases data with
      | nil => simp [runLength]
      | cons x rest =>
          rw [runLength]
          split
          · rename_i same
            rw [List.take_succ_cons, List.replicate_succ, same, ih rest]
          · rfl

theorem literalLength_le_budget (budget : Nat) (data : Bytes) :
    literalLength budget data ≤ budget := by
  induction budget generalizing data with
  | zero => simp [literalLength]
  | succ budget ih =>
      match data with
      | [] => simp [literalLength]
      | [_] => simp [literalLength]
      | x :: y :: rest =>
          have bound := ih (y :: rest)
          rw [literalLength]
          split <;> omega

theorem literalLength_le_length (budget : Nat) (data : Bytes) :
    literalLength budget data ≤ data.length := by
  induction budget generalizing data with
  | zero => simp [literalLength]
  | succ budget ih =>
      match data with
      | [] => simp [literalLength]
      | [_] => simp [literalLength]
      | x :: y :: rest =>
          have bound := ih (y :: rest)
          rw [literalLength, List.length_cons]
          split <;> omega

/-! ## The two kinds of block -/

theorem rleApply_run (b : UInt8) (rest : Bytes) (repeated : 1 ≤ runLength b 127 rest) :
    rleApply (b :: rest) = UInt8.ofNat (256 - runLength b 127 rest) :: b ::
      rleApply (rest.drop (runLength b 127 rest)) := by
  have control : 257 - (runLength b 127 rest + 1) = 256 - runLength b 127 rest := by omega
  rw [rleApply, if_pos (by omega)]
  simp only [Nat.add_sub_cancel, control]

theorem rleApply_literal (b : UInt8) (rest : Bytes) (single : runLength b 127 rest = 0) :
    rleApply (b :: rest) = UInt8.ofNat (literalLength 127 rest) ::
      (b :: rest).take (literalLength 127 rest + 1) ++
      rleApply (rest.drop (literalLength 127 rest)) := by
  rw [rleApply, if_neg (by omega)]
  simp only [Nat.add_sub_cancel]

theorem rleInvertFrom_run (limit : Nat) (out rest : Bytes) (b : UInt8) (repeats : Nat)
    (positive : 1 ≤ repeats) (short : repeats ≤ 127) :
    rleInvertFrom limit out (UInt8.ofNat (256 - repeats) :: b :: rest) =
      checkLen (out.length + (repeats + 1)) limit >>= fun _ =>
        rleInvertFrom limit (out ++ List.replicate (repeats + 1) b) rest := by
  have control : (UInt8.ofNat (256 - repeats)).toNat = 256 - repeats := by
    rw [UInt8.toNat_ofNat']
    omega
  have count : 257 - (256 - repeats) = repeats + 1 := by omega
  rw [rleInvertFrom, control, if_neg (by omega), if_pos (by omega)]
  simp only [count]

theorem rleInvertFrom_literal (limit : Nat) (out literal rest : Bytes) (more : Nat)
    (size : literal.length = more + 1) (short : more ≤ 127) :
    rleInvertFrom limit out (UInt8.ofNat more :: literal ++ rest) =
      checkLen (out.length + (more + 1)) limit >>= fun _ =>
        rleInvertFrom limit (out ++ literal) rest := by
  have control : (UInt8.ofNat more).toNat = more := by
    rw [UInt8.toNat_ofNat']
    omega
  rw [List.cons_append, rleInvertFrom, control, if_pos (by omega), if_neg (by simp; omega)]
  simp only [List.take_left' size, List.drop_left' size]

/-! ## Inversion

The inverse stops at the first block that would pass the limit, so its verdict
depends on the total length only. -/

theorem rleInvertFrom_block (limit : Nat) (out block tail rest : Bytes)
    (inverse : (out ++ block).length ≤ limit →
      rleInvertFrom limit (out ++ block) tail =
        if (out ++ block).length + rest.length ≤ limit then .ok ((out ++ block) ++ rest)
        else .error (tooLarge limit)) :
    (checkLen (out.length + block.length) limit >>= fun _ =>
      rleInvertFrom limit (out ++ block) tail) =
      if out.length + (block ++ rest).length ≤ limit then .ok (out ++ (block ++ rest))
      else .error (tooLarge limit) := by
  have total : out.length + (block ++ rest).length = (out ++ block).length + rest.length := by
    simp only [List.length_append]
    omega
  rw [total, ← List.append_assoc]
  by_cases fits : out.length + block.length ≤ limit
  · rw [checkLen_of_le fits]
    exact inverse (by rw [List.length_append]; exact fits)
  · rw [checkLen_of_lt (by omega), if_neg (by rw [List.length_append]; omega)]
    rfl

/-- By induction on the length of the data, one block at a time. -/
theorem rleInvertFrom_rleApply (limit : Nat) (out data : Bytes) (within : out.length ≤ limit) :
    rleInvertFrom limit out (rleApply data) =
      if out.length + data.length ≤ limit then .ok (out ++ data)
      else .error (tooLarge limit) := by
  match data with
  | [] =>
      rw [rleApply, rleInvertFrom, List.length_nil, Nat.add_zero, if_pos within, List.append_nil]
  | b :: rest =>
      by_cases single : runLength b 127 rest = 0
      · have short := literalLength_le_budget 127 rest
        have inside := literalLength_le_length 127 rest
        have size : ((b :: rest).take (literalLength 127 rest + 1)).length =
            literalLength 127 rest + 1 := by
          rw [List.length_take, List.length_cons]
          omega
        have parts : (b :: rest).take (literalLength 127 rest + 1) ++
            rest.drop (literalLength 127 rest) = b :: rest := by
          rw [List.take_succ_cons, List.cons_append, List.take_append_drop]
        rw [rleApply_literal b rest single, rleInvertFrom_literal limit out _ _ _ size short]
        have step := rleInvertFrom_block limit out
          ((b :: rest).take (literalLength 127 rest + 1))
          (rleApply (rest.drop (literalLength 127 rest))) (rest.drop (literalLength 127 rest))
          (rleInvertFrom_rleApply limit _ _)
        rwa [size, parts] at step
      · have short := runLength_le_budget b 127 rest
        have parts : List.replicate (runLength b 127 rest + 1) b ++
            rest.drop (runLength b 127 rest) = b :: rest := by
          rw [List.replicate_succ, List.cons_append, ← take_runLength, List.take_append_drop]
        rw [rleApply_run b rest (by omega), rleInvertFrom_run limit out _ b _ (by omega) short]
        have step := rleInvertFrom_block limit out
          (List.replicate (runLength b 127 rest + 1) b)
          (rleApply (rest.drop (runLength b 127 rest))) (rest.drop (runLength b 127 rest))
          (rleInvertFrom_rleApply limit _ _)
        rwa [List.length_replicate, parts] at step
termination_by data.length
decreasing_by
  all_goals simp only [List.length_drop, List.length_cons]; omega

theorem rleInvertLimited_rleApply (data : Bytes) (limit : Nat) :
    rleInvertLimited (rleApply data) limit =
      if data.length ≤ limit then .ok data else .error (tooLarge limit) := by
  have inverse := rleInvertFrom_rleApply limit [] data (Nat.zero_le _)
  rw [rleInvertLimited]
  simpa only [List.length_nil, Nat.zero_add, List.nil_append] using inverse

/-- A lone byte before each pair of equal bytes: every three bytes become four. -/
def loneAndPair : Nat → Bytes
  | 0 => []
  | k + 1 => 0 :: 1 :: 1 :: loneAndPair k

theorem length_loneAndPair (k : Nat) : (loneAndPair k).length = 3 * k := by
  induction k with
  | zero => rfl
  | succ k ih =>
      simp only [loneAndPair, List.length_cons, ih]
      omega

theorem rleApply_loneAndPair (k : Nat) :
    rleApply (loneAndPair (k + 1)) = 0 :: 0 :: 255 :: 1 :: rleApply (loneAndPair k) := by
  have run : runLength 1 127 (1 :: loneAndPair k) = 1 := by
    cases k <;> rfl
  have lone : runLength 0 127 (1 :: 1 :: loneAndPair k) = 0 := rfl
  have single : literalLength 127 (1 :: 1 :: loneAndPair k) = 0 := rfl
  rw [loneAndPair, rleApply_literal 0 _ lone, single, List.drop_zero,
    rleApply_run 1 _ (by omega), run]
  rfl

theorem length_rleApply_loneAndPair (k : Nat) : (rleApply (loneAndPair k)).length = 4 * k := by
  induction k with
  | zero => simp [loneAndPair, rleApply]
  | succ k ih =>
      rw [rleApply_loneAndPair]
      simp only [List.length_cons, ih]
      omega

end Syntra

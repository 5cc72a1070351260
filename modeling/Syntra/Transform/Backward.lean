import Syntra.Transform.Chain
import Syntra.Transform.Indexed

/-!
# Inverting a chain, index by index

The inverses of the transforms with their positions, indices and word
arithmetic.  An overflow or a bad index is a panic; only Rle makes its data
longer, so only it can run out of memory.
-/

set_option autoImplicit false

namespace Syntra.Indexed

open Fallible Machine

/-! ## Delta -/

/-- One word of `delta_invert`: the word before it, and the output. -/
def deltaWord (data : Bytes) (width i : Nat) (s : Nat × Bytes) : Run IoError (Nat × Bytes) := do
  let lo ← mul 64 i width
  let next ← add 64 i 1
  let hi ← mul 64 next width
  let chunk ← slice data lo hi
  assert (chunk.length ≤ 8)
  let bytes := toLeBytes (wrappingAdd s.1 (loadLe chunk))
  let word ← slice bytes 0 width
  .ok (loadLe word, s.2 ++ word)

def deltaInvert (data : Bytes) (width : Nat) : Run IoError Bytes := do
  assert (width ≠ 0)
  let n := data.length / width
  let (_, out) ← loop (deltaWord data width) 0 n (0, [])
  let tail ← mul 64 n width
  let rest ← slice data tail data.length
  .ok (out ++ rest)

theorem word_inside {len width i : Nat} (inside : i < len / width) :
    i * width + width ≤ len := by
  have below : (i + 1) * width ≤ len / width * width := Nat.mul_le_mul_right _ inside
  have whole := Nat.div_mul_le_self len width
  rw [Nat.succ_mul] at below
  omega

theorem deltaInvert_eq {data : Bytes} {width : Nat} (listed : width ∈ widths)
    (small : data.length < 2 ^ 63) :
    deltaInvert data width = .ok (Syntra.deltaInvert data width) := by
  have narrow := width_le_eight listed
  have positive : width ≠ 0 := by
    rintro rfl
    exact absurd listed (by decide)
  have whole := Nat.div_mul_le_self data.length width
  have turn : ∀ i s, i < data.length / width →
      s.2 ++ deltaInvertWords width (data.length / width - i) s.1 (data.drop (i * width)) =
        Syntra.deltaInvert data width →
      ∃ s', deltaWord data width i s = .ok s' ∧
        s'.2 ++ deltaInvertWords width (data.length / width - (i + 1)) s'.1
          (data.drop ((i + 1) * width)) = Syntra.deltaInvert data width := by
    intro i s inside so_far
    have room := word_inside inside
    have less : i ≤ i * width := Nat.le_mul_of_pos_right i (Nat.pos_of_ne_zero positive)
    have sized : (data.drop (i * width)).length = data.length - i * width := List.length_drop
    have more : data.length / width - i = data.length / width - (i + 1) + 1 := by omega
    rw [more, deltaInvertWords, List.drop_drop, ← List.append_assoc, ← Nat.succ_mul] at so_far
    refine ⟨(_, _), ?_, so_far⟩
    rw [deltaWord, mul_eq (by omega), ok_bind, add_eq (by omega), ok_bind,
      mul_eq (by rw [Nat.succ_mul]; omega), ok_bind,
      slice_eq (Nat.mul_le_mul_right _ (Nat.le_succ i)) (by rw [Nat.succ_mul]; omega), ok_bind,
      Nat.succ_mul, Nat.add_sub_cancel_left, assert_eq (by rw [List.length_take]; omega), ok_bind]
    dsimp only
    rw [slice_eq (Nat.zero_le _) (by rw [toLeBytes, LittleEndian.length_toBytes]; exact narrow),
      ok_bind, List.drop_zero, Nat.sub_zero]
    rfl
  have start : ([] : Bytes) ++ deltaInvertWords width (data.length / width - 0) 0
      (data.drop (0 * width)) = Syntra.deltaInvert data width := by
    rw [Nat.zero_mul]
    rfl
  obtain ⟨⟨acc, out⟩, run, ends⟩ := loop_zero_ok (s := ((0 : Nat), ([] : Bytes)))
    (fun i s => s.2 ++ deltaInvertWords width (data.length / width - i) s.1
      (data.drop (i * width)) = Syntra.deltaInvert data width) turn start
  rw [Nat.sub_self] at ends
  rw [deltaInvert, assert_eq positive, ok_bind]
  dsimp only
  rw [run, ok_bind]
  dsimp only
  rw [mul_eq (by omega), ok_bind, slice_eq whole (Nat.le_refl _), ok_bind, List.take_of_length_le,
    ← ends]
  · rfl
  · rw [List.length_drop]

/-! ## ByteSplit -/

def splitByte (data : Bytes) (width plane base i : Nat) (out : Bytes) : Run IoError Bytes := do
  let source ← add 64 base i
  let byte ← index data source
  let row ← mul 64 i width
  let target ← add 64 row plane
  store out target byte

def splitPlane (data : Bytes) (width n plane : Nat) (out : Bytes) : Run IoError Bytes := do
  let base ← mul 64 plane n
  loop (splitByte data width plane base) 0 n out

def byteSplitInvert (data : Bytes) (width : Nat) : Run IoError Bytes := do
  assert (width ≠ 0)
  let n := data.length / width
  let out ← loop (splitPlane data width n) 0 width (List.replicate data.length 0)
  let tail ← mul 64 n width
  let words ← slice out 0 tail
  let rest ← slice data tail data.length
  .ok (words ++ rest)

/-- The first `k` bytes of the planes are in their words. -/
structure Interleaved (data : Bytes) (width n k : Nat) (out : Bytes) : Prop where
  length : out.length = data.length
  bytes : ∀ i < n, ∀ plane < width, plane * n + i < k →
    out[i * width + plane]? = some (data.getD (plane * n + i) 0)

theorem splitByte_interleaved {data : Bytes} {width n : Nat} (small : data.length < 2 ^ 63)
    (whole : n * width ≤ data.length) {plane i : Nat} (inPlanes : plane < width) (inWords : i < n)
    {out : Bytes} (so_far : Interleaved data width n (plane * n + i) out) :
    ∃ next, splitByte data width plane (plane * n) i out = .ok next ∧
      Interleaved data width n (plane * n + (i + 1)) next := by
  have source : plane * n + i < data.length := by
    have inside := Grid.cell_inside inPlanes inWords
    rw [Nat.mul_comm width] at inside
    omega
  have target : i * width + plane < data.length :=
    (Grid.cell_inside inWords inPlanes).trans_le whole
  have there : data[plane * n + i]? = some (data.getD (plane * n + i) 0) := by
    rw [List.getD_eq_getElem?_getD, List.getElem?_eq_getElem source]
    rfl
  refine ⟨out.set (i * width + plane) (data.getD (plane * n + i) 0), ?_, ?_, ?_⟩
  · rw [splitByte, add_eq (by omega), ok_bind, index_eq there, ok_bind, mul_eq (by omega), ok_bind,
      add_eq (by omega), ok_bind, store_eq _ (by rw [so_far.length]; exact target)]
  · rw [List.length_set, so_far.length]
  · intro i' inWords' plane' inPlanes' before
    by_cases same : i * width + plane = i' * width + plane'
    · obtain ⟨rfl, rfl⟩ := pair_index_eq inPlanes inPlanes' same
      rw [List.getElem?_set_self (by rw [so_far.length]; exact target)]
    · rw [List.getElem?_set_ne same]
      apply so_far.bytes i' inWords' plane' inPlanes'
      have other : plane' * n + i' ≠ plane * n + i := by
        intro equal
        obtain ⟨rfl, rfl⟩ := pair_index_eq inWords' inWords equal
        exact same rfl
      omega

theorem byteSplitInvert_eq {data : Bytes} {width : Nat} (listed : width ∈ widths)
    (small : data.length < 2 ^ 63) :
    byteSplitInvert data width = .ok (Syntra.byteSplitInvert data width) := by
  have positive : width ≠ 0 := by
    rintro rfl
    exact absurd listed (by decide)
  have whole := Nat.div_mul_le_self data.length width
  rw [byteSplitInvert, Syntra.byteSplitInvert, assert_eq positive, ok_bind]
  dsimp only
  generalize data.length / width = n at whole ⊢
  have turn : ∀ plane out, plane < width → Interleaved data width n (plane * n) out →
      ∃ next, splitPlane data width n plane out = .ok next ∧
        Interleaved data width n ((plane + 1) * n) next := by
    intro plane out inPlanes so_far
    have base : plane * n ≤ width * n := Nat.mul_le_mul_right _ inPlanes.le
    have product : width * n = n * width := Nat.mul_comm _ _
    rw [splitPlane, mul_eq (by omega), ok_bind, Nat.succ_mul]
    exact loop_zero_ok (fun i out => Interleaved data width n (plane * n + i) out)
      (fun i out inWords held => splitByte_interleaved small whole inPlanes inWords held) so_far
  have start : Interleaved data width n (0 * n) (List.replicate data.length 0) :=
    { length := List.length_replicate
      bytes := fun i _ plane _ before => absurd before (by omega) }
  obtain ⟨out, run, placed⟩ := loop_zero_ok
    (fun plane out => Interleaved data width n (plane * n) out) turn start
  have length := placed.length
  have words : out.take (n * width) =
      Grid.table n width fun i plane => data.getD (plane * n + i) 0 := by
    have sized : (out.take (n * width)).length = n * width := by
      rw [List.length_take]
      omega
    rw [← Grid.table_getD n width (out.take (n * width)) 0 sized]
    apply Grid.table_congr
    intro i inWords plane inPlanes
    have source : plane * n + i < width * n := Grid.cell_inside inPlanes inWords
    rw [List.getD_eq_getElem?_getD, List.getElem?_take_of_lt (Grid.cell_inside inWords inPlanes),
      placed.bytes i inWords plane inPlanes source]
    rfl
  rw [run, ok_bind, mul_eq (by omega), ok_bind, slice_eq (Nat.zero_le _) (by omega), ok_bind,
    slice_eq whole (Nat.le_refl _), ok_bind, List.drop_zero, Nat.sub_zero, words,
    List.take_of_length_le]
  rw [List.length_drop]

/-! ## Rle -/

/-- `rle_invert_limited` from position `i` on. -/
def rleLoop (data : Bytes) (limit i : Nat) (out : Bytes) : Run (Failure IoError) Bytes :=
  if data.length ≤ i then .ok out
  else do
    let ctrl ← index data i
    let next ← increment 64 i
    if ctrl.toNat < 128 then do
      let n ← add 64 ctrl.toNat 1
      let stop ← add 64 next.val n
      if data.length < stop then fails (.error (invalid "RLE truncado em bloco literal"))
      else do
        within (lift (checkLen (saturatingAdd out.length n) limit))
        let literal ← slice data next.val stop
        let out ← extend out literal
        let after ← advance 64 next.val n
        rleLoop data limit after.val out
    else if 128 < ctrl.toNat then do
      let n ← sub 257 ctrl.toNat
      if data.length ≤ next.val then
        fails (.error (invalid "RLE truncado em bloco de repetição"))
      else do
        let b ← index data next.val
        let after ← increment 64 next.val
        within (lift (checkLen (saturatingAdd out.length n) limit))
        let len ← add 64 out.length n
        let out ← extend out (List.replicate (len - out.length) b)
        rleLoop data limit after.val out
    else fails (.error (invalid "byte de controle RLE reservado (128)"))
termination_by data.length - i
decreasing_by
  all_goals
    have := next.property
    have := after.property
    omega

def rleInvertLimited (data : Bytes) (limit : Nat) : Run (Failure IoError) Bytes :=
  rleLoop data limit 0 []

/-- The value of the model, no longer than a vector can be. -/
def SameVector (got value : Bytes) : Prop := got = value ∧ got.length < 2 ^ 63

theorem drop_eq_cons {data rest : Bytes} {i : Nat} {byte : UInt8}
    (here : data.drop i = byte :: rest) :
    data[i]? = some byte ∧ data.drop (i + 1) = rest ∧ data.length = i + 1 + rest.length := by
  refine ⟨?_, ?_, ?_⟩
  · rw [← List.head?_drop, here]
    rfl
  · rw [← List.tail_drop, here]
    rfl
  · have length := congrArg List.length here
    rw [List.length_drop, List.length_cons] at length
    omega

theorem check_tracks {ε : Type} (run : Except ε Unit) :
    Tracks (fun _ _ => run = .ok ()) (Machine.within (lift run)) run :=
  (Tracks.within (Follows.lift run)).imp fun _ _ passed => passed.2

theorem rleLoop_tracks {data : Bytes} {limit : Nat} (small : data.length < 2 ^ 63) {out rest : Bytes}
    {i : Nat} (room : out.length < 2 ^ 63) (here : data.drop i = rest) :
    Tracks SameVector (rleLoop data limit i out) (rleInvertFrom limit out rest) := by
  induction out, rest using rleInvertFrom.induct generalizing i with
  | case1 out =>
      rw [rleLoop, rleInvertFrom, if_pos (List.drop_eq_nil_iff.mp here)]
      exact Tracks.ok ⟨rfl, room⟩
  | case2 out ctrl rest literal n =>
      rename_i short
      obtain ⟨there, next, length⟩ := drop_eq_cons here
      rw [rleLoop, rleInvertFrom, if_neg (by omega), index_eq there, ok_bind,
        increment_eq (by omega), ok_bind, if_pos literal, if_pos literal, add_eq (by omega), ok_bind]
      dsimp only
      rw [add_eq (by omega), ok_bind, if_pos (by omega), if_pos short]
      exact Tracks.fail _
  | case3 out ctrl rest literal n =>
      rename_i enough ih
      obtain ⟨there, next, length⟩ := drop_eq_cons here
      rw [rleLoop, rleInvertFrom, if_neg (by omega), index_eq there, ok_bind,
        increment_eq (by omega), ok_bind, if_pos literal, if_pos literal, add_eq (by omega), ok_bind]
      dsimp only
      rw [add_eq (by omega), ok_bind, if_neg (by omega), if_neg enough,
        saturatingAdd_of_lt (by omega)]
      apply Tracks.bind (check_tracks _)
      intro _ _ _
      have later : data.drop (i + 1 + (ctrl.toNat + 1)) = rest.drop (ctrl.toNat + 1) := by
        rw [← List.drop_drop, next]
      rw [slice_eq (by omega) (by omega), ok_bind, next, Nat.add_sub_cancel_left,
        advance_eq (by omega)]
      simp only [ok_bind]
      apply Tracks.extend
      intro fits
      rw [← List.length_append] at fits
      exact ih fits later
  | case4 out ctrl high repeats =>
      obtain ⟨there, next, length⟩ := drop_eq_cons here
      have byte := ctrl.toNat_lt
      rw [List.length_nil] at length
      rw [rleLoop, rleInvertFrom, if_neg (by omega), index_eq there, ok_bind,
        increment_eq (by omega), ok_bind, if_neg high, if_neg high, if_pos repeats, if_pos repeats,
        sub_eq (by omega), ok_bind]
      dsimp only
      rw [if_pos (by omega)]
      exact Tracks.fail _
  | case5 out ctrl high repeats n b rest =>
      rename_i ih
      obtain ⟨there, next, length⟩ := drop_eq_cons here
      obtain ⟨there', next', -⟩ := drop_eq_cons next
      have byte := ctrl.toNat_lt
      rw [List.length_cons] at length
      rw [rleLoop, rleInvertFrom, if_neg (by omega), index_eq there, ok_bind,
        increment_eq (by omega), ok_bind, if_neg high, if_neg high, if_pos repeats, if_pos repeats,
        sub_eq (by omega), ok_bind]
      dsimp only
      rw [if_neg (by omega), index_eq there', ok_bind, increment_eq (by omega), ok_bind,
        saturatingAdd_of_lt (by omega)]
      apply Tracks.bind (check_tracks _)
      intro _ _ _
      rw [add_eq (by omega), ok_bind, Nat.add_sub_cancel_left]
      apply Tracks.extend
      intro fits
      rw [← List.length_append] at fits
      exact ih fits next'
  | case6 out ctrl rest high reserved =>
      obtain ⟨there, next, length⟩ := drop_eq_cons here
      rw [rleLoop, rleInvertFrom, if_neg (by omega), index_eq there, ok_bind,
        increment_eq (by omega), ok_bind, if_neg high, if_neg high, if_neg reserved,
        if_neg reserved]
      exact Tracks.fail _

theorem rleInvertLimited_tracks {data : Bytes} (small : data.length < 2 ^ 63) (limit : Nat) :
    Tracks SameVector (rleInvertLimited data limit) (Syntra.rleInvertLimited data limit) :=
  rleLoop_tracks small (by decide) rfl

/-! ## A step and a chain -/

def produce (transform : Transform) (s : TransformStep) (data : Bytes) (limit : Nat) :
    Run (Failure IoError) Bytes :=
  match transform with
  | .unspecified => do
    within (lift (checkLen data.length limit))
    .ok data
  | .delta => do
    let width ← within (lift (widthOf s))
    within (lift (checkLen data.length limit))
    within (deltaInvert data width)
  | .byteSplit => do
    let width ← within (lift (widthOf s))
    within (lift (checkLen data.length limit))
    within (byteSplitInvert data width)
  | .rle => rleInvertLimited data limit
  | .csvColumnar => within (csvInvert data limit)

def inversionFailure (transform : Transform) (s : TransformStep) (maxOut : Nat)
    (failure : IoError) : IoError :=
  if s.inputLen ≠ 0 ∧ s.inputLen < maxOut ∧ (tooLargeLimit failure).isSome then
    invalid s!"inversão de {transformName transform} excede o tamanho declarado ({s.inputLen})"
  else failure

def invertLimited (data : Bytes) (s : TransformStep) (maxOut : Nat) :
    Run (Failure IoError) Bytes := do
  let transform ← within (lift (okOr (Transform.tryFrom s.transform)
    (invalid s!"transform desconhecido no envelope: {s.transform}")))
  let limit := if s.inputLen ≠ 0 then min maxOut s.inputLen else maxOut
  let out ← (produce transform s data limit).mapError
    (Stop.map (Failure.map (inversionFailure transform s maxOut)))
  within (lift (rejectIf (s.inputLen ≠ 0 ∧ out.length ≠ s.inputLen) (invalid
    s!"inversão de {transformName transform} devolveu {out.length} bytes, esperado {s.inputLen}")))
  .ok out

def invertSteps (stageCap : Nat) (data : Bytes) :
    Nat → List TransformStep → Run (Failure IoError) Bytes
  | _, [] => .ok data
  | cap, s :: steps => do
    let staged ← invertSteps stageCap data stageCap steps
    invertLimited staged s cap

def invertChainLimited (data : Bytes) (steps : List TransformStep) (stageCap finalCap : Nat) :
    Run (Failure IoError) Bytes := do
  within (lift (rejectIf (maxChain < steps.length)
    (invalid s!"cadeia de {steps.length} transforms excede o máximo de {maxChain}")))
  if steps.isEmpty then do
    within (lift (checkLen data.length finalCap))
    .ok data
  else invertSteps stageCap data finalCap steps

theorem produce_tracks {data : Bytes} (small : data.length < 2 ^ 63) (transform : Transform)
    (s : TransformStep) (limit : Nat) :
    Tracks SameVector (produce transform s data limit) (Syntra.produce transform s data limit) := by
  have width_tracks : Tracks (fun got width => got = width ∧ width ∈ widths)
      (within (lift (widthOf s))) (widthOf s) :=
    (Tracks.within (Follows.lift _)).imp fun got width found =>
      ⟨found.1, by
        obtain ⟨same, listed⟩ := widthOf_eq_ok s width found.2
        exact same ▸ listed⟩
  cases transform with
  | unspecified =>
      apply Tracks.bind (check_tracks _)
      intro _ _ _
      exact Tracks.ok ⟨rfl, small⟩
  | delta =>
      apply Tracks.bind width_tracks
      rintro width _ ⟨rfl, listed⟩
      apply Tracks.bind (check_tracks _)
      intro _ _ _
      rw [deltaInvert_eq listed small]
      refine Tracks.ok ⟨rfl, ?_⟩
      rw [length_deltaInvert data width (width_le_eight listed)]
      exact small
  | byteSplit =>
      apply Tracks.bind width_tracks
      rintro width _ ⟨rfl, listed⟩
      apply Tracks.bind (check_tracks _)
      intro _ _ _
      rw [byteSplitInvert_eq listed small]
      refine Tracks.ok ⟨rfl, ?_⟩
      rw [length_byteSplitInvert]
      exact small
  | rle => exact rleInvertLimited_tracks small limit
  | csvColumnar =>
      have word : data.length < 2 ^ 64 := small.trans (by decide)
      obtain ⟨-, same, inverse⟩ := csvInvert_never_panics data word limit
      cases run : Syntra.csvInvert data limit with
      | error failure =>
          rw [run] at same
          simp only [produce, Syntra.produce, same, run]
          exact Tracks.fail failure
      | ok out =>
          rw [run] at same
          obtain ⟨-, -, -, -, shorter⟩ := inverse out same
          simp only [produce, Syntra.produce, same, run]
          exact Tracks.ok ⟨rfl, by omega⟩

theorem invertLimited_tracks {data : Bytes} (small : data.length < 2 ^ 63) (s : TransformStep)
    (maxOut : Nat) :
    Tracks SameVector (invertLimited data s maxOut) (Syntra.invertLimited data s maxOut) := by
  apply Tracks.bind (Tracks.within (Follows.lift _))
  rintro transform _ ⟨rfl, -⟩
  dsimp only
  generalize (if s.inputLen ≠ 0 then min maxOut s.inputLen else maxOut) = limit
  have produced := produce_tracks small transform s limit
  generalize produce transform s data limit = run at produced ⊢
  generalize Syntra.produce transform s data limit = model at produced ⊢
  cases produced with
  | ok same =>
      obtain ⟨rfl, fits⟩ := same
      apply Tracks.bind (check_tracks _)
      intro _ _ _
      exact Tracks.ok ⟨rfl, fits⟩
  | fail failure =>
      change Tracks _ (.error (.fail (.error (inversionFailure transform s maxOut failure)))) _
      unfold inversionFailure
      dsimp only
      split
      · exact Tracks.fail _
      · exact Tracks.fail _
  | outOfMemory => exact Tracks.outOfMemory _

theorem invertSteps_tracks {data : Bytes} (small : data.length < 2 ^ 63) (stageCap cap : Nat)
    (steps : List TransformStep) :
    Tracks SameVector (invertSteps stageCap data cap steps)
      (Syntra.invertSteps stageCap data cap steps) := by
  induction steps generalizing cap with
  | nil => exact Tracks.ok ⟨rfl, small⟩
  | cons s steps ih =>
      apply Tracks.bind (ih stageCap)
      rintro staged _ ⟨rfl, fits⟩
      exact invertLimited_tracks fits s cap

theorem invertChainLimited_tracks {data : Bytes} (small : data.length < 2 ^ 63)
    (steps : List TransformStep) (stageCap finalCap : Nat) :
    Tracks SameVector (invertChainLimited data steps stageCap finalCap)
      (Syntra.invertChainLimited data steps stageCap finalCap) := by
  apply Tracks.bind (check_tracks _)
  intro _ _ _
  split
  · apply Tracks.bind (check_tracks _)
    intro _ _ _
    exact Tracks.ok ⟨rfl, small⟩
  · exact invertSteps_tracks small stageCap finalCap steps

end Syntra.Indexed

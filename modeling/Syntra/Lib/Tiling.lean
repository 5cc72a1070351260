import Mathlib.Algebra.BigOperators.Group.List.Basic
import Mathlib.Algebra.Order.Ring.Nat

/-!
# Tilings

Pieces that follow one another without a gap, and where each of them lies.
-/

set_option autoImplicit false

namespace Tiling

universe u

variable {α : Type u}

/-- Pieces, as an offset and a length, that fill the region from `start` to `stop`. -/
inductive Tiles : (start stop : Nat) → List (Nat × Nat) → Prop
  | nil (start : Nat) : Tiles start start []
  | cons {start stop : Nat} (len : Nat) {rest : List (Nat × Nat)}
      (later : Tiles (start + len) stop rest) : Tiles start stop ((start, len) :: rest)

theorem Tiles.le {start stop : Nat} {pieces : List (Nat × Nat)} (tiles : Tiles start stop pieces) :
    start ≤ stop := by
  induction tiles with
  | nil => exact Nat.le_refl _
  | cons len _ ih => exact Nat.le_of_add_right_le ih

theorem Tiles.within {start stop : Nat} {pieces : List (Nat × Nat)}
    (tiles : Tiles start stop pieces) :
    ∀ piece ∈ pieces, start ≤ piece.1 ∧ piece.1 + piece.2 ≤ stop := by
  induction tiles with
  | nil => exact fun piece member => absurd member List.not_mem_nil
  | cons len later ih =>
      intro piece member
      rcases List.mem_cons.mp member with rfl | other
      · exact ⟨Nat.le_refl _, later.le⟩
      · obtain ⟨low, high⟩ := ih piece other
        exact ⟨Nat.le_of_add_right_le low, high⟩

/-! ## Offsets -/

def offset (start : Nat) (lens : List Nat) (i : Nat) : Nat := start + (lens.take i).sum

theorem offset_zero (start : Nat) (lens : List Nat) : offset start lens 0 = start := rfl

theorem offset_succ {start : Nat} {lens : List Nat} {i len : Nat} (there : lens[i]? = some len) :
    offset start lens (i + 1) = offset start lens i + len := by
  unfold offset
  rw [List.take_add_one, there, Option.toList_some, List.sum_append, List.sum_singleton,
    Nat.add_assoc]

theorem offset_end (start : Nat) (lens : List Nat) :
    offset start lens lens.length = start + lens.sum := by
  unfold offset
  rw [List.take_length]

theorem offset_cons (start len : Nat) (lens : List Nat) (i : Nat) :
    offset start (len :: lens) (i + 1) = offset (start + len) lens i := by
  simp only [offset, List.take_succ_cons, List.sum_cons, Nat.add_assoc]

theorem offset_le_mul {start bound : Nat} {lens : List Nat} (small : ∀ len ∈ lens, len ≤ bound)
    {i : Nat} (inside : i ≤ lens.length) : offset start lens i ≤ start + i * bound := by
  induction i with
  | zero => simp [offset_zero]
  | succ i ih =>
      have there := List.getElem?_eq_getElem (show i < lens.length from inside)
      have one := small _ (List.getElem_mem (show i < lens.length from inside))
      rw [offset_succ there, Nat.succ_mul]
      have earlier := ih (by omega)
      omega

theorem offset_mono (start : Nat) (lens : List Nat) : Monotone (offset start lens) := by
  apply monotone_nat_of_le_succ
  intro i
  unfold offset
  rw [List.take_add_one, List.sum_append, ← Nat.add_assoc]
  exact Nat.le_add_right _ _

theorem eq_of_inside {start : Nat} {lens : List Nat} {i j len len' pos : Nat}
    (there : lens[i]? = some len) (there' : lens[j]? = some len')
    (low : offset start lens i ≤ pos) (high : pos < offset start lens i + len)
    (low' : offset start lens j ≤ pos) (high' : pos < offset start lens j + len') : i = j := by
  rw [← offset_succ there] at high
  rw [← offset_succ there'] at high'
  rcases Nat.lt_trichotomy i j with before | same | after
  · have order : offset start lens (i + 1) ≤ offset start lens j := offset_mono start lens before
    omega
  · exact same
  · have order : offset start lens (j + 1) ≤ offset start lens i := offset_mono start lens after
    omega

def lay (start : Nat) : List Nat → List (Nat × Nat)
  | [] => []
  | len :: lens => (start, len) :: lay (start + len) lens

theorem tiles_lay (start : Nat) (lens : List Nat) :
    Tiles start (start + lens.sum) (lay start lens) := by
  induction lens generalizing start with
  | nil => exact Tiles.nil start
  | cons len lens ih =>
      rw [List.sum_cons, ← Nat.add_assoc]
      exact Tiles.cons len (ih (start + len))

theorem getElem?_lay (start : Nat) (lens : List Nat) (i : Nat) :
    (lay start lens)[i]? = lens[i]?.map fun len => (offset start lens i, len) := by
  induction lens generalizing start i with
  | nil => rfl
  | cons len lens ih =>
      cases i with
      | zero => rfl
      | succ i =>
          rw [lay, List.getElem?_cons_succ, List.getElem?_cons_succ, ih]
          simp only [offset_cons]

theorem offset_add_le {start : Nat} {lens : List Nat} {i len : Nat} (there : lens[i]? = some len) :
    offset start lens i + len ≤ start + lens.sum := by
  have placed : (offset start lens i, len) ∈ lay start lens := by
    apply List.mem_of_getElem? (i := i)
    rw [getElem?_lay, there]
    rfl
  exact ((tiles_lay start lens).within _ placed).2

/-! ## Chunks of a list -/

theorem take_drop_flatten {chunks : List (List α)} {i : Nat} {chunk : List α}
    (there : chunks[i]? = some chunk) (front back : List α) :
    ((front ++ (chunks.flatten ++ back)).drop
      (offset front.length (chunks.map List.length) i)).take chunk.length = chunk := by
  induction chunks generalizing front i with
  | nil => cases there
  | cons first chunks ih =>
      cases i with
      | zero =>
          cases there
          rw [offset_zero, List.drop_left, List.flatten_cons, List.append_assoc, List.take_left]
      | succ i =>
          have later := ih there (front ++ first)
          rw [List.length_append] at later
          rw [List.map_cons, offset_cons, List.flatten_cons, List.append_assoc,
            ← List.append_assoc front]
          exact later

theorem length_flatten_le {chunks : List (List α)} {bound : Nat}
    (small : ∀ chunk ∈ chunks, chunk.length ≤ bound) :
    chunks.flatten.length ≤ chunks.length * bound := by
  induction chunks with
  | nil => exact Nat.zero_le _
  | cons chunk chunks ih =>
      have first := small chunk List.mem_cons_self
      have rest := ih fun other member => small other (List.mem_cons_of_mem _ member)
      rw [List.flatten_cons, List.length_append, List.length_cons, Nat.succ_mul]
      omega

/-- The chunks of `size` elements; the last may be shorter. -/
def chunks (size : Nat) (xs : List α) : List (List α) :=
  (List.range ((xs.length + (size - 1)) / size)).map fun i => (xs.drop (i * size)).take size

theorem length_le_of_mem_chunks {size : Nat} {xs chunk : List α}
    (member : chunk ∈ chunks size xs) : chunk.length ≤ size := by
  obtain ⟨i, -, rfl⟩ := List.mem_map.mp member
  exact List.length_take_le _ _

theorem flatten_range_chunks (size : Nat) (xs : List α) (count : Nat) :
    ((List.range count).map fun i => (xs.drop (i * size)).take size).flatten =
      xs.take (count * size) := by
  induction count with
  | zero => simp
  | succ count ih =>
      rw [List.range_succ, List.map_append, List.flatten_append, ih, Nat.succ_mul, List.take_add,
        List.map_singleton, List.flatten_singleton]

theorem flatten_chunks {size : Nat} (filled : 0 < size) (xs : List α) :
    (chunks size xs).flatten = xs := by
  have covered : xs.length ≤ (xs.length + (size - 1)) / size * size := by
    have above := Nat.lt_div_mul_add (a := xs.length + (size - 1)) filled
    omega
  rw [chunks, flatten_range_chunks, List.take_of_length_le covered]

theorem Tiles.flatten {start stop : Nat} {pieces : List (Nat × Nat)}
    (tiles : Tiles start stop pieces) (xs : List α) :
    (pieces.map fun piece => (xs.drop piece.1).take piece.2).flatten =
      (xs.drop start).take (stop - start) := by
  induction tiles with
  | nil start => simp
  | @cons start stop len rest later ih =>
      have inside := later.le
      have split : stop - start = len + (stop - (start + len)) := by omega
      rw [List.map_cons, List.flatten_cons, ih, split, List.take_add, List.drop_drop]

/-- Pieces of one size, of which the last may be shorter. -/
theorem tiles_fixed {size stop k count : Nat} (high : stop ≤ (k + count) * size)
    (inside : ∀ i < k + count, i * size ≤ stop) :
    Tiles (min (k * size) stop) stop
      ((List.range' k count).map fun i => (i * size, min size (stop - i * size))) := by
  induction count generalizing k with
  | zero =>
      rw [Nat.add_zero] at high
      rw [Nat.min_eq_right high]
      exact Tiles.nil stop
  | succ count ih =>
      have before := inside k (by omega)
      have next : k * size + min size (stop - k * size) = min ((k + 1) * size) stop := by
        rw [Nat.succ_mul]
        omega
      rw [List.range'_succ, List.map_cons, Nat.min_eq_left before]
      refine Tiles.cons _ ?_
      rw [next]
      have order : k + 1 + count = k + (count + 1) := by omega
      exact ih (order ▸ high) (order ▸ inside)

/-! ## Lists that agree on a region -/

def Agree (lo hi : Nat) (xs ys : List α) : Prop :=
  ∀ pos, lo ≤ pos → pos < hi → xs[pos]? = ys[pos]?

theorem take_drop_eq_iff {xs ys : List α} {lo len : Nat} :
    (xs.drop lo).take len = (ys.drop lo).take len ↔ Agree lo (lo + len) xs ys := by
  rw [List.ext_getElem?_iff]
  constructor
  · intro same pos low high
    have here := same (pos - lo)
    rwa [List.getElem?_take_of_lt (by omega), List.getElem?_take_of_lt (by omega),
      List.getElem?_drop, List.getElem?_drop, Nat.add_sub_cancel' low] at here
  · intro agree i
    by_cases inside : i < len
    · rw [List.getElem?_take_of_lt inside, List.getElem?_take_of_lt inside, List.getElem?_drop,
        List.getElem?_drop]
      exact agree (lo + i) (by omega) (by omega)
    · rw [List.getElem?_take_eq_none (by omega), List.getElem?_take_eq_none (by omega)]

theorem Agree.take {xs ys : List α} {len : Nat} (agree : Agree 0 len xs ys) :
    xs.take len = ys.take len := by
  have same := take_drop_eq_iff.mpr (by rwa [Nat.zero_add] : Agree 0 (0 + len) xs ys)
  rwa [List.drop_zero, List.drop_zero] at same

theorem Agree.drop {xs ys : List α} {lo : Nat} (sized : xs.length = ys.length)
    (agree : Agree lo xs.length xs ys) : xs.drop lo = ys.drop lo := by
  apply List.ext_getElem?
  intro i
  rw [List.getElem?_drop, List.getElem?_drop]
  by_cases inside : lo + i < xs.length
  · exact agree (lo + i) (Nat.le_add_right _ _) inside
  · rw [List.getElem?_eq_none (by omega), List.getElem?_eq_none (by omega)]

/-! ## Tables of fixed width -/

universe v

variable {β : Type v} {f : β → List α} {width : Nat}

theorem length_flatMap_fixed {xs : List β} (sized : ∀ x ∈ xs, (f x).length = width) :
    (xs.flatMap f).length = xs.length * width := by
  induction xs with
  | nil => simp
  | cons x xs ih =>
      rw [List.flatMap_cons, List.length_append, sized x List.mem_cons_self,
        ih fun other member => sized other (List.mem_cons_of_mem _ member), List.length_cons,
        Nat.succ_mul, Nat.add_comm]

theorem take_drop_flatMap {xs : List β} {i : Nat} {x : β} (there : xs[i]? = some x)
    (sized : ∀ x ∈ xs, (f x).length = width) :
    ((xs.flatMap f).drop (i * width)).take width = f x := by
  induction xs generalizing i with
  | nil => cases there
  | cons y xs ih =>
      have first := sized y List.mem_cons_self
      cases i with
      | zero =>
          cases there
          rw [Nat.zero_mul, List.drop_zero, List.flatMap_cons, List.take_left' first]
      | succ i =>
          rw [List.flatMap_cons, Nat.succ_mul, Nat.add_comm, ← List.drop_drop,
            List.drop_left' first]
          exact ih there fun other member => sized other (List.mem_cons_of_mem _ member)

end Tiling

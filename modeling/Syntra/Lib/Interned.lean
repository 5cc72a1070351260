import Mathlib.Algebra.BigOperators.Group.Finset.Basic
import Mathlib.Algebra.Order.Ring.Nat
import Mathlib.Data.List.Basic
import Mathlib.Logic.Function.Basic

/-!
# First occurrences

Of a list whose items have keys, the items whose key was not seen before, and the others.
An index that was built item by item knows the place of each key among the first ones.
-/

set_option autoImplicit false

namespace Interned

universe u v

variable {α : Type u} {κ : Type v} [BEq κ] [LawfulBEq κ] (key : α → κ)

/-- The items whose key is neither in `seen` nor the key of an item before. -/
def firsts : List κ → List α → List α
  | _, [] => []
  | seen, x :: xs =>
    if key x ∈ seen then firsts seen xs else x :: firsts (seen ++ [key x]) xs

def repeats : List κ → List α → List α
  | _, [] => []
  | seen, x :: xs =>
    if key x ∈ seen then x :: repeats seen xs else repeats (seen ++ [key x]) xs

variable {key} {seen : List κ} {xs ys : List α}

theorem mem_known (k : κ) :
    k ∈ seen ++ (firsts key seen xs).map key ↔ k ∈ seen ∨ ∃ x ∈ xs, key x = k := by
  induction xs generalizing seen with
  | nil => simp [firsts]
  | cons x xs ih =>
      rw [firsts]
      split
      · rename_i known
        rw [ih]
        constructor
        · rintro (before | ⟨y, member, same⟩)
          · exact Or.inl before
          · exact Or.inr ⟨y, List.mem_cons_of_mem x member, same⟩
        · rintro (before | ⟨y, member, same⟩)
          · exact Or.inl before
          · rcases List.mem_cons.mp member with rfl | later
            · exact Or.inl (same ▸ known)
            · exact Or.inr ⟨y, later, same⟩
      · rw [List.map_cons, List.append_cons, ih, List.mem_append, List.mem_singleton]
        constructor
        · rintro ((before | rfl) | ⟨y, member, same⟩)
          · exact Or.inl before
          · exact Or.inr ⟨x, List.mem_cons_self, rfl⟩
          · exact Or.inr ⟨y, List.mem_cons_of_mem x member, same⟩
        · rintro (before | ⟨y, member, same⟩)
          · exact Or.inl (Or.inl before)
          · rcases List.mem_cons.mp member with rfl | later
            · exact Or.inl (Or.inr same.symm)
            · exact Or.inr ⟨y, later, same⟩

theorem firsts_append :
    firsts key seen (xs ++ ys) =
      firsts key seen xs ++ firsts key (seen ++ (firsts key seen xs).map key) ys := by
  induction xs generalizing seen with
  | nil => simp [firsts]
  | cons x xs ih =>
      rw [List.cons_append, firsts, firsts]
      split
      · exact ih
      · rw [ih, List.map_cons, List.cons_append, List.append_assoc, List.singleton_append]

theorem repeats_append :
    repeats key seen (xs ++ ys) =
      repeats key seen xs ++ repeats key (seen ++ (firsts key seen xs).map key) ys := by
  induction xs generalizing seen with
  | nil => simp [firsts, repeats]
  | cons x xs ih =>
      rw [List.cons_append, firsts, repeats, repeats]
      split
      · rw [ih, List.cons_append]
      · rw [ih, List.map_cons, List.append_assoc, List.singleton_append]

theorem firsts_sublist : (firsts key seen xs).Sublist xs := by
  induction xs generalizing seen with
  | nil => exact List.Sublist.refl _
  | cons x xs ih =>
      rw [firsts]
      split
      · exact ih.cons x
      · exact ih.cons_cons x

theorem repeats_sublist : (repeats key seen xs).Sublist xs := by
  induction xs generalizing seen with
  | nil => exact List.Sublist.refl _
  | cons x xs ih =>
      rw [repeats]
      split
      · exact ih.cons_cons x
      · exact ih.cons x

theorem firsts_new : ∀ x ∈ firsts key seen xs, key x ∉ seen := by
  induction xs generalizing seen with
  | nil => exact fun x member => absurd member List.not_mem_nil
  | cons x xs ih =>
      rw [firsts]
      split
      · exact ih
      · rename_i new
        refine List.forall_mem_cons.mpr ⟨new, fun y member known => ?_⟩
        exact ih y member (List.mem_append_left _ known)

theorem nodup_firsts : ((firsts key seen xs).map key).Nodup := by
  induction xs generalizing seen with
  | nil => exact List.nodup_nil
  | cons x xs ih =>
      rw [firsts]
      split
      · exact ih
      · rw [List.map_cons, List.nodup_cons]
        refine ⟨fun again => ?_, ih⟩
        obtain ⟨y, member, same⟩ := List.mem_map.mp again
        exact firsts_new y member (by simp [same])

theorem sum_firsts_repeats (f : α → Nat) :
    ((firsts key seen xs).map f).sum + ((repeats key seen xs).map f).sum = (xs.map f).sum := by
  induction xs generalizing seen with
  | nil => rfl
  | cons x xs ih =>
      rw [firsts, repeats]
      split
      · have tail := @ih seen
        rw [List.map_cons, List.map_cons, List.sum_cons, List.sum_cons]
        omega
      · have tail := @ih (seen ++ [key x])
        rw [List.map_cons, List.map_cons, List.sum_cons, List.sum_cons]
        omega

/-- An item after the others, whose key is known or new. -/
theorem firsts_concat (x : α) :
    firsts key seen (xs ++ [x]) =
      if key x ∈ seen ++ (firsts key seen xs).map key then firsts key seen xs
      else firsts key seen xs ++ [x] := by
  rw [firsts_append, firsts]
  split <;> simp [firsts]

theorem repeats_concat (x : α) :
    repeats key seen (xs ++ [x]) =
      if key x ∈ seen ++ (firsts key seen xs).map key then repeats key seen xs ++ [x]
      else repeats key seen xs := by
  rw [repeats_append, repeats]
  split <;> simp [repeats]

theorem firsts_map {β : Type*} (g : β → α) (ys : List β) :
    (firsts (key ∘ g) seen ys).map g = firsts key seen (ys.map g) := by
  induction ys generalizing seen with
  | nil => rfl
  | cons y ys ih =>
      rw [List.map_cons, firsts, firsts, Function.comp_apply]
      split
      · exact ih
      · rw [List.map_cons, ih]

theorem repeats_map {β : Type*} (g : β → α) (ys : List β) :
    (repeats (key ∘ g) seen ys).map g = repeats key seen (ys.map g) := by
  induction ys generalizing seen with
  | nil => rfl
  | cons y ys ih =>
      rw [List.map_cons, repeats, repeats, Function.comp_apply]
      split
      · rw [List.map_cons, ih]
      · exact ih

/-- Where the key tells the items apart, the first occurrences are the set of the new items. -/
theorem toFinset_firsts [DecidableEq α] {apart : List α}
    (separates : ∀ x ∈ apart ++ xs, ∀ y ∈ apart ++ xs, key x = key y → x = y) :
    (firsts key (apart.map key) xs).toFinset = xs.toFinset \ apart.toFinset := by
  ext x
  rw [Finset.mem_sdiff, List.mem_toFinset, List.mem_toFinset, List.mem_toFinset]
  constructor
  · intro first
    refine ⟨firsts_sublist.mem first, fun before => ?_⟩
    exact firsts_new x first (List.mem_map_of_mem before)
  · intro new
    obtain ⟨member, absent⟩ := new
    rcases List.mem_append.mp ((mem_known (key x)).mpr (Or.inr ⟨x, member, rfl⟩)) with
      before | first
    · obtain ⟨y, inApart, equal⟩ := List.mem_map.mp before
      have identical := separates y (List.mem_append_left _ inApart) x
        (List.mem_append_right _ member) equal
      exact absurd (identical ▸ inApart) absent
    · obtain ⟨y, inFirsts, equal⟩ := List.mem_map.mp first
      have identical := separates y (List.mem_append_right _ (firsts_sublist.mem inFirsts)) x
        (List.mem_append_right _ member) equal
      exact identical ▸ inFirsts

theorem sum_firsts [DecidableEq α] (f : α → Nat) {apart : List α}
    (separates : ∀ x ∈ apart ++ xs, ∀ y ∈ apart ++ xs, key x = key y → x = y) :
    ((firsts key (apart.map key) xs).map f).sum = ∑ x ∈ xs.toFinset \ apart.toFinset, f x := by
  have once : (firsts key (apart.map key) xs).Nodup := nodup_firsts.of_map key
  rw [← List.sum_toFinset f once, toFinset_firsts separates]

/-! With nothing known before. -/

theorem toFinset_firsts_nil [DecidableEq α]
    (separates : ∀ x ∈ xs, ∀ y ∈ xs, key x = key y → x = y) :
    (firsts key [] xs).toFinset = xs.toFinset := by
  have whole := @toFinset_firsts _ _ _ _ key xs _ [] separates
  rwa [List.map_nil, List.toFinset_nil, Finset.sdiff_empty] at whole

theorem length_firsts_nil [DecidableEq α]
    (separates : ∀ x ∈ xs, ∀ y ∈ xs, key x = key y → x = y) :
    (firsts key [] xs).length = xs.toFinset.card := by
  rw [← toFinset_firsts_nil separates, List.toFinset_card_of_nodup (nodup_firsts.of_map key)]

theorem sum_firsts_nil [DecidableEq α] (f : α → Nat)
    (separates : ∀ x ∈ xs, ∀ y ∈ xs, key x = key y → x = y) :
    ((firsts key [] xs).map f).sum = ∑ x ∈ xs.toFinset, f x := by
  rw [← toFinset_firsts_nil separates, List.sum_toFinset f (nodup_firsts.of_map key)]

/-! ## An index of the keys -/

/-- The index knows each key by its place in the list. -/
def Indexes (index : κ → Option Nat) (keys : List κ) : Prop :=
  ∀ k i, index k = some i ↔ keys[i]? = some k

variable {index : κ → Option Nat} {keys : List κ} {k : κ}

omit [BEq κ] [LawfulBEq κ] in
theorem Indexes.nil : Indexes (fun _ : κ => none) [] := by
  intro k i
  simp

omit [BEq κ] [LawfulBEq κ] in
theorem Indexes.mem_iff (indexes : Indexes index keys) : k ∈ keys ↔ ∃ i, index k = some i := by
  rw [List.mem_iff_getElem?]
  exact exists_congr fun i => (indexes k i).symm

omit [BEq κ] [LawfulBEq κ] in
theorem Indexes.absent (indexes : Indexes index keys) (new : index k = none) : k ∉ keys := by
  rw [indexes.mem_iff, new]
  rintro ⟨i, impossible⟩
  cases impossible

omit [BEq κ] [LawfulBEq κ] in
theorem Indexes.concat [DecidableEq κ] (indexes : Indexes index keys) (new : index k = none) :
    Indexes (Function.update index k (some keys.length)) (keys ++ [k]) := by
  have absent := indexes.absent new
  intro k' i
  rcases Nat.lt_trichotomy i keys.length with inside | rfl | outside
  · rw [List.getElem?_append_left inside, ← indexes]
    rcases eq_or_ne k' k with rfl | other
    · rw [Function.update_self, new]
      constructor
      · rintro ⟨⟩
        exact absurd inside (Nat.lt_irrefl _)
      · exact fun impossible => nomatch impossible
    · rw [Function.update_of_ne other]
  · rw [List.getElem?_concat_length]
    rcases eq_or_ne k' k with rfl | other
    · rw [Function.update_self]
      exact iff_of_true rfl rfl
    · rw [Function.update_of_ne other, indexes, List.getElem?_eq_none (Nat.le_refl _)]
      simp [other.symm]
  · rw [List.getElem?_eq_none (by rw [List.length_append, List.length_singleton]; omega)]
    rcases eq_or_ne k' k with rfl | other
    · rw [Function.update_self]
      simp [outside.ne]
    · rw [Function.update_of_ne other, indexes, List.getElem?_eq_none outside.le]

end Interned

import Mathlib.Data.List.Basic

/-!
# Ranking

A stable sort starts with the first of the least elements.
-/

set_option autoImplicit false

namespace Ranking

variable {α : Type} {le : α → α → Bool}

theorem mergeSort_head (trans : ∀ a b c, le a b → le b c → le a c)
    (total : ∀ a b, le a b || le b a) {before after : List α} {best : α}
    (earlier : ∀ other ∈ before, le other best = false)
    (later : ∀ other ∈ after, le best other = true) :
    ∃ rest, (before ++ best :: after).mergeSort le = best :: rest := by
  induction before with
  | nil =>
      obtain ⟨smaller, rest, sorted, without, least⟩ := List.mergeSort_cons trans total best after
      cases smaller with
      | nil => exact ⟨rest, sorted⟩
      | cons other smaller =>
          have member : other ∈ after := by
            apply (List.mergeSort_perm after le).subset
            rw [without]
            exact List.mem_cons_self
          have beats := least other List.mem_cons_self
          rw [later other member] at beats
          cases beats
  | cons first before ih =>
      obtain ⟨rest, others⟩ := ih fun other member => earlier other (List.mem_cons_of_mem _ member)
      obtain ⟨smaller, larger, sorted, without, -⟩ :=
        List.mergeSort_cons trans total first (before ++ best :: after)
      rw [List.cons_append, sorted]
      rw [others] at without
      cases smaller with
      | cons other smaller =>
          rw [List.cons_append, List.cons.injEq] at without
          rw [← without.1]
          exact ⟨smaller ++ first :: larger, rfl⟩
      | nil =>
          -- then the first would stand before the best in a sorted list
          have inOrder := List.pairwise_mergeSort trans total (first :: (before ++ best :: after))
          rw [List.nil_append] at without
          rw [sorted, List.nil_append, ← without] at inOrder
          have beats := List.rel_of_pairwise_cons inOrder List.mem_cons_self
          rw [earlier first List.mem_cons_self] at beats
          cases beats

end Ranking

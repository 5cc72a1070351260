import Mathlib.Data.List.Basic
import Mathlib.Logic.Function.Basic

/-!
# Indexes over a list

A partial function that answers for every item of a list under the item's key,
and for nothing else.
-/

set_option autoImplicit false

namespace Index

universe u v w

variable {α : Type u} {κ : Type v} {ν : Type w}

def Reads (index : κ → Option ν) (items : List α) (key : α → κ) (value : α → ν) : Prop :=
  ∀ k v, index k = some v ↔ ∃ item ∈ items, key item = k ∧ v = value item

theorem reads_nil (key : α → κ) (value : α → ν) :
    Reads (fun _ => none) [] key value := by
  simp [Reads]

theorem Reads.of_mem_iff {index : κ → Option ν} {items others : List α} {key : α → κ}
    {value : α → ν} (reads : Reads index items key value)
    (same : ∀ item, item ∈ items ↔ item ∈ others) : Reads index others key value := by
  intro k v
  rw [reads k v]
  simp only [same]

theorem Reads.lookup {index : κ → Option ν} {items : List α} {key : α → κ} {value : α → ν}
    (reads : Reads index items key value) {item : α} (member : item ∈ items) :
    index (key item) = some (value item) :=
  (reads _ _).mpr ⟨item, member, rfl, rfl⟩

theorem Reads.add [DecidableEq κ] {index : κ → Option ν} {items : List α} {key : α → κ}
    {value : α → ν} (reads : Reads index items key value) (item : α)
    (unique : ∀ other ∈ items, key other = key item → other = item) :
    Reads (Function.update index (key item) (some (value item))) (items ++ [item]) key value := by
  intro k v
  by_cases same : k = key item
  · subst same
    rw [Function.update_self, Option.some.injEq]
    constructor
    · rintro rfl
      exact ⟨item, by simp, rfl, rfl⟩
    · rintro ⟨other, member, equal, rfl⟩
      rcases List.mem_append.mp member with before | last
      · rw [unique other before equal]
      · rw [List.mem_singleton.mp last]
  · rw [Function.update_of_ne same, reads k v]
    constructor
    · rintro ⟨other, member, found⟩
      exact ⟨other, by simp [member], found⟩
    · rintro ⟨other, member, equal, found⟩
      rcases List.mem_append.mp member with before | last
      · exact ⟨other, before, equal, found⟩
      · rw [List.mem_singleton.mp last] at equal
        exact absurd equal.symm same

end Index

import Mathlib.Data.List.Nodup

/-!
# Tables with a unique key

The rows of a table in the order they were inserted.  Rows without a key, like
SQL rows whose key is null, are not constrained.
-/

set_option autoImplicit false

universe u v

structure Table {ρ : Type u} {κ : Type v} (key : ρ → Option κ) where
  rows : List ρ
  unique : (rows.filterMap key).Nodup

namespace Table

variable {ρ : Type u} {κ : Type v} {key : ρ → Option κ}

def empty : Table key := { rows := [], unique := List.nodup_nil }

theorem mem_unique (table : Table key) {row other : ρ} {k : κ} (member : row ∈ table.rows)
    (present : other ∈ table.rows) (keyed : key row = some k) (same : key other = some k) :
    row = other := by
  obtain ⟨rows, unique⟩ := table
  dsimp only at member present
  induction rows with
  | nil => simp at member
  | cons first rows ih =>
      cases firstKey : key first with
      | none =>
          rw [List.filterMap_cons_none firstKey] at unique
          rcases List.mem_cons.mp member with rfl | inRest
          · rw [firstKey] at keyed
            simp at keyed
          · rcases List.mem_cons.mp present with rfl | alsoInRest
            · rw [firstKey] at same
              simp at same
            · exact ih unique inRest alsoInRest
      | some firstOf =>
          rw [List.filterMap_cons_some firstKey, List.nodup_cons] at unique
          have apart : ∀ later ∈ rows, key later ≠ some firstOf := fun later inRest equal =>
            unique.1 (List.mem_filterMap.mpr ⟨later, inRest, equal⟩)
          rcases List.mem_cons.mp member with rfl | inRest
          · rcases List.mem_cons.mp present with rfl | alsoInRest
            · rfl
            · rw [keyed, Option.some.injEq] at firstKey
              exact absurd same (firstKey ▸ apart other alsoInRest)
          · rcases List.mem_cons.mp present with rfl | alsoInRest
            · rw [same, Option.some.injEq] at firstKey
              exact absurd keyed (firstKey ▸ apart row inRest)
            · exact ih unique.2 inRest alsoInRest

theorem ext_rows {table other : Table key} (same : table.rows = other.rows) : table = other := by
  cases table
  cases other
  cases same
  rfl

variable [DecidableEq κ]

/-! ## Operations -/

def find (table : Table key) (k : κ) : Option ρ :=
  table.rows.find? fun row => key row = some k

/-- No row of the table has the key of `row`. -/
def accepts (table : Table key) (row : ρ) : Bool :=
  (key row).all fun k => (table.find k).isNone

theorem find_eq_some {table : Table key} {k : κ} {row : ρ} :
    table.find k = some row ↔ row ∈ table.rows ∧ key row = some k := by
  constructor
  · intro found
    exact ⟨List.mem_of_find?_eq_some found, by simpa using List.find?_some found⟩
  · rintro ⟨member, keyed⟩
    cases found : table.find k with
    | none => simpa [keyed] using List.find?_eq_none.mp found row member
    | some other =>
        have sameKey : key other = some k := by simpa using List.find?_some found
        rw [table.mem_unique (List.mem_of_find?_eq_some found) member sameKey keyed]

theorem find_eq_none {table : Table key} {k : κ} :
    table.find k = none ↔ ∀ row ∈ table.rows, key row ≠ some k := by
  simp [find, List.find?_eq_none]

theorem accepts_iff {table : Table key} {row : ρ} :
    table.accepts row = true ↔ ∀ k, key row = some k → table.find k = none := by
  cases keyed : key row with
  | none => simp [accepts, keyed]
  | some k => simp [accepts, keyed, Option.isNone_iff_eq_none]

theorem countP_key {table : Table key} {k : κ} {row : ρ} (found : table.find k = some row) :
    table.rows.countP (fun row => key row = some k) = 1 := by
  obtain ⟨member, keyed⟩ := find_eq_some.mp found
  refine Nat.le_antisymm ?_ (List.countP_pos_iff.mpr ⟨row, member, by simpa using keyed⟩)
  have most := List.nodup_iff_count_le_one.mp table.unique k
  rw [List.count, List.countP_filterMap] at most
  refine Nat.le_trans (List.countP_mono_left fun other _ same => ?_) most
  have own : key other = some k := by simpa using same
  simp [own]

theorem unique_append {table : Table key} {row : ρ} (free : table.accepts row = true) :
    ((table.rows ++ [row]).filterMap key).Nodup := by
  rw [List.filterMap_append]
  cases keyed : key row with
  | none => simpa [keyed] using table.unique
  | some k =>
      have absent := find_eq_none.mp (accepts_iff.mp free k keyed)
      rw [List.filterMap_cons_some keyed, List.filterMap_nil, List.nodup_append]
      refine ⟨table.unique, by simp, ?_⟩
      intro other member last present equal
      obtain ⟨source, inRows, sourceKey⟩ := List.mem_filterMap.mp member
      rw [List.mem_singleton.mp present] at equal
      exact absent source inRows (equal ▸ sourceKey)

def insert (table : Table key) (row : ρ) : Option (Table key) :=
  if free : table.accepts row = true then
    some { rows := table.rows ++ [row], unique := unique_append free }
  else none

def modify (table : Table key) (k : κ) (change : ρ → ρ)
    (kept : ∀ row, key (change row) = key row) : Table key where
  rows := table.rows.map fun row => if key row = some k then change row else row
  unique := by
    have same : (fun row => key (if key row = some k then change row else row)) = key := by
      funext row
      split
      · exact kept row
      · rfl
    rw [List.filterMap_map, Function.comp_def, same]
    exact table.unique

def erase (table : Table key) (k : κ) : Table key where
  rows := table.rows.filter fun row => key row ≠ some k
  unique := table.unique.sublist (List.filter_sublist.filterMap key)

/-- Changes the row that has the key of `row`, or adds `row` where there is none. -/
def upsert (table : Table key) (row : ρ) (change : ρ → ρ)
    (kept : ∀ other, key (change other) = key other) : Table key :=
  if free : table.accepts row = true then
    { rows := table.rows ++ [row], unique := unique_append free }
  else (key row).elim table fun k => table.modify k change kept

/-! ## What the operations leave -/

theorem insert_eq_some {table next : Table key} {row : ρ} (inserted : table.insert row = some next) :
    table.accepts row = true ∧ next.rows = table.rows ++ [row] := by
  unfold insert at inserted
  split at inserted
  · rename_i free
    cases Option.some.inj inserted
    exact ⟨free, rfl⟩
  · simp at inserted

theorem insert_eq_none {table : Table key} {row : ρ} :
    table.insert row = none ↔ table.accepts row = false := by
  unfold insert
  split <;> rename_i free
  · simp [free]
  · simpa using free

theorem exists_insert {table : Table key} {row : ρ}
    (free : ∀ k, key row = some k → table.find k = none) : ∃ next, table.insert row = some next := by
  unfold insert
  rw [dif_pos (accepts_iff.mpr free)]
  exact ⟨_, rfl⟩

theorem find_insert {table next : Table key} {row : ρ} (inserted : table.insert row = some next)
    (k : κ) : next.find k = if key row = some k then some row else table.find k := by
  obtain ⟨free, rows⟩ := insert_eq_some inserted
  split
  · rename_i keyed
    exact find_eq_some.mpr ⟨by simp [rows], keyed⟩
  · rename_i other
    rw [find, rows, List.find?_append]
    simp [find, other]

theorem find_modify (table : Table key) (k : κ) (change : ρ → ρ)
    (kept : ∀ row, key (change row) = key row) (other : κ) :
    (table.modify k change kept).find other =
      if other = k then (table.find other).map change else table.find other := by
  have rows : (table.modify k change kept).rows =
      table.rows.map fun row => if key row = some k then change row else row := rfl
  have sameKey : ∀ row, key (if key row = some k then change row else row) = key row := by
    intro row
    split
    · exact kept row
    · rfl
  cases found : table.find other with
  | none =>
      rw [Option.map_none, ite_self]
      rw [find_eq_none] at found ⊢
      intro row member
      rw [rows] at member
      obtain ⟨source, inRows, rfl⟩ := List.mem_map.mp member
      rw [sameKey]
      exact found source inRows
  | some row =>
      obtain ⟨member, keyed⟩ := find_eq_some.mp found
      have moved : (if key row = some k then change row else row) ∈
          (table.modify k change kept).rows := by
        rw [rows]
        exact List.mem_map.mpr ⟨row, member, rfl⟩
      rw [find_eq_some.mpr ⟨moved, (sameKey row).trans keyed⟩, keyed, Option.map_some]
      by_cases same : other = k <;> simp [same]

theorem rows_upsert (table : Table key) {row : ρ} {k : κ} (keyed : key row = some k)
    (change : ρ → ρ) (kept : ∀ other, key (change other) = key other) :
    (table.upsert row change kept).rows =
      if (table.find k).isNone then table.rows ++ [row]
      else table.rows.map fun other => if key other = some k then change other else other := by
  have accepts : table.accepts row = (table.find k).isNone := by simp [accepts, keyed]
  unfold upsert
  split
  · rename_i free
    rw [if_pos (accepts ▸ free)]
  · rename_i taken
    rw [if_neg (accepts ▸ taken), keyed]
    rfl

theorem find_upsert (table : Table key) {row : ρ} {k : κ} (keyed : key row = some k)
    (change : ρ → ρ) (kept : ∀ other, key (change other) = key other) (other : κ) :
    (table.upsert row change kept).find other =
      if other = k then some ((table.find k).elim row change) else table.find other := by
  unfold upsert
  split
  · rename_i free
    have inserted : table.insert row =
        some { rows := table.rows ++ [row], unique := unique_append free } := dif_pos free
    have absent := accepts_iff.mp free k keyed
    rw [find_insert inserted, keyed, absent]
    exact if_congr ((Option.some_inj).trans eq_comm) rfl rfl
  · rename_i taken
    cases found : table.find k with
    | none =>
        refine absurd (accepts_iff.mpr fun same keyed' => ?_) taken
        rw [keyed, Option.some.injEq] at keyed'
        exact keyed' ▸ found
    | some old =>
        rw [keyed, Option.elim_some, Option.elim_some, find_modify]
        by_cases same : other = k
        · rw [if_pos same, if_pos same, same, found, Option.map_some]
        · rw [if_neg same, if_neg same]

theorem find_erase (table : Table key) (k other : κ) :
    (table.erase k).find other = if other = k then none else table.find other := by
  have rows : (table.erase k).rows = table.rows.filter fun row => key row ≠ some k := rfl
  by_cases same : other = k
  · rw [if_pos same, find_eq_none, rows]
    intro row member
    rw [same]
    simpa using (List.mem_filter.mp member).2
  · rw [if_neg same]
    cases found : table.find other with
    | none =>
        rw [find_eq_none] at found ⊢
        intro row member
        rw [rows] at member
        exact found row (List.mem_filter.mp member).1
    | some row =>
        obtain ⟨member, keyed⟩ := find_eq_some.mp found
        refine find_eq_some.mpr ⟨?_, keyed⟩
        rw [rows, List.mem_filter]
        simp [member, keyed, same]

end Table

import Syntra.Lib.Text

/-!
# Paths

The text of a path and its components.  Two paths are the same when their
components are, however they are spelled.
-/

set_option autoImplicit false

namespace Syntra

inductive Component where
  | rootDir
  | curDir
  | parentDir
  | normal (name : String)
  deriving Repr, DecidableEq

/-- Repeated and trailing separators do not count, nor does `.` past the beginning. -/
def Component.ofPiece (piece : List Char) : Option Component :=
  if piece = [] ∨ piece = ['.'] then none
  else if piece = ['.', '.'] then some .parentDir
  else some (.normal (String.ofList piece))

structure PathBuf where
  text : String
  deriving Repr, DecidableEq

namespace PathBuf

/-- What the first piece says of where the path starts. -/
def anchor (pieces : List (List Char)) : List Component :=
  if pieces.head? = some ['.'] then [.curDir]
  else if pieces.head? = some [] ∧ pieces.length ≠ 1 then [.rootDir]
  else []

def components (path : PathBuf) : List Component :=
  let pieces := path.text.toList.splitOn '/'
  anchor pieces ++ pieces.filterMap Component.ofPiece

def fileName (path : PathBuf) : Option String :=
  match path.components.getLast? with
  | some (.normal name) => some name
  | _ => none

def parent (path : PathBuf) : Option (List Component) :=
  match path.components.getLast? with
  | none | some .rootDir => none
  | some _ => some path.components.dropLast

def join (dir : PathBuf) (name : String) : PathBuf :=
  if Text.startsWith name "/" then ⟨name⟩
  else if dir.text = "" ∨ Text.endsWith dir.text "/" then ⟨dir.text ++ name⟩
  else ⟨dir.text ++ String.singleton '/' ++ name⟩

end PathBuf

structure EntryName (name : String) : Prop where
  filled : name ≠ ""
  single : '/' ∉ name.toList
  notSelf : name ≠ "."
  notUp : name ≠ ".."

instance (name : String) : Decidable (EntryName name) :=
  decidable_of_iff (name ≠ "" ∧ '/' ∉ name.toList ∧ name ≠ "." ∧ name ≠ "..")
    ⟨fun ⟨filled, single, notSelf, notUp⟩ => ⟨filled, single, notSelf, notUp⟩,
      fun named => ⟨named.filled, named.single, named.notSelf, named.notUp⟩⟩

namespace PathBuf

theorem ofPiece_entryName {name : String} (named : EntryName name) :
    Component.ofPiece name.toList = some (.normal name) := by
  have notEmpty : name.toList ≠ [] := fun same => named.filled (String.toList_inj.mp same)
  have notSelf : name.toList ≠ ['.'] := fun same => named.notSelf (String.toList_inj.mp same)
  have notUp : name.toList ≠ ['.', '.'] := fun same => named.notUp (String.toList_inj.mp same)
  simp [Component.ofPiece, notEmpty, notSelf, notUp, String.ofList_toList]

/-- Of two pieces or more the last does not matter. -/
theorem anchor_append (pieces : List (List Char)) (last other : List Char) (filled : pieces ≠ []) :
    anchor (pieces ++ [last]) = anchor (pieces ++ [other]) := by
  simp [anchor, List.head?_append_of_ne_nil _ filled]

/-- Nor does a further one, when the first is not empty. -/
theorem anchor_snoc (pieces : List (List Char)) (last : List Char) (filled : pieces ≠ [])
    (relative : pieces.head? ≠ some [] ∨ pieces.length ≠ 1) :
    anchor (pieces ++ [last]) = anchor pieces := by
  have length : 0 < pieces.length := List.length_pos_iff.mpr filled
  simp only [anchor, List.head?_append_of_ne_nil _ filled, List.length_append, List.length_singleton]
  split
  · rfl
  · rcases relative with notRoot | longer
    · simp [notRoot]
    · have further : pieces.length + 1 ≠ 1 := by omega
      simp only [longer, further, ne_eq, not_false_eq_true, and_true]

theorem filterMap_snoc {name : String} (named : EntryName name) (pieces : List (List Char)) :
    (pieces ++ [name.toList]).filterMap Component.ofPiece =
      pieces.filterMap Component.ofPiece ++ [.normal name] := by
  simp [List.filterMap_append, ofPiece_entryName named]

theorem components_join (dir : PathBuf) {name : String} (named : EntryName name) :
    (dir.join name).components = dir.components ++ [.normal name] := by
  have whole : name.toList.splitOn '/' = [name.toList] := List.splitOn_eq_singleton named.single
  have relative : Text.startsWith name "/" = false := by
    cases chars : name.toList with
    | nil => simp [Text.startsWith, chars]
    | cons c rest =>
        have other : ¬ '/' = c := fun same => named.single (by rw [chars, same]; exact List.mem_cons_self)
        simp [Text.startsWith, chars, List.isPrefixOf, other]
  unfold join
  rw [if_neg (by simp [relative])]
  by_cases empty : dir.text = ""
  · rw [if_pos (Or.inl empty)]
    have notEmpty : name.toList ≠ [] := fun same => named.filled (String.toList_inj.mp same)
    have notSelf : name.toList ≠ ['.'] := fun same => named.notSelf (String.toList_inj.mp same)
    have bare : anchor [name.toList] = [] := by simp [anchor, notEmpty, notSelf]
    have above : dir.components = [] := by simp [components, anchor, empty, Component.ofPiece]
    rw [above, components, empty, String.empty_append, whole, bare]
    exact filterMap_snoc named []
  · by_cases ended : Text.endsWith dir.text "/" = true
    · rw [if_pos (Or.inr ended)]
      obtain ⟨before, split⟩ := List.isSuffixOf_iff_suffix.mp ended
      have pieces : dir.text.toList.splitOn '/' = before.splitOn '/' ++ [[]] := by
        rw [← split]
        exact List.splitOn_append_cons_self before []
      have joined : (dir.text ++ name).toList.splitOn '/' = before.splitOn '/' ++ [name.toList] := by
        rw [String.toList_append, ← split, ← whole]
        simpa using List.splitOn_append_cons_self before name.toList
      simp only [components, pieces, joined]
      rw [filterMap_snoc named, anchor_append _ name.toList [] (List.splitOn_ne_nil _ _)]
      simp [Component.ofPiece]
    · rw [if_neg (not_or.mpr ⟨empty, ended⟩)]
      have joined : (dir.text ++ String.singleton '/' ++ name).toList.splitOn '/' =
          dir.text.toList.splitOn '/' ++ [name.toList] := by
        rw [Text.toList_join, List.splitOn_append_cons_self, whole]
      simp only [components, joined]
      rw [filterMap_snoc named, anchor_snoc _ _ (List.splitOn_ne_nil _ _) ?_, List.append_assoc]
      by_cases rooted : (dir.text.toList.splitOn '/').head? = some []
      · refine Or.inr fun single => empty (String.toList_inj.mp ?_)
        rw [← @List.intercalate_splitOn _ dir.text.toList _ _ '/']
        match dir.text.toList.splitOn '/', rooted, single with
        | [piece], rooted, _ => simpa [List.intercalate] using rooted
      · exact Or.inl rooted

theorem parent_join (dir : PathBuf) {name : String} (named : EntryName name) :
    (dir.join name).parent = some dir.components := by
  rw [parent, components_join dir named, List.getLast?_concat, List.dropLast_concat]

theorem components_join_inj (dir : PathBuf) {name other : String} (named : EntryName name)
    (alsoNamed : EntryName other) :
    (dir.join name).components = (dir.join other).components ↔ name = other := by
  rw [components_join dir named, components_join dir alsoNamed]
  simp

end PathBuf

end Syntra

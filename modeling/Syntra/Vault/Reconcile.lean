import Mathlib.Logic.Function.Basic
import Syntra.FramingPlatform
import Syntra.Vault

/-!
# The index at a start

`reconcile_vault_index` walks the directory of the vault and records each essence that the
index does not know.
-/

set_option autoImplicit false

namespace Syntra

structure VaultEntry where
  isFile : Bool
  /-- Nothing for a name that is not Unicode. -/
  stem : Option String
  extension : Option String
  content : Except IoError Bytes

structure IndexOutside where
  readable : Bool
  writable : Bool
  clock : Int

structure Reconciliation where
  index : Digest → Option ObjectRef
  found : Nat
  indexed : Nat
  problems : Nat

def VaultEntry.isEssence (entry : VaultEntry) : Bool :=
  entry.isFile && entry.extension == some essenceExtension

namespace Reconciliation

def start (index : Digest → Option ObjectRef) : Reconciliation :=
  { index, found := 0, indexed := 0, problems := 0 }

def find (state : Reconciliation) : Reconciliation := { state with found := state.found + 1 }

def problem (state : Reconciliation) : Reconciliation :=
  { state.find with problems := state.problems + 1 }

def record (state : Reconciliation) (hash : Digest) (envelope : ProcessedFile) (nowMs : Int) :
    Reconciliation :=
  { state.find with
    index := Function.update state.index hash (some (recordRef (state.index hash)
      envelope.originalName envelope.originalSize envelope.processedSize nowMs))
    indexed := state.indexed + 1 }

end Reconciliation

variable (P : Platform)

/-- A look-up that fails is taken for one that finds nothing. -/
def reconcileEntry (now : IndexOutside) (state : Reconciliation) (entry : VaultEntry) :
    Reconciliation :=
  if !entry.isEssence then state
  else
    match entry.stem with
    | none => state.problem
    | some stem =>
      match parseId stem with
      | .error _ => state.problem
      | .ok hash =>
        if now.readable && (state.index hash).isSome then state.find
        else
          match entry.content with
          | .error _ => state.problem
          | .ok bytes =>
            match P.decodeFile bytes with
            | .error _ => state.problem
            | .ok envelope =>
              if now.writable then state.record hash envelope now.clock else state.problem

def reconcileFrom (outside : Nat → IndexOutside) (state : Reconciliation) :
    List VaultEntry → Reconciliation
  | [] => state
  | entry :: entries =>
    reconcileFrom (fun n => outside (n + 1)) (reconcileEntry P (outside 0) state entry) entries

def reconcileVaultIndex (outside : Nat → IndexOutside) (index : Digest → Option ObjectRef)
    (entries : List VaultEntry) : Reconciliation :=
  reconcileFrom P outside (.start index) entries

/-! ## One entry -/

structure VaultEntry.Names (entry : VaultEntry) (hash : Digest) : Prop where
  essence : entry.isEssence = true
  parses : ∃ stem, entry.stem = some stem ∧ parseId stem = .ok hash

variable {P}

def VaultEntry.Holds (P : Platform) (entry : VaultEntry) (envelope : ProcessedFile) : Prop :=
  ∃ bytes, entry.content = .ok bytes ∧ P.decodeFile bytes = .ok envelope

variable {now : IndexOutside} {state : Reconciliation} {entry : VaultEntry}

structure IndexOutside.Calm (now : IndexOutside) : Prop where
  readable : now.readable = true
  writable : now.writable = true

/-- An entry is passed over, is known, is a problem, or is recorded. -/
theorem reconcileEntry_cases (P : Platform) (now : IndexOutside) (state : Reconciliation)
    (entry : VaultEntry) :
    (entry.isEssence = false ∧ reconcileEntry P now state entry = state) ∨
    (entry.isEssence = true ∧ reconcileEntry P now state entry = state.problem ∧
      (now.Calm → ∀ hash envelope, entry.Names hash → entry.Holds P envelope →
        (state.index hash).isSome = true)) ∨
    ∃ hash, entry.Names hash ∧
      ((now.readable = true ∧ (state.index hash).isSome = true ∧
          reconcileEntry P now state entry = state.find) ∨
        ∃ envelope, entry.Holds P envelope ∧
          (now.readable = true → state.index hash = none) ∧
          reconcileEntry P now state entry = state.record hash envelope now.clock) := by
  unfold reconcileEntry
  cases essence : entry.isEssence with
  | false => exact Or.inl ⟨rfl, rfl⟩
  | true =>
      right
      simp only [Bool.not_true, Bool.false_eq_true, if_false, true_and]
      cases named : entry.stem with
      | none =>
          refine Or.inl ⟨rfl, fun _ hash envelope names _ => ?_⟩
          obtain ⟨stem, same, -⟩ := names.parses
          rw [named] at same
          cases same
      | some stem =>
          dsimp only
          cases parsed : parseId stem with
          | error e =>
              refine Or.inl ⟨rfl, fun _ hash envelope names _ => ?_⟩
              obtain ⟨own, same, parses⟩ := names.parses
              rw [named] at same
              rw [← Option.some.inj same, parsed] at parses
              cases parses
          | ok hash =>
              have names : entry.Names hash := ⟨essence, stem, named, parsed⟩
              have only : ∀ other, entry.Names other → other = hash := by
                intro other otherNames
                obtain ⟨own, same, parses⟩ := otherNames.parses
                rw [named] at same
                rw [← Option.some.inj same, parsed] at parses
                exact (Except.ok.inj parses).symm
              dsimp only
              split
              · rename_i known
                rw [Bool.and_eq_true] at known
                exact Or.inr ⟨hash, names, Or.inl ⟨known.1, known.2, rfl⟩⟩
              · rename_i unknown
                have absent : now.readable = true → state.index hash = none := by
                  intro readable
                  simpa [readable] using unknown
                cases read : entry.content with
                | error e =>
                    refine Or.inl ⟨rfl, fun _ _ envelope _ holds => ?_⟩
                    obtain ⟨bytes, same, -⟩ := holds
                    rw [read] at same
                    cases same
                | ok bytes =>
                    dsimp only
                    cases decoded : P.decodeFile bytes with
                    | error e =>
                        refine Or.inl ⟨rfl, fun _ _ envelope _ holds => ?_⟩
                        obtain ⟨own, same, decodes⟩ := holds
                        rw [read] at same
                        rw [← Except.ok.inj same, decoded] at decodes
                        cases decodes
                    | ok envelope =>
                        dsimp only
                        split
                        · exact Or.inr ⟨hash, names, Or.inr
                            ⟨envelope, ⟨bytes, read, decoded⟩, absent, rfl⟩⟩
                        · rename_i unwritable
                          refine Or.inl ⟨rfl, fun calm => ?_⟩
                          exact absurd calm.writable unwritable

theorem reconcileEntry_known {hash : Digest} (known : (state.index hash).isSome = true) :
    ((reconcileEntry P now state entry).index hash).isSome = true := by
  rcases reconcileEntry_cases P now state entry with ⟨-, same⟩ | ⟨-, same, -⟩ |
    ⟨own, -, ⟨-, -, same⟩ | ⟨envelope, -, -, same⟩⟩
  · rwa [same]
  · rwa [same]
  · rwa [same]
  · rw [same, Reconciliation.record]
    dsimp only
    rw [Function.update_apply]
    split
    · rfl
    · exact known

/-- An essence that can be opened is known from then on. -/
theorem reconcileEntry_covers (calm : now.Calm) {hash : Digest} {envelope : ProcessedFile}
    (names : entry.Names hash) (holds : entry.Holds P envelope) :
    ((reconcileEntry P now state entry).index hash).isSome = true := by
  have only : ∀ other, entry.Names other → other = hash := by
    intro other otherNames
    obtain ⟨stem, named, parsed⟩ := names.parses
    obtain ⟨own, same, parses⟩ := otherNames.parses
    rw [named] at same
    rw [← Option.some.inj same, parsed] at parses
    exact (Except.ok.inj parses).symm
  rcases reconcileEntry_cases P now state entry with ⟨foreign, -⟩ | ⟨-, -, known⟩ |
    ⟨own, own_names, ⟨-, known, -⟩ | ⟨other, -, -, same⟩⟩
  · rw [names.essence] at foreign
    cases foreign
  · exact reconcileEntry_known (known calm hash envelope names holds)
  · exact reconcileEntry_known (only own own_names ▸ known)
  · rw [same, Reconciliation.record, only own own_names]
    simp

variable {outside : Nat → IndexOutside} {entries : List VaultEntry}

theorem reconcileFrom_known {hash : Digest} (known : (state.index hash).isSome = true) :
    ((reconcileFrom P outside state entries).index hash).isSome = true := by
  induction entries generalizing outside state with
  | nil => exact known
  | cons entry entries ih => exact ih (reconcileEntry_known known)

theorem reconcileFrom_covers (calm : ∀ n, (outside n).Calm) {hash : Digest}
    {envelope : ProcessedFile} (member : entry ∈ entries) (names : entry.Names hash)
    (holds : entry.Holds P envelope) :
    ((reconcileFrom P outside state entries).index hash).isSome = true := by
  induction entries generalizing outside state with
  | nil => cases member
  | cons own entries ih =>
      rcases List.mem_cons.mp member with rfl | later
      · rw [reconcileFrom]
        exact reconcileFrom_known (reconcileEntry_covers (calm 0) names holds)
      · exact ih (fun n => calm (n + 1)) later

def emptyEnvelope : ProcessedFile :=
  { version := 3, originalName := "a", originalNames := [], originalMime := ""
    originalSize := 0, processedSize := 0, savingsPct := 0, algorithm := 0
    compressionLevel := 0, dictionaryId := "", data := [], blocks := [], fileMetrics := none
    pointerTo := "", fileHash := emptyHash.val, refCount := 1, envelopeChecksum := 0
    createdAt := 0, updatedAt := 0, codec := 0, codecLevel := 0, transforms := []
    dictionary := none, contentClass := "", planReason := "", verified := false }

def emptyEntry : VaultEntry :=
  { isFile := true
    stem := some (pathFor emptyHash).stem
    extension := some (pathFor emptyHash).extension
    content := .ok (framingPlatform.encodeFile emptyEnvelope) }

end Syntra

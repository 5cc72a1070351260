import Mathlib.Data.List.TakeWhile
import Syntra.Lib.FileSystem
import Syntra.Lib.Text
import Syntra.Platform

/-!
# The vault

One file for each content, named by its hash in a directory named by the first
digits.
-/

set_option autoImplicit false

namespace Syntra

open Text FileSystem

structure FilePath where
  directory : List String
  stem : String
  extension : String
  deriving Repr, DecidableEq

def FilePath.withExtension (path : FilePath) (extension : String) : FilePath :=
  { path with extension }

def essenceExtension : String := "syntra"

def pathFor (hash : Digest) : FilePath :=
  let h := hexEncode hash.val
  { directory := [String.ofList (h.toList.take 2), String.ofList ((h.toList.drop 2).take 2)]
    stem := h
    extension := essenceExtension }

structure ObjectRef where
  refs : Nat
  originalSize : Nat
  essenceSize : Nat
  createdAtMs : Int
  updatedAtMs : Int
  names : List String
  deriving Repr, DecidableEq

def maxTrackedNames : Nat := 32

/-- The entry that `record` writes over the one it found. -/
def recordRef (existing : Option ObjectRef) (name : String) (originalSize essenceSize : Nat)
    (nowMs : Int) : ObjectRef :=
  match existing with
  | some r =>
    { r with
      refs := min (r.refs + 1) (2 ^ 32 - 1)
      updatedAtMs := nowMs
      names := if name ≠ "" ∧ name ∉ r.names ∧ r.names.length < maxTrackedNames then
          r.names ++ [name]
        else r.names }
  | none =>
    { refs := 1
      originalSize
      essenceSize
      createdAtMs := nowMs
      updatedAtMs := nowMs
      names := if name = "" then [] else [name] }

def invalidId : String := "identificador inválido: esperado hash BLAKE3 de 64 dígitos hexadecimais"

def isHexDigit (c : Char) : Bool :=
  ('0' ≤ c && c ≤ '9') || ('a' ≤ c && c ≤ 'f') || ('A' ≤ c && c ≤ 'F')

/-- The hash of an id, which may carry the extension of a file or a suffix after
an underscore. -/
def parseId (id : String) : Except String Digest :=
  let chars := id.toList
  let extension := ("." ++ essenceExtension).toList
  let cleaned := if extension.isSuffixOf chars then chars.take (chars.length - extension.length)
    else chars
  let hexPart := cleaned.takeWhile (· ≠ '_')
  if hexPart.length ≠ 64 || !hexPart.all isHexDigit then .error invalidId
  else
    match hexDecode (hexPart.map Char.toLower) with
    | some bytes =>
      if whole : bytes.length = 32 then .ok ⟨bytes, whole⟩
      else .error "identificador não é hexadecimal válido"
    | none => .error "identificador não é hexadecimal válido"

def writeAtomic (path : FilePath) (bytes : Bytes) : Action FilePath Unit :=
  let tmp := path.withExtension "syntra.tmp"
  andThen (writeFile tmp bytes) fun _ => send (.rename tmp path)

theorem lowerHexDigit_plain : ∀ c ∈ "0123456789abcdef".toList,
    isHexDigit c = true ∧ c ≠ '_' ∧ c ≠ '.' ∧ Char.toLower c = c := by
  have all : "0123456789abcdef".toList.all (fun c => isHexDigit c && decide (c ≠ '_') &&
      decide (c ≠ '.') && decide (Char.toLower c = c)) = true := by decide
  intro c member
  have plain := List.all_eq_true.mp all c member
  simp only [Bool.and_eq_true, decide_eq_true_eq] at plain
  tauto

theorem parseId_hexEncode (hash : Digest) : parseId (hexEncode hash.val) = .ok hash := by
  have chars : (hexEncode hash.val).toList = hexDigits hash.val := by
    simp [hexEncode]
  have plain : ∀ c ∈ hexDigits hash.val, isHexDigit c = true ∧ c ≠ '_' ∧ c ≠ '.' ∧
      Char.toLower c = c := fun c member => lowerHexDigit_plain c (mem_hexDigits member)
  have length : (hexDigits hash.val).length = 64 := by
    rw [length_hexDigits, hash.property]
  have noExtension : ("." ++ essenceExtension).toList.isSuffixOf (hexDigits hash.val) = false := by
    rw [← Bool.not_eq_true, List.isSuffixOf_iff_suffix]
    intro suffix
    exact (plain '.' (suffix.subset (by decide))).2.2.1 rfl
  have noSuffix : (hexDigits hash.val).takeWhile (· ≠ '_') = hexDigits hash.val := by
    rw [List.takeWhile_eq_self_iff]
    intro c member
    simpa using (plain c member).2.1
  have allHex : (hexDigits hash.val).all isHexDigit = true :=
    List.all_eq_true.mpr fun c member => (plain c member).1
  have lower : (hexDigits hash.val).map Char.toLower = hexDigits hash.val := by
    conv_rhs => rw [← List.map_id (hexDigits hash.val)]
    exact List.map_congr_left fun c member => (plain c member).2.2.2
  simp only [parseId, chars, noExtension, Bool.false_eq_true, if_false, noSuffix, length, allHex,
    ne_eq, not_true_eq_false, decide_false, Bool.not_true, Bool.or_self, lower,
    hexDecode_hexDigits, hash.property, dite_true]

end Syntra

import Mathlib.Logic.Function.Basic
import Mathlib.Tactic.Common
import Syntra.Lib.Program

/-!
# Files

A file system of inodes: a name leads to an inode, an open file keeps its inode
whatever happens to the name, and a write takes some of the bytes it is given.
-/

set_option autoImplicit false

/-- `accepts` says how many bytes the writes to come take, each at least one.
There are no links: an inode has one name at most. -/
structure FileSystem (path : Type) where
  contents : Nat → List UInt8
  entry : path → Option Nat
  fresh : Nat
  accepts : Nat → Nat
  used : ∀ name inode, entry name = some inode → inode < fresh
  single : ∀ name other inode, entry name = some inode → entry other = some inode → name = other

namespace FileSystem

structure File where
  inode : Nat
  position : Nat
  deriving Repr, DecidableEq

inductive Error where
  | notFound
  | writeZero
  deriving Repr, DecidableEq

inductive Request (path : Type) where
  | create (name : path)
  | write (file : File) (bytes : List UInt8)
  | rename (source target : path)
  | read (name : path)
  deriving Repr, DecidableEq

variable {path : Type}

abbrev Request.Reply : Request path → Type
  | .create _ => File
  | .write _ _ => Nat
  | .rename _ _ => Unit
  | .read _ => List UInt8

abbrev Request.Answer (request : Request path) : Type := Except Error request.Reply

abbrev Action (path α : Type) := Program (Request path) Request.Answer (Except Error α)

/-- A write past the end leaves zeros between. -/
def writeAt (contents : List UInt8) (position : Nat) (bytes : List UInt8) : List UInt8 :=
  contents.take position ++ List.replicate (position - contents.length) 0 ++ bytes ++
    contents.drop (position + bytes.length)

def taken (fs : FileSystem path) (bytes : List UInt8) : Nat :=
  min bytes.length (max 1 (fs.accepts 0))

variable [DecidableEq path]

/-- A new inode under a name. -/
def link (fs : FileSystem path) (name : path) : FileSystem path where
  contents := Function.update fs.contents fs.fresh []
  entry := Function.update fs.entry name (some fs.fresh)
  fresh := fs.fresh + 1
  accepts := fs.accepts
  used := by
    intro other inode found
    by_cases same : other = name
    · rw [same, Function.update_self, Option.some.injEq] at found
      omega
    · rw [Function.update_of_ne same] at found
      exact Nat.lt_succ_of_lt (fs.used other inode found)
  single := by
    intro first second inode found again
    by_cases isFirst : first = name <;> by_cases isSecond : second = name
    · exact isFirst.trans isSecond.symm
    · rw [isFirst, Function.update_self, Option.some.injEq] at found
      rw [Function.update_of_ne isSecond] at again
      exact absurd (fs.used second inode again) (by omega)
    · rw [isSecond, Function.update_self, Option.some.injEq] at again
      rw [Function.update_of_ne isFirst] at found
      exact absurd (fs.used first inode found) (by omega)
    · rw [Function.update_of_ne isFirst] at found
      rw [Function.update_of_ne isSecond] at again
      exact fs.single first second inode found again

def move (fs : FileSystem path) (source target : path) : FileSystem path where
  contents := fs.contents
  entry name := if name = target then fs.entry source
    else if name = source then none else fs.entry name
  fresh := fs.fresh
  accepts := fs.accepts
  used := by
    intro name inode found
    split at found
    · exact fs.used source inode found
    · split at found
      · simp at found
      · exact fs.used name inode found
  single := by
    intro first second inode found again
    split at found <;> split at again
    · simp_all
    · split at again
      · simp at again
      · rename_i other
        exact absurd (fs.single second source inode again found) other
    · split at found
      · simp at found
      · rename_i other
        exact absurd (fs.single first source inode found again) other
    · split at found
      · simp at found
      · split at again
        · simp at again
        · exact fs.single first second inode found again

def perform (fs : FileSystem path) : (request : Request path) → request.Answer × FileSystem path
  | .create name =>
    match fs.entry name with
    | some inode =>
      (.ok ⟨inode, 0⟩, { fs with contents := Function.update fs.contents inode [] })
    | none => (.ok ⟨fs.fresh, 0⟩, fs.link name)
  | .write file bytes =>
    (.ok (fs.taken bytes),
      { fs with
        contents := Function.update fs.contents file.inode
          (writeAt (fs.contents file.inode) file.position (bytes.take (fs.taken bytes)))
        accepts := fun later => fs.accepts (later + 1) })
  | .rename source target =>
    match fs.entry source with
    | none => (.error .notFound, fs)
    | some _ => (.ok (), fs.move source target)
  | .read name =>
    match fs.entry name with
    | none => (.error .notFound, fs)
    | some inode => (.ok (fs.contents inode), fs)

omit [DecidableEq path]

def send (request : Request path) : Action path request.Reply := Program.ask request

def andThen {α β : Type} (first : Action path α) (next : α → Action path β) : Action path β :=
  Program.attempt first id next

/-- `write_all`: writes until nothing is left, for `fuel` writes at most. -/
def writeAll : Nat → File → List UInt8 → Action path Unit
  | 0, _, _ => .done (.ok ())
  | fuel + 1, file, bytes =>
    if bytes.isEmpty then .done (.ok ())
    else andThen (send (.write file bytes)) fun
      | 0 => .done (.error .writeZero)
      | count + 1 => writeAll fuel ⟨file.inode, file.position + (count + 1)⟩ (bytes.drop (count + 1))

/-- `fs::write`; as every write takes a byte, one write for each is enough. -/
def writeFile (name : path) (bytes : List UInt8) : Action path Unit :=
  andThen (send (.create name)) fun file => writeAll bytes.length file bytes

/-! ## Facts -/

theorem writeAt_end (contents bytes : List UInt8) :
    writeAt contents contents.length bytes = contents ++ bytes := by
  have past : contents.drop (contents.length + bytes.length) = [] :=
    List.drop_eq_nil_of_le (by omega)
  rw [writeAt, List.take_length, Nat.sub_self, past]
  simp

theorem taken_pos (fs : FileSystem path) (bytes : List UInt8) (filled : bytes ≠ []) :
    0 < fs.taken bytes := by
  have := List.length_pos_iff.mpr filled
  unfold taken
  omega

end FileSystem

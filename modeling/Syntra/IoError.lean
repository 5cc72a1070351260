import Syntra.Lib.Fallible
import Syntra.Proto

/-!
# I/O errors

The kinds and payloads of `std::io::Error` that the engine builds or inspects.
-/

set_option autoImplicit false

namespace Syntra

open Fallible

inductive IoError where
  | invalidData (message : String)
  | invalidInput (message : String)
  | unexpectedEof (message : String)
  | other (message : String)
  | decompressedTooLarge (limit : Nat)
  | zstdWindowTooLarge (window max : Nat)
  deriving Repr, DecidableEq

namespace IoError

/-- The `Display` text of the error. -/
def text : IoError → String
  | invalidData message | invalidInput message | unexpectedEof message | other message => message
  | decompressedTooLarge limit => s!"a saída descomprimida excede o teto de {limit} bytes"
  | zstdWindowTooLarge window max =>
    s!"a janela do quadro zstd ({window} bytes) excede o máximo de {max} bytes permitido para este envelope"

end IoError

def tooLarge (limit : Nat) : IoError := .decompressedTooLarge limit

def tooLargeLimit : IoError → Option Nat
  | .decompressedTooLarge limit => some limit
  | _ => none

def invalid (message : String) : IoError := .invalidData message

/-- `u64::saturating_add`, and `usize::saturating_add` on 64-bit targets. -/
def saturatingAdd (left right : Nat) : Nat := min (left + right) (2 ^ 64 - 1)

theorem saturatingAdd_of_lt {left right : Nat} (fits : left + right < 2 ^ 64) :
    saturatingAdd left right = left + right := by
  unfold saturatingAdd
  omega

def checkLen (len limit : Nat) : Except IoError Unit :=
  rejectIf (limit < len) (tooLarge limit)

theorem checkLen_of_le {len limit : Nat} (fits : len ≤ limit) :
    checkLen len limit = .ok () :=
  rejectIf_of_not (by omega)

theorem checkLen_of_lt {len limit : Nat} (exceeds : limit < len) :
    checkLen len limit = .error (tooLarge limit) :=
  rejectIf_of exceeds

end Syntra

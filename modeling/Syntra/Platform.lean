import Syntra.Codec
import Syntra.Content

/-!
# What the engine is given

The libraries the engine calls, as one parameter of the model.
-/

set_option autoImplicit false

namespace Syntra

abbrev Digest := { bytes : Bytes // bytes.length = 32 }

structure Platform where
  codecs : Codecs
  floats : Floats
  infer : Bytes → Option String
  blake3 : Bytes → Digest
  /-- `zstd::dict::from_samples`; `none` stands for its error. -/
  zstdTrain : (samples : List Bytes) → (target : Nat) → Option Bytes
  encodeFile : ProcessedFile → Bytes
  decodeFile : Bytes → Except String ProcessedFile
  decodeFooter : Bytes → Except String FooterV4
  /-- `1 - part / whole`, in percent, as the `float` of the envelope. -/
  savingsPct : (part whole : Nat) → F32
  /-- `part / whole`. -/
  ratio : (part whole : Nat) → F64
  addMs : F64 → F64 → F64
  /-- Bytes over milliseconds, in MiB/s; zero when no time passed. -/
  throughput : (bytes : Nat) → (durationMs : F64) → F64

end Syntra

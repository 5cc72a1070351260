import Mathlib.Algebra.Order.Ring.Nat
import Mathlib.Tactic.Common

/-!
# The messages of `engine.proto`

Field for field as the generated structs hold them: enumerations travel as
`int32`, so a message may carry a number no enumeration has.  Floating-point
fields are kept as their bit patterns.
-/

set_option autoImplicit false

namespace Syntra

abbrev Bytes := List UInt8

abbrev F32 := UInt32
abbrev F64 := UInt64

inductive Algorithm where
  | auto | zstdFast | zstdBalanced | zstdMax | lz4 | passthrough
  deriving Repr, DecidableEq

inductive Codec where
  | unspecified | stored | lz4 | zstd | brotli | xz | bzip2 | deflate
  deriving Repr, DecidableEq

inductive Transform where
  | unspecified | delta | byteSplit | rle | csvColumnar
  deriving Repr, DecidableEq

def Algorithm.toI32 : Algorithm → Int
  | .auto => 0
  | .zstdFast => 1
  | .zstdBalanced => 2
  | .zstdMax => 3
  | .lz4 => 4
  | .passthrough => 5

def Algorithm.tryFrom : Int → Option Algorithm
  | 0 => some .auto
  | 1 => some .zstdFast
  | 2 => some .zstdBalanced
  | 3 => some .zstdMax
  | 4 => some .lz4
  | 5 => some .passthrough
  | _ => none

def Codec.toI32 : Codec → Int
  | .unspecified => 0
  | .stored => 1
  | .lz4 => 2
  | .zstd => 3
  | .brotli => 4
  | .xz => 5
  | .bzip2 => 6
  | .deflate => 7

def Codec.tryFrom : Int → Option Codec
  | 0 => some .unspecified
  | 1 => some .stored
  | 2 => some .lz4
  | 3 => some .zstd
  | 4 => some .brotli
  | 5 => some .xz
  | 6 => some .bzip2
  | 7 => some .deflate
  | _ => none

def Transform.toI32 : Transform → Int
  | .unspecified => 0
  | .delta => 1
  | .byteSplit => 2
  | .rle => 3
  | .csvColumnar => 4

def Transform.tryFrom : Int → Option Transform
  | 0 => some .unspecified
  | 1 => some .delta
  | 2 => some .byteSplit
  | 3 => some .rle
  | 4 => some .csvColumnar
  | _ => none

@[simp] theorem Codec.tryFrom_toI32 (codec : Codec) : Codec.tryFrom codec.toI32 = some codec := by
  cases codec <;> rfl

@[simp] theorem Transform.tryFrom_toI32 (transform : Transform) :
    Transform.tryFrom transform.toI32 = some transform := by
  cases transform <;> rfl

structure TransformStep where
  transform : Int
  width : Nat
  inputLen : Nat
  deriving Repr, DecidableEq

structure DictionaryRef where
  id : String
  digest : Bytes
  size : Nat
  deriving Repr, DecidableEq

structure Block where
  data : Bytes
  algorithm : Int
  hash : Bytes
  deduplicated : Bool
  originalLen : Nat
  codec : Int
  codecLevel : Int
  deriving Repr, DecidableEq

structure FileMetrics where
  throughputMbps : F64
  compressionRatio : F64
  dedupSavingsBytes : Nat
  processingTimeMs : F64
  algorithmUsed : String
  strategyReason : String
  candidatesTried : Nat
  reconstructMs : F64
  deriving Repr, DecidableEq

structure ProcessedFile where
  version : Int
  originalName : String
  originalNames : List String
  originalMime : String
  originalSize : Nat
  processedSize : Nat
  savingsPct : F32
  algorithm : Int
  compressionLevel : Int
  dictionaryId : String
  data : Bytes
  blocks : List Block
  fileMetrics : Option FileMetrics
  pointerTo : String
  fileHash : Bytes
  refCount : Nat
  envelopeChecksum : Nat
  createdAt : Int
  updatedAt : Int
  codec : Int
  codecLevel : Int
  transforms : List TransformStep
  dictionary : Option DictionaryRef
  contentClass : String
  planReason : String
  verified : Bool
  deriving Repr, DecidableEq

structure BlockPlanV4 where
  transforms : List TransformStep
  codec : Int
  codecLevel : Int
  dictionary : Option DictionaryRef
  deriving Repr, DecidableEq

structure FooterV4 where
  headerFlags : Nat
  blockSizeLog2 : Nat
  originalSize : Nat
  fileHash : Bytes
  plans : List BlockPlanV4
  blockCount : Nat
  storedLens : Bytes
  originalLens : Bytes
  planIndices : Bytes
  payloadHashes : Bytes
  originalName : String
  originalNames : List String
  originalMime : String
  contentClass : String
  planReason : String
  verified : Bool
  createdAt : Int
  updatedAt : Int
  fileMetrics : Option FileMetrics
  deriving Repr, DecidableEq

end Syntra

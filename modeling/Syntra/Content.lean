import Syntra.Lib.Text
import Syntra.Transform.Csv

/-!
# Content classification

The mime type, the class that selects the candidate plans and the key under
which dictionaries are trained.  The floating-point measures of a sample and
the tests on them are a parameter, as is the library that sniffs file
signatures.
-/

set_option autoImplicit false

namespace Syntra

open Text

/-- What the engine measures in floating point, the comparisons and the formatting. -/
structure Floats where
  shannonEntropy : Bytes → F64
  printableRatio : Bytes → F64
  entropyAtLeast794 : F64 → Bool
  entropyBelow2 : F64 → Bool
  printableAbove88 : F64 → Bool
  printableAbove90 : F64 → Bool
  /-- `markers as f64 / len as f64 > 0.04`. -/
  markersAbove4 : (markers len : Nat) → Bool
  /-- The match rate at a lag beats its thresholds and the best lag so far. -/
  strideBeats : Bytes → (lag : Nat) → (best : Option Nat) → Bool
  /-- `part * 100 / whole` with one decimal place. -/
  percent : (part whole : Nat) → String

/-! ## Mime types -/

def fileExtension (filename : String) : Option String :=
  (Text.rsplitOnce '.' filename).map (·.2)

def mimeExtensions : List (String × String) :=
  [("json", "application/json"), ("jsonl", "application/x-ndjson"),
   ("ndjson", "application/x-ndjson"), ("csv", "text/csv"),
   ("tsv", "text/tab-separated-values"), ("log", "text/plain"), ("txt", "text/plain"),
   ("md", "text/markdown"), ("xml", "application/xml"), ("html", "text/html"),
   ("htm", "text/html"), ("css", "text/css"), ("js", "text/javascript"),
   ("ts", "text/typescript"), ("yaml", "application/yaml"), ("yml", "application/yaml"),
   ("toml", "application/toml"), ("sql", "application/sql"), ("rs", "text/x-rust"),
   ("py", "text/x-python"), ("go", "text/x-go"), ("java", "text/x-java"), ("c", "text/x-c"),
   ("h", "text/x-c"), ("cpp", "text/x-c++"), ("svg", "image/svg+xml"),
   ("parquet", "application/vnd.apache.parquet"), ("orc", "application/vnd.apache.orc"),
   ("avro", "application/vnd.apache.avro"), ("arrow", "application/vnd.apache.arrow"),
   ("protobuf", "application/x-protobuf"), ("pb", "application/x-protobuf"),
   ("npy", "application/x-numpy"), ("bin", "application/octet-stream"),
   ("dat", "application/octet-stream"), ("pdf", "application/pdf"),
   ("xlsx", "application/vnd.openxmlformats-officedocument.spreadsheetml.sheet"),
   ("docx", "application/vnd.openxmlformats-officedocument.wordprocessingml.document"),
   ("pptx", "application/vnd.openxmlformats-officedocument.presentationml.presentation"),
   ("png", "image/png"), ("jpg", "image/jpeg"), ("jpeg", "image/jpeg"), ("gif", "image/gif"),
   ("webp", "image/webp"), ("bmp", "image/bmp"), ("tiff", "image/tiff"), ("tif", "image/tiff"),
   ("avif", "image/avif"), ("heic", "image/heic"), ("heif", "image/heif"),
   ("wav", "audio/wav"), ("flac", "audio/flac"), ("mp3", "audio/mpeg"), ("aac", "audio/aac"),
   ("opus", "audio/opus"), ("mp4", "video/mp4"), ("mkv", "video/x-matroska"),
   ("webm", "video/webm"), ("zip", "application/zip"), ("gz", "application/gzip"),
   ("bz2", "application/x-bzip2"), ("xz", "application/x-xz"), ("zst", "application/zstd"),
   ("7z", "application/x-7z-compressed"), ("rar", "application/vnd.rar"),
   ("syntra", "application/x-syntra-essence")]

def sampleBudget : Nat := 3 * 1024 * 1024

def sampleOf (data : Bytes) : Bytes :=
  if data.length ≤ sampleBudget then data
  else (data.drop ((data.length - sampleBudget) / 2)).take sampleBudget

def isStructuredTextMime (mime : String) : Bool :=
  ["json", "xml", "yaml", "toml", "html", "sql", "csv", "tab-separated"].any (contains mime)

def isPreCompressedMime (mime : String) : Bool :=
  mime ∈ ["application/zip", "application/gzip", "application/x-bzip2", "application/x-xz",
      "application/zstd", "application/x-7z-compressed", "application/vnd.rar",
      "application/x-syntra-essence"] ||
    startsWith mime "application/vnd.openxmlformats" ||
    startsWith mime "application/vnd.oasis.opendocument"

def isMediaMime (mime : String) : Bool :=
  startsWith mime "video/" || startsWith mime "audio/" ||
    mime ∈ ["image/jpeg", "image/png", "image/gif", "image/webp", "image/avif", "image/heic",
      "image/heif"]

def compressedMagics : List Bytes :=
  [[0x50, 0x4B, 0x03, 0x04], [0x1f, 0x8b], [0x42, 0x5A, 0x68],
   [0xfd, 0x37, 0x7A, 0x58, 0x5A, 0x00], [0x28, 0xb5, 0x2f, 0xfd],
   [0x37, 0x7A, 0xbc, 0xaf, 0x27, 0x1c], [0x52, 0x61, 0x72, 0x21, 0x1a, 0x07],
   [0x04, 0x22, 0x4d, 0x18]]

def hasCompressedMagic (data : Bytes) : Bool :=
  compressedMagics.any (fun magic => magic.isPrefixOf data)

/-! ## Classes -/

inductive ContentClass where
  | tabular | structuredText | plainText | numericBinary | binary | preCompressed | media
  | incompressible
  deriving Repr, DecidableEq

def ContentClass.asStr : ContentClass → String
  | .tabular => "tabular"
  | .structuredText => "structured_text"
  | .plainText => "plain_text"
  | .numericBinary => "numeric_binary"
  | .binary => "binary"
  | .preCompressed => "pre_compressed"
  | .media => "media"
  | .incompressible => "incompressible"

structure ContentProfile where
  mime : String
  contentClass : ContentClass
  size : Nat
  entropy : F64
  printable : F64
  tabular : Option (UInt8 × Nat)
  stride : Option Nat
  dictionaryKey : String
  deriving Repr, DecidableEq

def dictionaryKeyFor (mime : String) (contentClass : ContentClass) : String :=
  match contentClass with
  | .incompressible | .media | .preCompressed => ""
  | _ => mime

variable (F : Floats) (infer : Bytes → Option String)

def detectMime (data : Bytes) (filename : String) : String :=
  match (fileExtension filename).bind fun ext => mimeExtensions.lookup (toAsciiLowercase ext) with
  | some mime => mime
  | none =>
    match if data.isEmpty then none else infer data with
    | some mime => mime
    | none =>
      if !data.isEmpty && F.printableAbove90 (F.printableRatio (sampleOf data)) then "text/plain"
      else "application/octet-stream"

/-- The bytes that structured text is full of. -/
def isMarker (b : UInt8) : Bool :=
  b ∈ ([0x7B, 0x7D, 0x5B, 0x5D, 0x3C, 0x3E, 0x3A, 0x22, 0x3D] : List UInt8)

def looksStructured (sample : Bytes) : Bool :=
  let head := sample.take (64 * 1024)
  if head.isEmpty then false else F.markersAbove4 (head.countP isMarker) head.length

def detectStride (sample : Bytes) : Option Nat :=
  let probe := sample.take (256 * 1024)
  if probe.length < 512 then none
  else [2, 4, 8].foldl (fun best lag => if F.strideBeats probe lag best then some lag else best)
    none

def classify (data : Bytes) (filename : String) (mimeHint : Option String) : ContentProfile :=
  let mime := match mimeHint with
    | some hint =>
      if hint ≠ "" ∧ hint ≠ "application/octet-stream" then hint
      else detectMime F infer data filename
    | none => detectMime F infer data filename
  let sample := sampleOf data
  let entropy := F.shannonEntropy sample
  let printable := F.printableRatio sample
  let stride := detectStride F sample
  let mimeIsText := startsWith mime "text/" || isStructuredTextMime mime
  let (contentClass, tabular) : ContentClass × Option (UInt8 × Nat) :=
    if data.isEmpty then (.binary, none)
    else if isPreCompressedMime mime || hasCompressedMagic data then (.preCompressed, none)
    else if isMediaMime mime then (.media, none)
    else if F.entropyAtLeast794 entropy then (.incompressible, none)
    else if stride.isSome && !mimeIsText then (.numericBinary, none)
    else if F.printableAbove88 printable then
      match csvDetect data with
      | some table => (.tabular, some table)
      | none =>
        if mimeIsText || looksStructured F sample then (.structuredText, none)
        else (.plainText, none)
    else if stride.isSome then (.numericBinary, none)
    else (.binary, none)
  { mime, contentClass, size := data.length, entropy, printable, tabular
    stride := if contentClass = .numericBinary then stride else none
    dictionaryKey := dictionaryKeyFor mime contentClass }

theorem classify_size (data : Bytes) (filename : String) (mimeHint : Option String) :
    (classify F infer data filename mimeHint).size = data.length := rfl

end Syntra

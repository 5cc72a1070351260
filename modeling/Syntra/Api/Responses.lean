import Syntra.Api.Params
import Syntra.Lib.Percent
import Syntra.Planner.Measure
import Syntra.Service

/-!
# Responses

What the routes of objects answer with: their headers, none of which can break out of
its line, and the views of their bodies.
-/

set_option autoImplicit false

namespace Syntra

namespace Api

open Text

/-! ## Headers -/

/-- `HeaderValue::from_str` takes tabs and the bytes from 32 on but 127; a character
beyond ASCII has only bytes from 128 on. -/
def headerChar (c : Char) : Bool := (' ' ≤ c && c.toNat != 127) || c == '\t'

structure HeaderValue where
  text : String
  visible : text.toList.all headerChar = true
  deriving DecidableEq

def HeaderValue.fromStr (text : String) : Option HeaderValue :=
  if visible : text.toList.all headerChar = true then some ⟨text, visible⟩ else none

abbrev ResponseHeaders := List (String × HeaderValue)

/-- `HeaderMap::insert`, in place of what the name had. -/
def ResponseHeaders.insert (headers : ResponseHeaders) (name : String) (value : HeaderValue) :
    ResponseHeaders :=
  headers.filter (·.1 ≠ name) ++ [(name, value)]

/-- A value that is no header value is left out. -/
def insertText (headers : ResponseHeaders) (pair : String × String) : ResponseHeaders :=
  match HeaderValue.fromStr pair.2 with
  | some value => headers.insert pair.1 value
  | none => headers

/-- `header_map` keeps the printable characters of a value that is no header value. -/
def safeText (value : String) : String :=
  String.ofList (value.toList.filter fun c => isGraphic c || c == ' ')

def headerMap (pairs : List (String × String)) : ResponseHeaders :=
  pairs.foldl (fun headers pair =>
    match HeaderValue.fromStr pair.2 with
    | some value => headers.insert pair.1 value
    | none => insertText headers (pair.1, safeText pair.2)) []

def isNameChar (c : Char) : Bool :=
  isAsciiAlphanumeric c || c == '.' || c == '_' || c == '-' || c == ' ' || c == '(' || c == ')'

/-- The name for clients that read ASCII only. -/
def asciiName (filename : String) : List Char :=
  let ascii := filename.toList.map fun c => if isNameChar c then c else '_'
  if ascii.any isAsciiAlphanumeric then ascii else "download".toList

def isAscii (text : String) : Bool := text.toList.all fun c => c.toNat < 128

def contentDisposition (filename : String) : String :=
  let ascii := String.ofList (asciiName filename)
  if isAscii filename then "attachment; filename=\"" ++ ascii ++ "\""
  else
    "attachment; filename=\"" ++ ascii ++ "\"; filename*=UTF-8''" ++
      String.ofList (percentEncode (utf8 filename))

theorem isNameChar_asciiName {filename : String} {c : Char} (member : c ∈ asciiName filename) :
    isNameChar c = true := by
  unfold asciiName at member
  dsimp only at member
  split at member
  · obtain ⟨own, -, rfl⟩ := List.mem_map.mp member
    split
    · assumption
    · decide
  · have plain : "download".toList.all isNameChar = true := by decide
    exact List.all_eq_true.mp plain c member

theorem asciiName_of_plain {filename : String} (plain : filename.toList.all isNameChar = true)
    (named : filename.toList.any isAsciiAlphanumeric = true) :
    asciiName filename = filename.toList := by
  have kept : (filename.toList.map fun c => if isNameChar c then c else '_') =
      filename.toList := by
    conv_rhs => rw [← List.map_id filename.toList]
    exact List.map_congr_left fun c member => if_pos (List.all_eq_true.mp plain c member)
  unfold asciiName
  dsimp only
  rw [kept, if_pos named]

theorem isNameChar_quoted {c : Char} (name : isNameChar c = true) :
    c ∉ ['"', '\\', '/', '\r', '\n'] := by
  intro member
  simp only [List.mem_cons, List.not_mem_nil, or_false] at member
  rcases member with rfl | rfl | rfl | rfl | rfl <;>
  · revert name
    decide

theorem headerChar_of_ascii {c : Char}
    (plain : isNameChar c = true ∨ isAsciiAlphanumeric c = true ∨ c = '%') :
    headerChar c = true := by
  have range : ∀ low high : Char, ' ' ≤ low → high.toNat < 127 → low ≤ c ∧ c ≤ high →
      headerChar c = true := by
    intro low high visible short inside
    have below : c.toNat ≤ high.toNat := inside.2
    have printed : ' ' ≤ c := Char.le_trans visible inside.1
    have other : c.toNat ≠ 127 := by omega
    simp [headerChar, printed, other]
  have alphanumeric : isAsciiAlphanumeric c = true → headerChar c = true := by
    simp only [isAsciiAlphanumeric, Bool.or_eq_true, Bool.and_eq_true, decide_eq_true_eq]
    rintro ((lower | upper) | digit)
    · exact range 'a' 'z' (by decide) (by decide) lower
    · exact range 'A' 'Z' (by decide) (by decide) upper
    · exact range '0' '9' (by decide) (by decide) digit
  rcases plain with named | plain | rfl
  · simp only [isNameChar, Bool.or_eq_true, beq_iff_eq] at named
    rcases named with (((((plain | rfl) | rfl) | rfl) | rfl) | rfl) | rfl
    · exact alphanumeric plain
    all_goals decide
  · exact alphanumeric plain
  · decide

theorem fromStr_isSome {text : String} (visible : text.toList.all headerChar = true) :
    (HeaderValue.fromStr text).isSome = true := by
  rw [HeaderValue.fromStr, dif_pos visible]
  rfl

theorem fromStr_contentDisposition (filename : String) :
    (HeaderValue.fromStr (contentDisposition filename)).isSome = true := by
  have quoted : (asciiName filename).all headerChar = true := List.all_eq_true.mpr
    fun c member => headerChar_of_ascii (Or.inl (isNameChar_asciiName member))
  have encoded : (percentEncode (utf8 filename)).all headerChar = true := List.all_eq_true.mpr
    fun c member => headerChar_of_ascii (Or.inr (percentEncode_plain member))
  refine fromStr_isSome ?_
  unfold contentDisposition
  dsimp only
  split
  · simp only [String.toList_append, String.toList_ofList, List.all_append, quoted]
    decide
  · simp only [String.toList_append, String.toList_ofList, List.all_append, quoted, encoded]
    decide

/-- The name is quoted with its foreign characters replaced, a name of plain characters
as it is; a name beyond ASCII comes whole beside it; and the value is a header value. -/
theorem contentDisposition_reads (filename : String) :
    ∃ rest, contentDisposition filename =
        "attachment; filename=\"" ++ String.ofList (asciiName filename) ++ "\"" ++ rest ∧
      (∀ c ∈ asciiName filename, isNameChar c = true ∧ c ∉ ['"', '\\', '/', '\r', '\n']) ∧
      (filename.toList.all isNameChar = true → filename.toList.any isAsciiAlphanumeric = true →
        asciiName filename = filename.toList) ∧
      (isAscii filename = true ∧ rest = "" ∨
        ∃ encoded, rest = "; filename*=UTF-8''" ++ String.ofList encoded ∧
          (∀ c ∈ encoded, isAsciiAlphanumeric c = true ∨ c = '%') ∧
          percentDecode encoded = some (utf8 filename)) ∧
      (HeaderValue.fromStr (contentDisposition filename)).isSome = true := by
  have quoted : ∀ c ∈ asciiName filename,
      isNameChar c = true ∧ c ∉ ['"', '\\', '/', '\r', '\n'] := fun c member =>
    ⟨isNameChar_asciiName member, isNameChar_quoted (isNameChar_asciiName member)⟩
  have valid := fromStr_contentDisposition filename
  by_cases ascii : isAscii filename = true
  · refine ⟨"", ?_, quoted, asciiName_of_plain, Or.inl ⟨ascii, rfl⟩, valid⟩
    simp only [contentDisposition, if_pos ascii, String.append_empty]
  · refine ⟨_, ?_, quoted, asciiName_of_plain, Or.inr ⟨percentEncode (utf8 filename), rfl,
      fun _ => percentEncode_plain, percentDecode_percentEncode _⟩, valid⟩
    simp only [contentDisposition, if_neg ascii, String.append_assoc]
    rfl

/-- A quote and a letter beyond ASCII are replaced between the quotes. -/
theorem contentDisposition_reads_quote :
    contentDisposition "a\"é.csv" = "attachment; filename=\"a__.csv\"; filename*=UTF-8''" ++
        "a%22%C3%A9%2Ecsv" ∧
      ∃ rest, contentDisposition "a\"é.csv" = "attachment; filename=\"" ++
          String.ofList (asciiName "a\"é.csv") ++ "\"" ++ rest ∧
        (HeaderValue.fromStr (contentDisposition "a\"é.csv")).isSome = true := by
  refine ⟨by decide +kernel, ?_⟩
  obtain ⟨rest, written, -, -, -, valid⟩ := contentDisposition_reads "a\"é.csv"
  exact ⟨rest, written, valid⟩

/-! ## Views -/

structure PlanView where
  label : String
  codec : String
  level : Int
  transforms : String
  dictionaryId : Option String

def PlanView.fromEnvelope (env : ProcessedFile) : PlanView :=
  { label := codecLabel env
    codec := ((Codec.tryFrom env.codec).map Codec.name).getD "desconhecido"
    level := env.codecLevel
    transforms := chainLabel env.transforms
    dictionaryId := env.dictionary.map (·.id) }

structure Timings where
  compressMs : F64
  verifyMs : F64
  totalMs : F64

structure ObjectLinks where
  metadata : String
  content : String
  essence : String

def ObjectLinks.forId (id : String) : ObjectLinks :=
  { metadata := s!"/api/v1/objects/{id}"
    content := s!"/api/v1/objects/{id}/content"
    essence := s!"/api/v1/objects/{id}/essence" }

structure CompressResponse where
  id : String
  originalName : String
  mime : String
  contentClass : String
  originalSize : Nat
  essenceSize : Nat
  savingsPct : F64
  ratio : F64
  plan : PlanView
  reason : String
  candidatesTried : Nat
  verified : Bool
  deduplicated : Bool
  sampledDecision : Bool
  persisted : Bool
  references : Option Int
  replayed : Bool
  timings : Timings
  links : Option ObjectLinks

structure SimResult where
  originalName : String
  originalSize : Nat
  reducedSize : Nat
  savingsPct : F64
  algorithm : String
  processingTimeMs : F64
  downloadId : String
  success : Bool
  deduplicated : Bool
  verified : Bool
  contentClass : String

structure ObjectResponse where
  id : String
  originalName : String
  knownNames : List String
  mime : String
  contentClass : String
  originalSize : Nat
  essenceSize : Nat
  savingsPct : F64
  plan : PlanView
  reason : String
  verified : Bool
  references : Int
  containerVersion : Int
  createdAtMs : Int
  updatedAtMs : Int
  links : ObjectLinks

structure MeasurementView where
  plan : String
  codec : String
  level : Int
  transforms : String
  usedDictionary : Bool
  outputSize : Nat
  savingsPct : F64
  error : Option String

structure AnalyzeResponse where
  originalName : String
  mime : String
  contentClass : String
  originalSize : Nat
  measuredBytes : Nat
  entropyBitsPerByte : F64
  printableRatio : F64
  detectedStride : Option Nat
  detectedColumns : Option Nat
  effort : String
  dictionaryId : Option String
  candidates : List MeasurementView
  recommended : Option String

structure MetricsView where
  compressionRatio : F64
  processingTimeMs : F64
  throughputMbps : F64
  candidatesTried : Nat
  reconstructMs : F64
  strategyReason : String

structure InspectResponse where
  containerVersion : Int
  originalName : String
  knownNames : List String
  mime : String
  contentClass : String
  originalSize : Nat
  essenceSize : Nat
  savingsPct : F64
  fileHash : String
  plan : PlanView
  reason : String
  verifiedOnWrite : Bool
  checksumOk : Bool
  createdAtMs : Int
  updatedAtMs : Int
  metrics : Option MetricsView

structure DecompressMeta where
  originalName : String
  mime : String
  originalSize : Nat
  essenceSize : Nat
  plan : PlanView
  fidelityChecked : Bool
  reconstructMs : F64
  containerVersion : Int

structure DeleteResponse where
  id : String
  removed : Bool
  remainingReferences : Option Int

structure ObjectListItem where
  id : String
  originalName : String
  originalSize : Nat
  essenceSize : Nat
  savingsPct : F64
  references : Int
  createdAtMs : Int
  updatedAtMs : Int
  links : ObjectLinks

structure ObjectListResponse where
  count : Nat
  limit : Int
  items : List ObjectListItem

structure EssenceFile where
  name : String
  originalName : String
  originalSize : Nat
  essenceSize : Nat
  savingsPct : F32
  algorithm : String
  processingTimeMs : F64
  createdAt : String

/-- The floating point of the views, and the length of their JSON. -/
structure Rendering where
  round2 : F64 → F64
  round4 : F64 → F64
  /-- `{:.2}`. -/
  fixed2 : F64 → String
  /-- `(1 - part / whole) * 100`. -/
  percent : (part whole : Int) → F64
  narrow : F64 → F32
  widen : F32 → F64
  jsonSize : AnalyzeResponse → Nat

variable (P : Platform) (R : Rendering)

def savingsOf (part whole : Int) : F64 := if 0 < whole then R.percent part whole else 0

def CompressResponse.fromResult (r : CompressResult) (persisted : Bool) (totalMs : F64) :
    CompressResponse :=
  let env := r.envelope
  { id := r.id
    originalName := env.originalName
    mime := env.originalMime
    contentClass := env.contentClass
    originalSize := env.originalSize
    essenceSize := env.processedSize
    savingsPct := R.round2 (savingsOf R env.processedSize env.originalSize)
    ratio := if 0 < env.originalSize then R.round4 (P.ratio env.processedSize env.originalSize)
      else oneF64
    plan := PlanView.fromEnvelope env
    reason := env.planReason
    candidatesTried := (env.fileMetrics.map (·.candidatesTried)).getD 0
    verified := env.verified
    deduplicated := r.deduplicated
    sampledDecision := r.sampledDecision
    persisted
    references := r.references
    replayed := r.replayed
    timings :=
      { compressMs := R.round2 r.compressMs, verifyMs := R.round2 r.verifyMs
        totalMs := R.round2 totalMs }
    links := if persisted then some (ObjectLinks.forId r.id) else none }

def SimResult.of (name : String) (r : CompressResult) : SimResult :=
  { originalName := name
    originalSize := r.envelope.originalSize
    reducedSize := r.envelope.processedSize
    savingsPct := R.round2 (savingsOf R r.envelope.processedSize r.envelope.originalSize)
    algorithm := codecLabel r.envelope
    processingTimeMs := R.round2 r.compressMs
    downloadId := r.id
    success := true
    deduplicated := r.deduplicated
    verified := r.envelope.verified
    contentClass := r.envelope.contentClass }

def ObjectResponse.build (id : String) (env : ProcessedFile) (grant : Option GrantRow) :
    ObjectResponse :=
  { id
    originalName := (grant.map (·.name)).getD env.originalName
    knownNames := env.originalNames
    mime := env.originalMime
    contentClass := env.contentClass
    originalSize := env.originalSize
    essenceSize := env.processedSize
    savingsPct := R.round2 (savingsOf R env.processedSize env.originalSize)
    plan := PlanView.fromEnvelope env
    reason := env.planReason
    verified := env.verified
    references := (grant.map (·.refs)).getD 1
    containerVersion := env.version
    createdAtMs := (grant.map (·.createdAtMs)).getD env.createdAt
    updatedAtMs := (grant.map (·.updatedAtMs)).getD env.updatedAt
    links := ObjectLinks.forId id }

def MeasurementView.of (m : Measurement) : MeasurementView :=
  { plan := m.label, codec := m.codec.name, level := m.level, transforms := m.transforms
    usedDictionary := m.usedDictionary, outputSize := m.outputSize
    savingsPct := R.round2 m.savingsPct, error := m.error }

/-- What `analyze` of the engine finds out. -/
structure AnalysisReport where
  profile : ContentProfile
  effort : Effort
  probeSize : Nat
  measurements : List Measurement
  dictionaryId : Option String
  elapsedMs : F64

def AnalyzeResponse.build (report : AnalysisReport) (originalName : String) : AnalyzeResponse :=
  let candidates := report.measurements.map (MeasurementView.of R)
  { originalName
    mime := report.profile.mime
    contentClass := report.profile.contentClass.asStr
    originalSize := report.profile.size
    measuredBytes := report.probeSize
    entropyBitsPerByte := R.round4 report.profile.entropy
    printableRatio := R.round4 report.profile.printable
    detectedStride := report.profile.stride
    detectedColumns := report.profile.tabular.map (·.2)
    effort := report.effort.asStr
    dictionaryId := report.dictionaryId
    candidates
    recommended := (candidates.find? fun c => c.error.isNone).map (·.plan) }

def MetricsView.of (m : FileMetrics) : MetricsView :=
  { compressionRatio := R.round4 m.compressionRatio
    processingTimeMs := R.round2 m.processingTimeMs
    throughputMbps := R.round2 m.throughputMbps
    candidatesTried := m.candidatesTried
    reconstructMs := R.round2 m.reconstructMs
    strategyReason := m.strategyReason }

def InspectResponse.of (env : ProcessedFile) : InspectResponse :=
  { containerVersion := env.version
    originalName := env.originalName
    knownNames := env.originalNames
    mime := env.originalMime
    contentClass := env.contentClass
    originalSize := env.originalSize
    essenceSize := env.processedSize
    savingsPct := R.round2 (R.widen env.savingsPct)
    fileHash := hexEncode env.fileHash
    plan := PlanView.fromEnvelope env
    reason := env.planReason
    verifiedOnWrite := env.verified
    checksumOk := true
    createdAtMs := env.createdAt
    updatedAtMs := env.updatedAt
    metrics := env.fileMetrics.map (MetricsView.of R) }

def DecompressMeta.build (env : ProcessedFile) (restored : Restored) (durationMs : F64) :
    DecompressMeta :=
  { originalName := env.originalName
    mime := env.originalMime
    originalSize := env.originalSize
    essenceSize := env.processedSize
    plan := PlanView.fromEnvelope env
    fidelityChecked := restored.fidelityChecked
    reconstructMs := R.round2 durationMs
    containerVersion := env.version }

def ObjectListItem.of (g : GrantRow) : ObjectListItem :=
  { id := g.objectHash
    originalName := g.name
    originalSize := g.originalSize.toNat
    essenceSize := g.essenceSize.toNat
    savingsPct := R.round2 (savingsOf R g.essenceSize g.originalSize)
    references := g.refs
    createdAtMs := g.createdAtMs
    updatedAtMs := g.updatedAtMs
    links := ObjectLinks.forId g.objectHash }

def EssenceFile.of (g : GrantRow) : EssenceFile :=
  { name := g.objectHash
    originalName := g.name
    originalSize := g.originalSize.toNat
    essenceSize := g.essenceSize.toNat
    savingsPct := R.narrow (R.round2 (savingsOf R g.essenceSize g.originalSize))
    algorithm := ""
    processingTimeMs := 0
    createdAt := toString (g.createdAtMs.tdiv 1000) }

inductive Body (ρ : Type) where
  | bytes (content : Bytes)
  | compressed (view : CompressResponse)
  | simulated (view : SimResult)
  | restored (view : DecompressMeta)
  | analyzed (view : AnalyzeResponse)
  | inspected (view : InspectResponse)
  | listed (view : ObjectListResponse)
  | files (view : List EssenceFile)
  | object (view : ObjectResponse)
  | deleted (view : DeleteResponse)
  | fileDeleted (id : String)
  | report (report : ρ)

structure Response (ρ : Type) where
  headers : ResponseHeaders
  body : Body ρ

end Api

end Syntra

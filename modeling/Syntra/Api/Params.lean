import Syntra.Api

/-!
# Parameters

The query and the headers of a request, resolved to what the engine is asked for.
-/

set_option autoImplicit false

namespace Syntra

open Fallible Text

def Effort.fromName (s : String) : Option Effort :=
  match toAsciiLowercase (trim s) with
  | "fast" | "speed" | "low" => some .fast
  | "balanced" | "default" | "medium" => some .balanced
  | "max" | "density" | "high" | "best" => some .max
  | _ => none

def Codec.fromName (s : String) : Option Codec :=
  let key := toAsciiLowercase (trim s)
  match key with
  | "none" | "passthrough" | "raw" => some .stored
  | "ultra_fast" => some .lz4
  | "zlib" | "gzip" | "flate" => some .deflate
  | "lzma" | "lzma2" => some .xz
  | "bz2" => some .bzip2
  | _ => (catalog.find? fun entry => entry.name = key).map (·.codec)

namespace Api

structure ApiConfig extends Config where
  defaultEffort : Effort
  verifyOnWrite : Bool

/-! ## Headers -/

def Headers.flag (headers : Headers) (name : String) : Option Bool :=
  (headers.filled name).bind fun value =>
    match toAsciiLowercase value with
    | "1" | "true" | "yes" | "on" => some true
    | "0" | "false" | "no" | "off" => some false
    | _ => none

def digitValue (c : Char) : Option Nat :=
  if '0' ≤ c ∧ c ≤ '9' then some (c.toNat - '0'.toNat) else none

def parseDigits (digits : List Char) : Option Nat :=
  if digits = [] then none
  else digits.foldlM (fun n c => (digitValue c).map (n * 10 + ·)) 0

/-- `str::parse::<i32>`. -/
def parseI32 (text : String) : Option Int :=
  let value : Option Int := match text.toList with
    | '-' :: digits => (parseDigits digits).map fun n => -(n : Int)
    | '+' :: digits => (parseDigits digits).map Int.ofNat
    | digits => (parseDigits digits).map Int.ofNat
  value.filter fun n => -(2 ^ 31) ≤ n ∧ n < 2 ^ 31

def isGraphic (c : Char) : Bool := '!' ≤ c && c ≤ '~'

def idempotencyKey (headers : Headers) : Option String :=
  ((headers.text "idempotency-key").map trim).filter fun s =>
    s ≠ "" ∧ (utf8 s).length ≤ 200 ∧ s.toList.all isGraphic = true

/-- The id that the first layer leaves in the headers. -/
def requestIdOf (headers : Headers) : Option String := headers.text "x-request-id"

/-! ## Names of files -/

def unnamed : String := "sem-nome"

def isControl (c : Char) : Bool := c.toNat < 0x20 || (0x7f ≤ c.toNat && c.toNat ≤ 0x9f)

def isSeparator (c : Char) : Bool := c == '/' || c == '\\'

def sanitizeFilename (name : String) : String :=
  let base := trim (String.ofList (name.toList.rtakeWhile fun c => !isSeparator c))
  let cleaned := String.ofList ((base.toList.filter fun c => !isControl c).take 255)
  if cleaned = "" ∨ cleaned = "." ∨ cleaned = ".." then unnamed else cleaned

structure PlainName (name : String) : Prop where
  filled : name ≠ ""
  inside : name ≠ "." ∧ name ≠ ".."
  short : name.length ≤ 255
  flat : ∀ c ∈ name.toList, isSeparator c = false
  printed : ∀ c ∈ name.toList, isControl c = false

theorem mem_trim {text : String} {c : Char} (member : c ∈ (trim text).toList) :
    c ∈ text.toList := by
  rw [trim, String.toList_ofList] at member
  exact (List.dropWhile_suffix _).subset ((List.rdropWhile_prefix _ _).subset member)

theorem sanitizeFilename_plain (name : String) : PlainName (sanitizeFilename name) := by
  unfold sanitizeFilename
  dsimp only
  split
  · refine ⟨by decide, by decide, by decide, ?_, ?_⟩
    · simp [unnamed, isSeparator]
    · simp [unnamed, isControl]
  · rename_i named
    push Not at named
    refine ⟨named.1, named.2, ?_, ?_, ?_⟩
    · rw [← String.length_toList, String.toList_ofList, List.length_take]
      exact Nat.min_le_left _ _
    · intro c member
      rw [String.toList_ofList] at member
      have kept := (List.mem_filter.mp (List.mem_of_mem_take member)).1
      have own := mem_trim kept
      rw [String.toList_ofList] at own
      simpa using List.mem_rtakeWhile_imp own
    · intro c member
      rw [String.toList_ofList] at member
      simpa using (List.mem_filter.mp (List.mem_of_mem_take member)).2

/-! ## Compressions -/

def effortOf (raw : Option String) (config : ApiConfig) : Except ApiError Effort :=
  match raw with
  | none => .ok config.defaultEffort
  | some v =>
    okOr (Effort.fromName v)
      (.badRequest "invalid_effort" s!"esforço '{v}' inválido; use fast, balanced ou max")

def codecOf (raw : Option String) : Except ApiError (Option Codec) :=
  match raw with
  | none => .ok none
  | some v =>
    (okOr (Codec.fromName v)
      (.badRequest "unsupported_codec" s!"codec '{v}' não suportado")).map some

/-- A forced level must be one of the forced codec. -/
def checkLevel (codec : Option Codec) (level : Option Int) : Except ApiError Unit :=
  match codec.bind Codec.info, level with
  | some info, some l =>
    rejectIf (l < info.minLevel ∨ info.maxLevel < l)
      (.badRequest "invalid_level"
        s!"nível {l} fora da faixa do codec {info.name} ({info.minLevel}..{info.maxLevel})")
  | _, _ => .ok ()

def CompressParams.resolve (params : CompressParams) (headers : Headers) (config : ApiConfig) :
    Except ApiError CompressRequest := do
  let filename := (params.filename <|> headers.filled "x-filename").getD unnamed
  let effort ← effortOf (params.effort <|> headers.filled "x-effort") config
  let codec ← codecOf (params.codec <|> headers.filled "x-codec")
  let level := params.level <|> (headers.filled "x-level").bind parseI32
  checkLevel codec level
  .ok
    { filename := sanitizeFilename filename
      mimeHint := params.mime <|> headers.filled "x-mime"
      effort
      forced :=
        { codec, level, useDictionary := params.dictionary <|> headers.flag "x-dictionary" }
      verify := (params.verify <|> headers.flag "x-verify").getD config.verifyOnWrite
      persist := params.persist.getD true
      allowDedup := params.dedup.getD true
      idempotencyKey := none
      requestId := none }

/-- What the engine is asked for: a plain name, and a level of the codec. -/
structure ProperRequest (req : CompressRequest) : Prop where
  name : PlainName req.filename
  level : ∀ codec info level, req.forced.codec = some codec → codec.info = some info →
    req.forced.level = some level → info.minLevel ≤ level ∧ level ≤ info.maxLevel

theorem checkLevel_eq_ok {codec : Option Codec} {level : Option Int}
    (checked : checkLevel codec level = .ok ()) (own : Codec) (info : CodecInfo) (l : Int)
    (forced : codec = some own) (known : own.info = some info) (leveled : level = some l) :
    info.minLevel ≤ l ∧ l ≤ info.maxLevel := by
  simp only [checkLevel, forced, leveled, Option.bind_some, known] at checked
  have inRange := rejectIf_eq_ok.mp checked
  omega

theorem resolve_proper {params : CompressParams} {headers : Headers} {config : ApiConfig}
    {req : CompressRequest} (resolved : params.resolve headers config = .ok req) :
    ProperRequest req := by
  unfold CompressParams.resolve at resolved
  simp only [Fallible.bind_eq_ok, Except.ok.injEq] at resolved
  obtain ⟨effort, -, codec, -, _, checked, made⟩ := resolved
  have name := congrArg CompressRequest.filename made
  have forced := congrArg CompressRequest.forced made
  dsimp only at name forced
  constructor
  · rw [← name]
    exact sanitizeFilename_plain _
  · intro own info l codecForced known leveled
    rw [← forced] at codecForced leveled
    exact checkLevel_eq_ok checked own info l codecForced known leveled

/-! ## Formats -/

inductive ResponseFormat where
  | binary
  | json
  deriving Repr, DecidableEq

def CompressParams.format (params : CompressParams) (headers : Headers)
    (default : ResponseFormat) : ResponseFormat :=
  let raw := params.response <|> headers.filled "x-response-format"
  match raw.map toAsciiLowercase with
  | some "json" => .json
  | some "binary" | some "protobuf" => .binary
  | _ =>
    match headers.text "accept" with
    | some accept =>
      if contains accept "application/json" && !contains accept "*/*" then .json else default
    | none => default

end Api

end Syntra

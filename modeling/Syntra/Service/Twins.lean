import Syntra.Lib.Coupling
import Syntra.Service.Calm

/-!
# One request in two engines

What a tenant receives from a request and from reading afterwards, without the
measured times, and worlds that look alike to it: with the same references of
the tenant, and the same blobs under its grants.
-/

set_option autoImplicit false

namespace Syntra

open Program Text

/-! ## Without the measured times -/

def FileMetrics.untimed (metrics : FileMetrics) : FileMetrics :=
  { metrics with throughputMbps := 0, processingTimeMs := 0, reconstructMs := 0 }

/-- The envelope without clocks and measured times. -/
def ProcessedFile.untimed (envelope : ProcessedFile) : ProcessedFile :=
  { envelope with
    fileMetrics := envelope.fileMetrics.map FileMetrics.untimed
    createdAt := 0
    updatedAt := 0 }

namespace ProcessedFile

variable (envelope : ProcessedFile)

@[simp] theorem untimed_data : envelope.untimed.data = envelope.data := rfl

@[simp] theorem untimed_envelopeChecksum :
    envelope.untimed.envelopeChecksum = envelope.envelopeChecksum := rfl

@[simp] theorem untimed_originalSize :
    envelope.untimed.originalSize = envelope.originalSize := rfl

@[simp] theorem untimed_processedSize :
    envelope.untimed.processedSize = envelope.processedSize := rfl

@[simp] theorem untimed_originalName : envelope.untimed.originalName = envelope.originalName := rfl

end ProcessedFile

variable (P : Platform) (config : Config)

/-- An encoded envelope is encoded again without the times; other bytes stay. -/
def untimedBytes (bytes : Bytes) : Bytes :=
  match P.decodeFile bytes with
  | .ok envelope => if P.encodeFile envelope = bytes then P.encodeFile envelope.untimed else bytes
  | .error _ => bytes

def CompressResult.untimed (result : CompressResult) : CompressResult :=
  { result with
    envelope := result.envelope.untimed
    bytes := untimedBytes P result.bytes
    compressMs := 0
    verifyMs := 0 }

/-- What a request returns, and what reading an object returns afterwards. -/
structure Received where
  compressed : Except EngineError CompressResult
  object : Except EngineError ProcessedFile
  container : Except EngineError Bytes

def Received.untimed (received : Received) : Received where
  compressed := received.compressed.map (CompressResult.untimed P)
  object := received.object.map ProcessedFile.untimed
  container := received.container.map (untimedBytes P)

def received (ctx : TenantContext) (data : Bytes) (req : CompressRequest) (id : Digest)
    (world : World) (later : Nat → Outside) : Received :=
  let (compressed, after) := (compress P config ctx data req).run (World.perform P) world
  let reading : World := { after with outside := later }
  { compressed
    object := ((loadObject P ctx.tenantId id).run (World.perform P) reading).1
    container := ((loadContainer ctx.tenantId id).run (World.perform P) reading).1 }

/-- Two encodings of one envelope that differ in the times, or the same bytes. -/
def SameBytes (bytes bytes' : Bytes) : Prop :=
  bytes = bytes' ∨ ∃ envelope envelope' : ProcessedFile, envelope.untimed = envelope'.untimed ∧
    bytes = P.encodeFile envelope ∧ bytes' = P.encodeFile envelope'

variable {P} {bytes bytes' : Bytes}

theorem SameBytes.untimedBytes_eq (framed : P.Framed) (same : SameBytes P bytes bytes') :
    untimedBytes P bytes = untimedBytes P bytes' := by
  rcases same with rfl | ⟨envelope, envelope', untimed, rfl, rfl⟩
  · rfl
  · simp [untimedBytes, framed envelope, framed envelope', untimed]

theorem SameBytes.parse (framed : P.Framed) (same : SameBytes P bytes bytes') :
    Agree (fun envelope envelope' : ProcessedFile => envelope.untimed = envelope'.untimed)
      (parse P bytes) (parse P bytes') := by
  rcases same with rfl | ⟨envelope, envelope', untimed, rfl, rfl⟩
  · apply Agree.refl
    intro envelope
    rfl
  · have data : envelope.data = envelope'.data := by
      simpa using congrArg ProcessedFile.data untimed
    have checksum : envelope.envelopeChecksum = envelope'.envelopeChecksum := by
      simpa using congrArg ProcessedFile.envelopeChecksum untimed
    simp only [Syntra.parse, framed envelope, framed envelope', data, checksum]
    split
    · exact .error _
    · exact .ok untimed

/-! ## Worlds that look alike -/

def SameFaults (outside outside' : Nat → Outside) : Prop :=
  ∀ n, (outside n).fault = (outside' n).fault ∧
    (outside n).statementFault = (outside' n).statementFault

variable (P)

/-- Both vaults lack the blob, or have it up to the times. -/
def SameBlob (hash : Digest) (world world' : World) : Prop :=
  Option.Rel (SameBytes P) (world.engine.blobs hash) (world'.engine.blobs hash)

/-- The tenant finds the same references, and the same blobs under its grants. -/
structure Alike (tenantId : String) (world world' : World) : Prop where
  faults : SameFaults world.outside world'.outside
  refs : ∀ object, (world.engine.db.findGrant tenantId object).map (·.refs) =
    (world'.engine.db.findGrant tenantId object).map (·.refs)
  blobs : ∀ hash : Digest, world.engine.db.findGrant tenantId (hexEncode hash.val) ≠ none →
    SameBlob P hash world world'

variable {P} {tenantId : String} {world world' : World} {hash : Digest}

theorem SameFaults.tail {outside outside' : Nat → Outside} (same : SameFaults outside outside') :
    SameFaults (fun n => outside (n + 1)) (fun n => outside' (n + 1)) :=
  fun n => same (n + 1)

theorem SameBlob.leaves (same : SameBlob P hash world world') (asked asked' : EngineCall)
    (leaves : asked.leavesBlobs) (leaves' : asked'.leavesBlobs) :
    SameBlob P hash (World.perform P world asked).2 (World.perform P world' asked').2 := by
  unfold SameBlob World.perform
  dsimp only
  rw [Engine.perform_blobs P _ _ asked leaves, Engine.perform_blobs P _ _ asked' leaves']
  exact same

theorem Alike.leaves (alike : Alike P tenantId world world') (asked asked' : EngineCall)
    (leaves : asked.leavesDb ∧ asked.leavesBlobs) (leaves' : asked'.leavesDb ∧ asked'.leavesBlobs) :
    Alike P tenantId (World.perform P world asked).2 (World.perform P world' asked').2 where
  faults := alike.faults.tail
  refs object := by
    unfold World.perform
    dsimp only
    rw [Engine.perform_db P _ _ asked leaves.1, Engine.perform_db P _ _ asked' leaves'.1]
    exact alike.refs object
  blobs own granted := by
    unfold World.perform at granted
    dsimp only at granted
    rw [Engine.perform_db P _ _ asked leaves.1] at granted
    exact (alike.blobs own granted).leaves asked asked' leaves.2 leaves'.2

end Syntra

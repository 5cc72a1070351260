import Syntra.Api.Accounted
import Syntra.Service.Replay

/-!
# What belongs to a tenant

The grants and the ledger of a tenant change by its own requests only, a grant comes by an
upload of the data that it is on and goes by a deletion that names the object, and so do the
essences in the vault.
-/

set_option autoImplicit false

namespace Syntra

namespace Api

open Program Text

variable {P : Platform} {R : Rendering} {Q : Reports} {kind : DbType} {config : ApiConfig}
  {gate : Gate} {start : ApiState (enginePlane P R Q kind config)} {moves : List ApiMove}
  {final : ApiServer (enginePlane P R Q kind config)}

def rowOf (state : ApiState (enginePlane P R Q kind config)) (tenantId : String) (hash : Digest) :
    Option GrantRow :=
  (engineOf state).db.findGrant tenantId (hexEncode hash.val)

def eventsOf (state : ApiState (enginePlane P R Q kind config)) (tenantId : String) :
    List UsageEvent :=
  (engineOf state).db.events.rows.filter (·.tenantId = tenantId)

def blobOf (state : ApiState (enginePlane P R Q kind config)) (hash : Digest) : Option Bytes :=
  (engineOf state).blobs hash

def Uploaded (P : Platform) (gate : Gate) (final : ApiServer (enginePlane P R Q kind config))
    (tenantId : String) (hash : Digest) : Prop :=
  ∃ job ∈ final.jobs, ActsFor gate final.state.accounts job tenantId ∧
    job.ticket.origin.uploads P hash

def Deleted (gate : Gate) (final : ApiServer (enginePlane P R Q kind config)) (tenantId : String)
    (hash : Digest) : Prop :=
  ∃ job ∈ final.jobs, ActsFor gate final.state.accounts job tenantId ∧
    job.ticket.origin.deletes hash

theorem uploads_of_scope {request : HttpRequest} {own : DataRoute} {hash : Digest}
    (shape : request.route = .data own) (scope : own.scope = .compress)
    (same : P.blake3 request.body = hash) : request.uploads P hash := by
  refine ⟨?_, same⟩
  rw [shape]
  exact scope

theorem added_of_caused {tenantId : String} {hash : Digest}
    (caused : CausedBy P gate final (EngineCall.addsGrant tenantId (hexEncode hash.val))) :
    Uploaded P gate final tenantId hash := by
  obtain ⟨job, member, tenant, own, asked, adds, acts, shape, touches⟩ := caused
  obtain ⟨rfl, scope, same⟩ := EngineTouches.added touches adds
  exact ⟨job, member, acts, uploads_of_scope shape scope same⟩

theorem released_of_caused {tenantId : String} {hash : Digest}
    (caused : CausedBy P gate final (EngineCall.releases tenantId (hexEncode hash.val))) :
    Deleted gate final tenantId hash := by
  obtain ⟨job, member, tenant, own, asked, releases, acts, shape, touches⟩ := caused
  obtain ⟨rfl, scope, named⟩ := EngineTouches.released touches releases
  exact ⟨job, member, acts, own, shape, scope, named⟩

theorem row_written (ran : execOf gate (Server.idle start) moves = some final) {tenantId : String}
    {hash : Digest} (changed : rowOf final.state tenantId hash ≠ rowOf start tenantId hash) :
    Uploaded P gate final tenantId hash ∨ Deleted gate final tenantId hash := by
  have caused : CausedBy P gate final fun asked =>
      asked.addsGrant tenantId (hexEncode hash.val) ∨
        asked.releases tenantId (hexEncode hash.val) := by
    apply caused_of_run (fun engine =>
      engine.db.findGrant tenantId (hexEncode hash.val) ≠ rowOf start tenantId hash)
      (fun _ => False)
    · intro engine outside asked same now
      by_contra other
      rw [not_or] at other
      rw [engine.perform_grant_same outside asked other.1 other.2] at now
      exact same now
    · exact fun engine dictionaries now => now
    · exact fun engine outside asked told => told.elim
    · exact fun other => other rfl
    · exact ran
    · exact Or.inl changed
  obtain ⟨job, member, tenant, own, asked, writes, rest⟩ := caused
  rcases writes with adds | releases
  · exact Or.inl (added_of_caused ⟨job, member, tenant, own, asked, adds, rest⟩)
  · exact Or.inr (released_of_caused ⟨job, member, tenant, own, asked, releases, rest⟩)

theorem row_added (ran : execOf gate (Server.idle start) moves = some final) {tenantId : String}
    {hash : Digest} (absent : rowOf start tenantId hash = none)
    (granted : rowOf final.state tenantId hash ≠ none) : Uploaded P gate final tenantId hash := by
  apply added_of_caused
  apply caused_of_run (fun engine =>
    engine.db.findGrant tenantId (hexEncode hash.val) ≠ none) (fun _ => False)
  · intro engine outside asked none now
    exact engine.perform_grant_new outside asked (not_not.mp none) now
  · exact fun engine dictionaries now => now
  · exact fun engine outside asked told => told.elim
  · exact fun other => other absent
  · exact ran
  · exact Or.inl granted

theorem row_removed (ran : execOf gate (Server.idle start) moves = some final) {tenantId : String}
    {hash : Digest} (granted : rowOf start tenantId hash ≠ none)
    (gone : rowOf final.state tenantId hash = none) : Deleted gate final tenantId hash := by
  apply released_of_caused
  apply caused_of_run (fun engine =>
    engine.db.findGrant tenantId (hexEncode hash.val) = none) (fun _ => False)
  · intro engine outside asked present now
    by_contra other
    exact engine.perform_grant_kept P outside asked tenantId _ other present now
  · exact fun engine dictionaries now => now
  · exact fun engine outside asked told => told.elim
  · exact granted
  · exact ran
  · exact Or.inl gone

/-- A blob that is otherwise at the end was written by an upload or went by a deletion. -/
theorem blob_written (ran : execOf gate (Server.idle start) moves = some final) {hash : Digest}
    (changed : blobOf final.state hash ≠ blobOf start hash) :
    ∃ tenantId, Uploaded P gate final tenantId hash ∨ Deleted gate final tenantId hash := by
  have caused : CausedBy P gate final (EngineCall.writesBlob hash) := by
    apply caused_of_run (fun engine => engine.blobs hash ≠ blobOf start hash)
      (fun _ => False)
    · intro engine outside asked same now
      by_contra other
      rw [engine.perform_blob_same outside asked other] at now
      exact same now
    · exact fun engine dictionaries now => now
    · exact fun engine outside asked told => told.elim
    · exact fun other => other rfl
    · exact ran
    · exact Or.inl changed
  obtain ⟨job, member, tenant, own, asked, writes, acts, shape, touches⟩ := caused
  cases asked with
  | writeBlob written bytes =>
      obtain rfl : written = hash := writes
      obtain ⟨scope, same, -⟩ := EngineTouches.wrote touches
      exact ⟨tenant, Or.inl ⟨job, member, acts, uploads_of_scope shape scope same⟩⟩
  | purge purged =>
      obtain rfl : purged = hash := writes
      obtain ⟨scope, named⟩ := EngineTouches.purged touches
      exact ⟨tenant, Or.inr ⟨job, member, acts, own, shape, scope, named⟩⟩
  | _ => exact writes.elim

theorem blob_removed (ran : execOf gate (Server.idle start) moves = some final) {hash : Digest}
    (stored : blobOf start hash ≠ none) (gone : blobOf final.state hash = none) :
    ∃ tenantId, Deleted gate final tenantId hash := by
  have caused : CausedBy P gate final (· = .purge hash) := by
    apply caused_of_run (fun engine => engine.blobs hash = none) (fun _ => False)
    · intro engine outside asked present now
      by_contra other
      exact engine.perform_blobs_kept P outside asked hash other present now
    · exact fun engine dictionaries now => now
    · exact fun engine outside asked told => told.elim
    · exact stored
    · exact ran
    · exact Or.inl gone
  obtain ⟨job, member, tenant, own, asked, rfl, acts, shape, touches⟩ := caused
  obtain ⟨scope, named⟩ := EngineTouches.purged touches
  exact ⟨tenant, job, member, acts, own, shape, scope, named⟩

/-- In every run, a grant comes by an upload of its tenant and goes by a deletion of its
tenant, and its row is otherwise what it was. -/
theorem grants_accounted (gate : Gate) (start : ApiState (enginePlane P R Q kind config))
    (moves : List ApiMove) (final : ApiServer (enginePlane P R Q kind config))
    (ran : execOf gate (Server.idle start) moves = some final) (tenantId : String)
    (hash : Digest) :
    (rowOf start tenantId hash = none → rowOf final.state tenantId hash ≠ none →
      Uploaded P gate final tenantId hash) ∧
    (rowOf start tenantId hash ≠ none → rowOf final.state tenantId hash = none →
      Deleted gate final tenantId hash) ∧
    (rowOf final.state tenantId hash ≠ rowOf start tenantId hash →
      Uploaded P gate final tenantId hash ∨ Deleted gate final tenantId hash) :=
  ⟨row_added ran, row_removed ran, row_written ran⟩

/-- In every run, an essence is written by an upload of what it is of, and goes by a deletion
that names it. -/
theorem essences_accounted (gate : Gate) (start : ApiState (enginePlane P R Q kind config))
    (moves : List ApiMove) (final : ApiServer (enginePlane P R Q kind config))
    (ran : execOf gate (Server.idle start) moves = some final) (hash : Digest) :
    (blobOf start hash ≠ none → blobOf final.state hash = none →
      ∃ tenantId, Deleted gate final tenantId hash) ∧
    (blobOf final.state hash ≠ blobOf start hash →
      ∃ tenantId, Uploaded P gate final tenantId hash ∨ Deleted gate final tenantId hash) :=
  ⟨blob_removed ran, blob_written ran⟩

/-- In every run, what is recorded for a tenant changes by its own requests only. -/
theorem ledger_accounted (gate : Gate) (start : ApiState (enginePlane P R Q kind config))
    (moves : List ApiMove) (final : ApiServer (enginePlane P R Q kind config))
    (ran : execOf gate (Server.idle start) moves = some final) (tenantId : String)
    (changed : eventsOf final.state tenantId ≠ eventsOf start tenantId) :
    ∃ job ∈ final.jobs, ActsFor gate final.state.accounts job tenantId := by
  have caused : CausedBy P gate final (EngineCall.records tenantId) := by
    apply caused_of_run (fun engine =>
      engine.db.events.rows.filter (·.tenantId = tenantId) ≠ eventsOf start tenantId)
      (fun _ => False)
    · intro engine outside asked same now
      by_contra other
      rw [engine.perform_events_same outside asked other] at now
      exact same now
    · exact fun engine dictionaries now => now
    · exact fun engine outside asked told => told.elim
    · exact fun other => other rfl
    · exact ran
    · exact Or.inl changed
  obtain ⟨job, member, tenant, own, asked, records, acts, -, touches⟩ := caused
  cases asked with
  | recordUsage event =>
      obtain rfl : tenant = tenantId := (EngineTouches.recorded touches).symm.trans records
      exact ⟨job, member, acts⟩
  | _ => exact records.elim

/-- Measures are written as zero. -/
def plainRendering : Rendering where
  round2 x := x
  round4 x := x
  fixed2 _ := "0.00"
  percent _ _ := 0
  narrow _ := 0
  widen _ := 0
  jsonSize _ := 0

def noReports : Reports where
  Report := Unit
  read _ _ _ := .ok ()

def sampleApiConfig : ApiConfig :=
  { sampleConfig with defaultEffort := .fast, verifyOnWrite := false }

abbrev framingPlane : DataPlane :=
  enginePlane framingPlatform plainRendering noReports .sqlite sampleApiConfig

def freshState : ApiState framingPlane where
  accounts := openState.accounts
  authRequired := false
  defaultTenant := openState.defaultTenant
  data := quietWorld
  outside _ := quietOutside

def storedParams : CompressParams :=
  { filename := none, mime := some "application/zip", codec := some "stored", level := none
    effort := none, verify := none, persist := none, dictionary := none, dedup := none
    response := none }

def emptyUploadRequest : HttpRequest :=
  { route := .data (.process storedParams), headers := [], body := [] }

def uploadMoves : List ApiMove := .arrive emptyUploadRequest :: List.replicate 16 (.step 0)

theorem uploadMoves_stores :
    ∃ final, execOf openGate (Server.idle freshState) uploadMoves = some final ∧
      rowOf final.state defaultTenantId emptyHash ≠ none ∧ blobOf final.state emptyHash ≠ none ∧
      eventsOf final.state defaultTenantId ≠ [] := by
  have shown : (execOf openGate (Server.idle freshState) uploadMoves).map (fun final =>
      ((rowOf final.state defaultTenantId emptyHash).isSome,
        (blobOf final.state emptyHash).isSome, (eventsOf final.state defaultTenantId).isEmpty)) =
      some (true, true, false) := by
    decide +kernel
  obtain ⟨final, ran, seen⟩ := Option.map_eq_some_iff.mp shown
  simp only [Prod.mk.injEq, Option.isSome_iff_ne_none, List.isEmpty_eq_false_iff] at seen
  exact ⟨final, ran, seen⟩

theorem grants_accounted_upload :
    ∃ final, execOf openGate (Server.idle freshState) uploadMoves = some final ∧
      Uploaded framingPlatform openGate final defaultTenantId emptyHash := by
  obtain ⟨final, ran, granted, -, -⟩ := uploadMoves_stores
  have accounted := grants_accounted openGate freshState uploadMoves final ran defaultTenantId
    emptyHash
  exact ⟨final, ran, accounted.1 rfl granted⟩

theorem essences_accounted_upload :
    ∃ final, execOf openGate (Server.idle freshState) uploadMoves = some final ∧
      ∃ tenantId, Uploaded framingPlatform openGate final tenantId emptyHash ∨
        Deleted openGate final tenantId emptyHash := by
  obtain ⟨final, ran, -, stored, -⟩ := uploadMoves_stores
  exact ⟨final, ran,
    (essences_accounted openGate freshState uploadMoves final ran emptyHash).2 stored⟩

theorem ledger_accounted_upload :
    ∃ final, execOf openGate (Server.idle freshState) uploadMoves = some final ∧
      ∃ job ∈ final.jobs, ActsFor openGate final.state.accounts job defaultTenantId := by
  obtain ⟨final, ran, -, -, recorded⟩ := uploadMoves_stores
  exact ⟨final, ran,
    ledger_accounted openGate freshState uploadMoves final ran defaultTenantId recorded⟩

/-! ## A read -/

end Api

end Syntra

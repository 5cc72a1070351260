import Syntra.Api.Ownership
import Syntra.Container.Hostile
import Syntra.Vault.Reconcile

/-!
# What is read

Whoever is answered with an object was granted it or has uploaded it, and the content that
is answered has the hash that was asked for.
-/

set_option autoImplicit false

namespace Syntra

namespace Api

open Program Text

variable {P : Platform} {R : Rendering} {Q : Reports} {kind : DbType} {config : ApiConfig}
  {gate : Gate} {start : ApiState (enginePlane P R Q kind config)} {moves : List ApiMove}
  {final : ApiServer (enginePlane P R Q kind config)}

def PlaneAmong (done : List (PlaneEntry Q)) (seen : Seen (enginePlane P R Q kind config)) : Prop :=
  ∀ entry ∈ done, (⟨.data entry.1, entry.2⟩ : Entry (enginePlane P R Q kind config)) ∈ seen

/-- How an answer of a route of objects came about. -/
structure ReadBy (gate : Gate) (request : HttpRequest) (own : DataRoute)
    (seen : Seen (enginePlane P R Q kind config)) (reply : Reply (enginePlane P R Q kind config))
    (ctx : Tenancy.TenantContext) (response : Response Q.Report) : Prop where
  credential : Credential gate request.headers seen ctx
  inScope : has ctx own.scope = true
  reply_eq : reply = .data response
  delivers : ∃ done, PlaneAmong done seen ∧
    Delivers P config own ctx.tenant.id done response.body

/-- Who is answered on a route of objects is answered for a credential. -/
def Reads (gate : Gate) (request : HttpRequest) (seen : Seen (enginePlane P R Q kind config))
    (value : Except ApiError (Reply (enginePlane P R Q kind config))) : Prop :=
  ∀ own reply, request.route = .data own → value = .ok reply →
    ∃ ctx response, ReadBy gate request own seen reply ctx response

theorem dataHandler_reads {request : HttpRequest} {own : DataRoute} {ctx : Tenancy.TenantContext}
    (shape : request.route = .data own) {seen : Seen (enginePlane P R Q kind config)}
    (credential : Credential gate request.headers seen ctx) (inScope : has ctx own.scope = true) :
    (dataHandler own ctx request).Safe (.seen fun _ _ => True) (Reads gate request) seen := by
  unfold dataHandler
  rw [safe_bind]
  refine Safe.within (route_keeps own []) (fun done later =>
    PlaneAmong done later ∧ Credential gate request.headers later ctx) ?_ ?_ ?_ ?_
  · intro done later asked reply linked
    refine ⟨?_, linked.2.mono fun entry => List.mem_cons_of_mem _⟩
    intro entry member
    rcases List.mem_cons.mp member with rfl | earlier
    · exact List.mem_cons_self
    · exact List.mem_cons_of_mem _ (linked.1 entry earlier)
  · exact fun _ _ _ _ _ => trivial
  · intro done later result linked answers other reply route answered
    obtain rfl : own = other := Route.data.inj (shape.symm.trans route)
    cases result with
    | error e => cases answered
    | ok response =>
        have delivers := answers response rfl
        cases answered
        exact ⟨ctx, response, linked.2, inScope, rfl, done, linked.1, delivers⟩
  · refine ⟨fun entry none => ?_, credential⟩
    cases none

theorem serve_reads (gate : Gate) (request : HttpRequest) :
    (serve gate request : Action (enginePlane P R Q kind config) _).Safe (.seen fun _ _ => True)
      (Reads gate request) [] := by
  apply serve_safe
  · exact fun _ _ _ => trivial
  · intro seen e _ own reply _ answered
    cases answered
  · intro seen ctx e _ _ _ own reply _ answered
    cases answered
  · intro seen ctx credential inScope
    unfold handler
    cases shape : request.route with
    | data own =>
        rw [shape] at inScope
        exact dataHandler_reads shape credential inScope
    | admin own =>
        refine safe_any _ fun later value other reply route _ => ?_
        rw [shape] at route
        cases route

def answering (gate : Gate) :
    ApiContract (D := enginePlane P R Q kind config) gate fun _ _ => True where
  inv _ := True
  holds state _ seen := Told state.accounts seen
  allows _ _ _ := True
  post ticket := Reads gate ticket.origin
  arrives server origin _ _ := by
    refine ⟨⟨?_, ?_⟩, serve_reads gate origin⟩
    · intro keyId row none
      cases none
    · intro id row none
      cases none
  calls state ticket seen asked _ told _ :=
    ⟨trivial, told.advance asked, fun other seen others =>
      others.carried (perform_carried state asked)⟩
  restarts server outside _ _ :=
    ⟨trivial, fun ticket seen told => told.carried (boot_carried gate outside server.state)⟩

theorem read_of_run (ran : execOf gate (Server.idle start) moves = some final)
    {job : ApiJob (enginePlane P R Q kind config)} (member : job ∈ final.jobs)
    {own : DataRoute} (shape : job.ticket.origin.route = .data own)
    {reply : Reply (enginePlane P R Q kind config)} (answered : job.reply = some (.ok reply)) :
    Told final.state.accounts job.seen ∧
      ∃ ctx response, ReadBy gate job.ticket.origin own job.seen reply ctx response := by
  obtain ⟨-, sound⟩ := (answering gate).run (Server.idle start) final moves trivial
    (by simp [Server.idle]) (Run.meets_true _ moves) ran
  exact ⟨(sound job member).relies, (sound job member).answered answered own reply shape rfl⟩

/-! ## Grants of readers -/

def GrantTold (tenantId : String) (hash : Digest) (made : EngineEntry) : Prop :=
  ∃ row : GrantRow, made = ⟨.findGrant tenantId (hexEncode hash.val), .ok (some row)⟩

def BlobRead (hash : Digest) (bytes : Bytes) (made : EngineEntry) : Prop :=
  made = ⟨.readBlob hash, .ok bytes⟩

theorem PlaneLoaded.saw {tenantId : String} {hash : Digest} {done : List (PlaneEntry Q)}
    {bytes : Bytes} (loaded : PlaneLoaded tenantId hash done bytes)
    {job : ApiJob (enginePlane P R Q kind config)} (among : PlaneAmong done job.seen)
    (member : job ∈ final.jobs) :
    final.Made (Saw (GrantTold tenantId hash)) ∧ final.Made (Saw (BlobRead hash bytes)) := by
  obtain ⟨inner, within, ⟨row, granted⟩, read⟩ := loaded
  exact ⟨⟨job, member, _, among _ (within _ granted), _, ⟨row, rfl⟩, rfl⟩,
    ⟨job, member, _, among _ (within _ read), _, rfl, rfl⟩⟩

theorem grant_of_told {tenantId : String} {hash : Digest} (engine : Engine) (outside : Outside)
    (asked : EngineCall)
    (told : GrantTold tenantId hash ⟨asked, (Engine.perform P engine outside asked).1⟩) :
    engine.db.findGrant tenantId (hexEncode hash.val) ≠ none := by
  obtain ⟨row, same⟩ := told
  obtain ⟨rfl, answered⟩ := Sigma.mk.inj same
  have found : (Engine.perform P engine outside (.findGrant tenantId (hexEncode hash.val))).1 =
      .ok (some row) := eq_of_heq answered
  have sent := congrArg Prod.fst (engine.db.transact_send outside.statementFault
    (.findGrant tenantId (hexEncode hash.val)))
  cases fault : outside.statementFault 0 with
  | some e =>
      rw [fault] at sent
      cases sent.symm.trans found
  | none =>
      rw [fault] at sent
      have held : engine.db.findGrant tenantId (hexEncode hash.val) = some row :=
        Except.ok.inj (sent.symm.trans found)
      rw [held]
      exact Option.some_ne_none row

theorem blob_of_read {hash : Digest} {bytes : Bytes} (engine : Engine) (outside : Outside)
    (asked : EngineCall)
    (read : BlobRead hash bytes ⟨asked, (Engine.perform P engine outside asked).1⟩) :
    engine.blobs hash = some bytes := by
  obtain ⟨rfl, answered⟩ := Sigma.mk.inj read
  have found : (Engine.perform P engine outside (.readBlob hash)).1 = .ok bytes :=
    eq_of_heq answered
  simp only [Engine.perform] at found
  split at found
  · cases found
  · cases found
  · rename_i own here
    rw [here, Except.ok.inj found]

theorem Delivers.loaded {own : DataRoute} {tenantId : String} {done : List (PlaneEntry Q)}
    {body : Body Q.Report} (delivers : Delivers P config own tenantId done body)
    (loud : own.isQuiet = false) :
    ∃ hash bytes, own.object = some hash ∧ PlaneLoaded tenantId hash done bytes := by
  cases own with
  | getObject id =>
      obtain ⟨hash, bytes, parsed, loaded⟩ := delivers
      exact ⟨hash, bytes, by simp [DataRoute.object, parsed, Except.toOption], loaded⟩
  | getContent id =>
      obtain ⟨hash, bytes, data, parsed, loaded, -⟩ := delivers
      exact ⟨hash, bytes, by simp [DataRoute.object, parsed, Except.toOption], loaded⟩
  | downloadFile id =>
      obtain ⟨hash, bytes, data, parsed, loaded, -⟩ := delivers
      exact ⟨hash, bytes, by simp [DataRoute.object, parsed, Except.toOption], loaded⟩
  | getEssence id =>
      obtain ⟨hash, bytes, parsed, loaded, -⟩ := delivers
      exact ⟨hash, bytes, by simp [DataRoute.object, parsed, Except.toOption], loaded⟩
  | _ => cases loud

/-- Whoever is answered with an object, in any run, held it at the start or has uploaded it
since, for the tenant that the request acts for. -/
theorem reads_earned (gate : Gate) (start : ApiState (enginePlane P R Q kind config))
    (moves : List ApiMove) (final : ApiServer (enginePlane P R Q kind config))
    (ran : execOf gate (Server.idle start) moves = some final)
    (job : ApiJob (enginePlane P R Q kind config)) (member : job ∈ final.jobs) (own : DataRoute)
    (shape : job.ticket.origin.route = .data own) (loud : own.isQuiet = false)
    (reply : Reply (enginePlane P R Q kind config)) (answered : job.reply = some (.ok reply)) :
    ∃ ctx hash, Held gate job.ticket.origin.headers job.seen final.state.accounts ctx ∧
      has ctx own.scope = true ∧ own.object = some hash ∧
      (rowOf start ctx.tenant.id hash ≠ none ∨ Uploaded P gate final ctx.tenant.id hash) := by
  obtain ⟨told, ctx, response, read⟩ := read_of_run ran member shape answered
  obtain ⟨done, among, delivers⟩ := read.delivers
  obtain ⟨hash, bytes, named, loaded⟩ := delivers.loaded loud
  refine ⟨ctx, hash, read.credential.held told, read.inScope, named, ?_⟩
  by_cases already : rowOf start ctx.tenant.id hash = none
  · right
    apply added_of_caused
    apply caused_of_run (fun engine =>
      engine.db.findGrant ctx.tenant.id (hexEncode hash.val) ≠ none)
      (GrantTold ctx.tenant.id hash)
    · intro engine outside asked none now
      exact engine.perform_grant_new outside asked (not_not.mp none) now
    · exact fun engine dictionaries now => now
    · exact grant_of_told
    · exact fun other => other already
    · exact ran
    · exact Or.inr (loaded.saw among member).1
  · exact Or.inl already

/-! ## Contents -/

/-- The body is the content of the object that the route names, or an essence sealed for it,
which restores to nothing else. -/
def Intact (P : Platform) (own : DataRoute) (body : Body Q.Report) : Prop :=
  match own with
  | .getContent id | .downloadFile id =>
    ∃ hash data, parseId id = .ok hash ∧ body = .bytes data ∧ P.blake3 data = hash
  | .getEssence id =>
    ∃ hash bytes, parseId id = .ok hash ∧ body = .bytes bytes ∧ SealedFor P hash bytes ∧
      ∀ config data, RestoredFrom P config bytes data → P.blake3 data = hash
  | _ => True

/-- What is restored from an essence has the hash that the essence is sealed for. -/
theorem SealedFor.restored (framed : P.Framed) {hash : Digest} {bytes data : Bytes}
    (isSealed : SealedFor P hash bytes) (restored : RestoredFrom P config bytes data) :
    P.blake3 data = hash := by
  obtain ⟨written, rfl, named⟩ := isSealed
  obtain ⟨envelope, found, result, parsed, run, rfl⟩ := restored.restores
  have same : envelope = written := by
    rw [parse, framed] at parsed
    dsimp only at parsed
    split at parsed
    · cases parsed
    · exact (Except.ok.inj parsed).symm
  subst same
  have checked : checkFidelity P envelope result.data = .ok result.fidelityChecked := by
    rw [restoreWithLimit] at run
    simp only [Fallible.bind_eq_ok] at run
    obtain ⟨dict, -, codec, -, own, -, checked, fidelity, -, -, same⟩ := run
    rw [← Except.ok.inj same]
    exact fidelity
  have agrees := (checkFidelity_eq_ok checked (by rw [named]; exact hash.property)).1
  exact Subtype.ext (agrees.trans named)

/-- What is stored at the end or was read is sealed for its address, if all was so at the start. -/
theorem sealed_of_run (ran : execOf gate (Server.idle start) moves = some final)
    (stored : ∀ hash bytes, blobOf start hash = some bytes → SealedFor P hash bytes)
    {hash : Digest} {bytes : Bytes}
    (after : blobOf final.state hash = some bytes ∨ final.Made (Saw (BlobRead hash bytes))) :
    SealedFor P hash bytes := by
  by_contra unsealed
  have caused : CausedBy P gate final (· = .writeBlob hash bytes) := by
    apply caused_of_run (fun engine => engine.blobs hash = some bytes) (BlobRead hash bytes)
    · intro engine outside asked absent now
      by_contra other
      exact absent (engine.perform_blob_old outside asked other now)
    · exact fun engine dictionaries now => now
    · exact blob_of_read
    · exact fun held => unsealed (stored hash bytes held)
    · exact ran
    · exact after
  obtain ⟨job, member, tenant, own, asked, rfl, -, -, touches⟩ := caused
  exact unsealed (EngineTouches.wrote touches).2.2

/-- Where the vault is in order at the start it is so after every run, and every content that
a request of the run was answered with has the hash that it asked for. -/
theorem reads_intact (framed : P.Framed) (gate : Gate)
    (start : ApiState (enginePlane P R Q kind config))
    (stored : ∀ hash bytes, blobOf start hash = some bytes → SealedFor P hash bytes)
    (moves : List ApiMove) (final : ApiServer (enginePlane P R Q kind config))
    (ran : execOf gate (Server.idle start) moves = some final) :
    (∀ hash bytes, blobOf final.state hash = some bytes → SealedFor P hash bytes) ∧
      ∀ job ∈ final.jobs, ∀ own reply, job.ticket.origin.route = .data own →
        job.reply = some (.ok reply) →
        ∃ response, reply = .data response ∧ Intact P own response.body := by
  refine ⟨fun hash bytes here => sealed_of_run ran stored (Or.inl here), ?_⟩
  intro job member own reply shape answered
  obtain ⟨-, ctx, response, read⟩ := read_of_run ran member shape answered
  refine ⟨response, read.reply_eq, ?_⟩
  obtain ⟨done, among, delivers⟩ := read.delivers
  have content : ∀ hash bytes data, PlaneLoaded ctx.tenant.id hash done bytes →
      RestoredFrom P config bytes data → P.blake3 data = hash :=
    fun hash bytes data loaded restored =>
      SealedFor.restored framed (sealed_of_run ran stored (Or.inr (loaded.saw among member).2))
        restored
  cases own with
  | getContent id =>
      obtain ⟨hash, bytes, data, parsed, loaded, restored, body⟩ := delivers
      exact ⟨hash, data, parsed, body, content hash bytes data loaded restored⟩
  | downloadFile id =>
      obtain ⟨hash, bytes, data, parsed, loaded, restored, body⟩ := delivers
      exact ⟨hash, data, parsed, body, content hash bytes data loaded restored⟩
  | getEssence id =>
      obtain ⟨hash, bytes, parsed, loaded, body⟩ := delivers
      have isSealed := sealed_of_run ran stored (Or.inr (loaded.saw among member).2)
      exact ⟨hash, bytes, parsed, body, isSealed, fun config data restored =>
        SealedFor.restored framed isSealed restored⟩
  | _ => trivial

/-! ## The next start -/

/-- The walk finds every essence of the vault in its place. -/
def Lists (entries : List VaultEntry) (state : ApiState (enginePlane P R Q kind config)) : Prop :=
  ∀ hash bytes, blobOf state hash = some bytes → ∃ entry ∈ entries, entry.isFile = true ∧
    entry.stem = some (pathFor hash).stem ∧ entry.extension = some (pathFor hash).extension ∧
    entry.content = .ok bytes

/-- Whatever has become of the index, the start after a run records every essence that the run
has left. -/
theorem start_reindexes (framed : P.Framed) (gate : Gate)
    (start : ApiState (enginePlane P R Q kind config))
    (stored : ∀ hash bytes, blobOf start hash = some bytes → SealedFor P hash bytes)
    (moves : List ApiMove) (final : ApiServer (enginePlane P R Q kind config))
    (ran : execOf gate (Server.idle start) moves = some final) (outside : Nat → IndexOutside)
    (calm : ∀ n, (outside n).Calm) (index : Digest → Option ObjectRef)
    (entries : List VaultEntry) (lists : Lists entries final.state) (hash : Digest)
    (present : blobOf final.state hash ≠ none) :
    ((reconcileVaultIndex P outside index entries).index hash).isSome = true := by
  obtain ⟨bytes, here⟩ := Option.ne_none_iff_exists'.mp present
  obtain ⟨envelope, rfl, -⟩ := sealed_of_run ran stored (Or.inl here)
  obtain ⟨entry, member, isFile, stem, extension, content⟩ := lists hash _ here
  refine reconcileFrom_covers calm member ⟨?_, _, stem, parseId_hexEncode hash⟩
    ⟨_, content, framed envelope⟩
  rw [VaultEntry.isEssence, isFile, extension]
  rfl

/-! ## A download -/

def emptyContentRequest : HttpRequest :=
  { route := .data (.getContent (hexEncode emptyHash.val)), headers := [], body := [] }

def downloadMoves : List ApiMove :=
  uploadMoves ++ .arrive emptyContentRequest :: List.replicate 8 (.step 1)

/-- The empty file is asked for, and an answer comes. -/
def servesEmpty (job : ApiJob framingPlane) : Bool :=
  match job.ticket.origin.route, job.reply with
  | .data (.getContent id), some (.ok _) => id == hexEncode emptyHash.val
  | _, _ => false

theorem downloadMoves_answers :
    ∃ final job reply, execOf openGate (Server.idle freshState) downloadMoves = some final ∧
      job ∈ final.jobs ∧
      job.ticket.origin.route = .data (.getContent (hexEncode emptyHash.val)) ∧
      job.reply = some (.ok reply) := by
  have shown : (execOf openGate (Server.idle freshState) downloadMoves).map (fun final =>
      final.jobs.any servesEmpty) = some true := by
    decide +kernel
  obtain ⟨final, ran, serves⟩ := Option.map_eq_some_iff.mp shown
  obtain ⟨job, member, served⟩ := List.any_eq_true.mp serves
  unfold servesEmpty at served
  split at served
  · rename_i id reply route answered
    exact ⟨final, job, reply, ran, member, route.trans (by rw [beq_iff_eq.mp served]), answered⟩
  · cases served

theorem reads_earned_download :
    ∃ final, execOf openGate (Server.idle freshState) downloadMoves = some final ∧
      ∃ tenantId hash, rowOf freshState tenantId hash = none ∧
        Uploaded framingPlatform openGate final tenantId hash := by
  obtain ⟨final, job, reply, ran, member, shape, answered⟩ := downloadMoves_answers
  obtain ⟨ctx, hash, -, -, -, held | uploaded⟩ := reads_earned openGate freshState downloadMoves
    final ran job member _ shape rfl reply answered
  · exact absurd rfl held
  · exact ⟨final, ran, ctx.tenant.id, hash, rfl, uploaded⟩

theorem reads_intact_download :
    ∃ final data, execOf openGate (Server.idle freshState) downloadMoves = some final ∧
      (∃ job ∈ final.jobs, ∃ response : Response Unit, response.body = .bytes data ∧
        job.reply = some (.ok (.data response))) ∧
      framingPlatform.blake3 data = emptyHash := by
  obtain ⟨final, job, reply, ran, member, shape, answered⟩ := downloadMoves_answers
  have fresh : ∀ hash bytes, blobOf freshState hash = some bytes →
      SealedFor framingPlatform hash bytes := by
    intro hash bytes impossible
    cases impossible
  obtain ⟨response, same, hash, data, parsed, body, hashes⟩ :=
    (reads_intact framingPlatform_decodeFile openGate freshState fresh downloadMoves final
      ran).2 job member _ reply shape answered
  rw [parseId_hexEncode] at parsed
  rw [← Except.ok.inj parsed] at hashes
  exact ⟨final, data, ran, ⟨job, member, response, body, same ▸ answered⟩, hashes⟩

def emptyStored : ApiState framingPlane :=
  { freshState with
    data := { quietWorld with engine := { freshEngine with
      blobs := fun hash =>
        if hash = emptyHash then some (framingPlatform.encodeFile emptyEnvelope) else none } } }

def restarted : ApiServer framingPlane where
  state := (boot openGate (fun _ => quietOutside) emptyStored).2
  up := (boot openGate (fun _ => quietOutside) emptyStored).1
  jobs := []

theorem emptyStored_only {hash : Digest} {bytes : Bytes}
    (stored : blobOf emptyStored hash = some bytes) :
    hash = emptyHash ∧ framingPlatform.encodeFile emptyEnvelope = bytes := by
  have shape : (if hash = emptyHash then some (framingPlatform.encodeFile emptyEnvelope)
      else none) = some bytes := stored
  rwa [Option.ite_none_right_eq_some, Option.some.injEq] at shape

/-- After a restart the empty file is in the index, which was lost. -/
theorem start_reindexes_restarted :
    ∃ final, execOf openGate (Server.idle emptyStored) [.restart fun _ => quietOutside] =
        some final ∧
      ((reconcileVaultIndex framingPlatform (fun _ => ⟨true, true, 7⟩) (fun _ => none)
        [emptyEntry]).index emptyHash).isSome = true := by
  obtain ⟨dictionaries, left⟩ := boot_engine openGate (fun _ => quietOutside) emptyStored
  refine ⟨restarted, rfl, ?_⟩
  refine start_reindexes framingPlatform_decodeFile openGate emptyStored ?_
    [.restart fun _ => quietOutside] restarted rfl (fun _ => ⟨true, true, 7⟩)
    (fun _ => ⟨rfl, rfl⟩) (fun _ => none) [emptyEntry] ?_ emptyHash ?_
  · intro hash bytes stored
    obtain ⟨rfl, rfl⟩ := emptyStored_only stored
    exact ⟨emptyEnvelope, rfl, rfl⟩
  · intro hash bytes stored
    have same : blobOf emptyStored hash = some bytes := by
      rw [← stored]
      exact (congrArg (fun engine : Engine => engine.blobs hash) left).symm
    obtain ⟨rfl, rfl⟩ := emptyStored_only same
    exact ⟨emptyEntry, List.mem_cons_self, rfl, rfl, rfl, rfl⟩
  · intro gone
    have same : blobOf emptyStored emptyHash = none := by
      rw [← gone]
      exact (congrArg (fun engine : Engine => engine.blobs emptyHash) left).symm
    simp [blobOf, engineOf, emptyStored] at same

end Api

end Syntra

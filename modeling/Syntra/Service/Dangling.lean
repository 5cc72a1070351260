import Syntra.FramingPlatform
import Syntra.Lib.Pool
import Syntra.Service.Accounting

/-!
# Grants and blobs

A request grants an object that it has read or written before, in a step of its
own.  Where no blob is purged between the two, and none that is granted, every
grant of every state has its blob.
-/

set_option autoImplicit false

namespace Syntra

open Program Text

/-- A granted object has its blob. -/
def NoDangling (engine : Engine) : Prop :=
  ∀ (tenantId : String) (hash : Digest),
    engine.db.findGrant tenantId (hexEncode hash.val) ≠ none → engine.blobs hash ≠ none

variable (P : Platform) (config : Config)

/-- The answer shows that the vault has a blob of `hash`: it was read and is an
envelope, or was written. -/
def Shows (hash : Digest) : (made : EngineCall) × made.Answer → Prop
  | ⟨.readBlob read, .ok bytes⟩ => read = hash ∧ ∃ envelope, parse P bytes = .ok envelope
  | ⟨.writeBlob written _, .ok _⟩ => written = hash
  | _ => False

/-- A grant on the object only after the blob was shown. -/
def shownFirst (hash : Digest) :
    Monitor EngineCall EngineCall.Answer (List ((made : EngineCall) × made.Answer)) :=
  .seen fun seen asked => asked.grants (hexEncode hash.val) → ∃ entry ∈ seen, Shows P hash entry

variable {P config} {hash : Digest} {seen : List ((made : EngineCall) × made.Answer)}

theorem hexEncode_digest_inj {first second : Digest}
    (same : hexEncode first.val = hexEncode second.val) : first = second := by
  have read := parseId_hexEncode first
  rw [same, parseId_hexEncode] at read
  exact (Except.ok.inj read).symm

/-! ## Requests grant what they have seen -/

abbrev GrantsNothing {α : Type} (program : Handler α) : Prop :=
  program.Uses fun asked => ∀ objectHash, ¬ asked.grants objectHash

theorem GrantsNothing.safe {α : Type} {program : Handler α} (nothing : GrantsNothing program) :
    program.Safe (shownFirst P hash) (fun _ _ => True) seen :=
  Safe.under nothing fun _ _ never grants => (never _ grants).elim

theorem existingBlob_shown (own : Digest) (req : CompressRequest) :
    (existingBlob P own req).Safe (shownFirst P hash)
      (fun later found => found.isSome = true → own = hash → ∃ entry ∈ later, Shows P hash entry)
      seen := by
  unfold existingBlob
  split
  · refine ⟨False.elim, fun present => ?_⟩
    cases present with
    | false => exact fun absent => absurd absent (by decide)
    | true =>
        refine ⟨False.elim, fun read => ?_⟩
        cases read with
        | error e => exact fun absent => absurd absent (by decide)
        | ok bytes =>
            intro parsed same
            refine ⟨_, List.mem_cons_self, same, ?_⟩
            cases outcome : parse P bytes with
            | ok envelope => exact ⟨envelope, rfl⟩
            | error e =>
                rw [outcome] at parsed
                cases parsed
  · exact fun absent => absurd absent (by decide)

theorem persistSealed_shown (own : Digest) (req : CompressRequest) (written : Sealed) :
    (persistSealed own req written).Safe (shownFirst P hash)
      (fun later result => result = .ok () → req.persist = true → own = hash →
        ∃ entry ∈ later, Shows P hash entry) seen := by
  unfold persistSealed
  split
  · refine ⟨False.elim, fun ensured => ?_⟩
    cases ensured with
    | error e => exact fun failed => nomatch failed
    | ok _ =>
        refine ⟨False.elim, fun wrote => ?_⟩
        cases wrote with
        | error e => exact fun failed => nomatch failed
        | ok _ =>
            refine ⟨False.elim, fun now => ⟨False.elim, fun recorded => ?_⟩⟩
            cases recorded with
            | error e => exact fun failed => nomatch failed
            | ok _ =>
                intro _ _ same
                exact ⟨⟨.writeBlob own written.bytes, .ok ()⟩, by simp [shownFirst, Monitor.seen],
                  same⟩
  · rename_i unpersisted
    exact fun _ persist => absurd persist unpersisted

/-- An outcome for `own` shows its blob, if the request persists. -/
def ShownOutcome (P : Platform) (hash own : Digest) (req : CompressRequest)
    (later : List ((made : EngineCall) × made.Answer)) :
    Except EngineError BlockingOutcome → Prop
  | .ok outcome => outcome.hash = own ∧
    (req.persist = true → own = hash → ∃ entry ∈ later, Shows P hash entry)
  | .error _ => True

theorem verifyWrite_grantsNothing (planned : Planned) (data : Bytes) (dict : Option Bytes)
    (req : CompressRequest) : GrantsNothing (verifyWrite P planned data dict req) := by
  unfold verifyWrite
  split
  · split
    · trivial
    · exact ⟨fun _ => id, fun _ => trivial⟩
  · trivial

theorem compressFresh_shown (data : Bytes) (req : CompressRequest) (own : Digest) :
    (compressFresh P config data req own).Safe (shownFirst P hash) (ShownOutcome P hash own req)
      seen := by
  refine ⟨False.elim, fun dict => ?_⟩
  dsimp only
  split
  · trivial
  · refine ⟨False.elim, fun compressMs => safe_attempt.mpr ?_⟩
    refine (verifyWrite_grantsNothing _ _ _ _).safe.imp fun later checked _ => ?_
    cases checked with
    | error e => trivial
    | ok times =>
        refine ⟨False.elim, fun _ => ⟨False.elim, fun now => safe_attempt.mpr ?_⟩⟩
        refine (persistSealed_shown own req _).imp fun last published shown => ?_
        cases published with
        | error e => trivial
        | ok _ => exact ⟨rfl, shown rfl⟩

theorem compressBlocking_shown (data : Bytes) (req : CompressRequest) :
    (compressBlocking P config data req).Safe (shownFirst P hash)
      (ShownOutcome P hash (P.blake3 data) req) seen := by
  refine safe_bind.mpr ((existingBlob_shown _ req).imp fun later found shown => ?_)
  cases found with
  | some stored => exact ⟨rfl, fun _ => shown rfl⟩
  | none => exact compressFresh_shown data req _

theorem EngineCall.reading.grantsNothing {asked : EngineCall} (reads : asked.reading)
    (objectHash : String) : ¬ asked.grants objectHash := by
  cases asked with
  | addGrant => exact reads.elim
  | _ => exact id

theorem compressNew_shown (ctx : TenantContext) (data : Bytes) (req : CompressRequest) :
    (compressNew P config ctx data req).Safe (shownFirst P hash) (fun _ _ => True) seen := by
  refine safe_attempt.mpr ((compressBlocking_shown data req).imp fun later result shown => ?_)
  cases result with
  | error e => trivial
  | ok outcome =>
      refine ⟨False.elim, fun now => ?_⟩
      split
      · rename_i persist
        refine safe_attempt.mpr ⟨False.elim, fun grant => ?_⟩
        cases grant with
        | error e => trivial
        | ok grant =>
            refine safe_attempt.mpr ⟨fun grants => ?_, fun granted => ?_⟩
            · obtain ⟨entry, member, here⟩ := shown.2 persist
                (hexEncode_digest_inj (shown.1 ▸ grants))
              exact ⟨entry, by simp [shownFirst, Monitor.seen, member], here⟩
            · cases granted with
              | error e => trivial
              | ok _ => exact ⟨False.elim, fun _ => trivial⟩
      · trivial

theorem compress_shown (ctx : TenantContext) (data : Bytes) (req : CompressRequest) :
    (compress P config ctx data req).Safe (shownFirst P hash) (fun _ _ => True) seen := by
  unfold compress
  split
  · exact compressNew_shown ctx data req
  · refine safe_attempt.mpr ⟨False.elim, fun found => ?_⟩
    cases found with
    | error e => trivial
    | ok found =>
        cases found with
        | some prev => exact GrantsNothing.safe ((replay_uses _ prev).mono fun _ => EngineCall.reading.grantsNothing)
        | none => exact compressNew_shown ctx data req

theorem deleteObject_grantsNothing (ctx : TenantContext) (own : Digest) (purge : Bool) :
    GrantsNothing (deleteObject ctx own purge) := by
  refine (deleteObject_uses ctx own purge).mono fun asked deletes objectHash => ?_
  cases asked with
  | addGrant => exact deletes.elim
  | _ => exact id

theorem handle_shown (request : Request) :
    (request.handle P config).Safe (shownFirst P hash) (fun _ _ => True) seen := by
  cases request with
  | compress ctx data req =>
      exact safe_bind.mpr ((compress_shown ctx data req).imp fun _ _ _ => trivial)
  | delete ctx own purge =>
      exact safe_bind.mpr ((deleteObject_grantsNothing ctx own purge).safe.imp fun _ _ _ => trivial)

/-! ## Requests run together -/

abbrev Running := Call EngineCall EngineCall.Answer Reply

abbrev Requests := Pool World EngineCall EngineCall.Answer Reply

/-- The request has seen the blob of `hash` and may yet grant it. -/
def Relies (P : Platform) (hash : Digest) (call : Running) : Prop :=
  (∃ entry ∈ call.seen, Shows P hash entry) ∧
    ¬ call.rest.Uses fun asked => ¬ asked.grants (hexEncode hash.val)

/-- A blob is purged only while no tenant holds a grant on it and no request relies on it. -/
def UnheldPurge (P : Platform) (pool : Requests) (index : Nat) : Prop :=
  ∀ call hash, pool.calls[index]? = some call → call.next? = some (.purge hash) →
    (∀ tenantId, pool.state.engine.db.findGrant tenantId (hexEncode hash.val) = none) ∧
      ∀ other ∈ pool.calls, ¬ Relies P hash other

/-- A request grants what it has seen, and what it relies on is in the vault. -/
def Tracked (P : Platform) (world : World) (call : Running) : Prop :=
  ∀ hash, call.rest.Safe (shownFirst P hash) (fun _ _ => True) call.seen ∧
    (Relies P hash call → world.engine.blobs hash ≠ none)

theorem shows_perform (engine : Engine) (outside : Outside) (asked : EngineCall)
    (shown : Shows P hash ⟨asked, (engine.perform P outside asked).1⟩) :
    (engine.perform P outside asked).2.blobs hash ≠ none := by
  cases asked with
  | readBlob read =>
      cases fault : outside.fault with
      | some e => simp [Engine.perform, fault, Shows] at shown
      | none =>
          cases stored : engine.blobs read with
          | none => simp [Engine.perform, fault, stored, Shows] at shown
          | some bytes =>
              simp only [Engine.perform, fault, stored, Shows] at shown ⊢
              rw [← shown.1, stored]
              exact Option.some_ne_none bytes
  | writeBlob written bytes =>
      cases fault : outside.fault with
      | some e => simp [Engine.perform, fault, Shows] at shown
      | none =>
          simp only [Engine.perform, fault, Shows] at shown ⊢
          rw [shown, Function.update_self]
          exact Option.some_ne_none bytes
  | _ => exact shown.elim

/-- The step of a request keeps the grants and the requests backed. -/
theorem unheldPurge_step (pool : Requests) (index : Nat) (call : Running) (asked : EngineCall)
    (rest : asked.Answer → Handler Reply) (backed : NoDangling pool.state.engine)
    (present : pool.calls[index]? = some call) (tracked : Tracked P pool.state call)
    (shape : call.rest = .call asked rest) (unheld : UnheldPurge P pool index) :
    NoDangling (World.perform P pool.state asked).2.engine ∧
      Tracked P (World.perform P pool.state asked).2 { call with
        rest := rest (World.perform P pool.state asked).1
        seen := ⟨asked, (World.perform P pool.state asked).1⟩ :: call.seen } ∧
      ∀ other ∈ pool.calls, Tracked P pool.state other →
        Tracked P (World.perform P pool.state asked).2 other := by
  have purges : ∀ purged, asked = .purge purged →
      (∀ tenantId, pool.state.engine.db.findGrant tenantId (hexEncode purged.val) = none) ∧
        ∀ other ∈ pool.calls, ¬ Relies P purged other := by
    intro purged same
    have next : call.next? = some asked := by rw [Call.next?, shape]
    exact unheld call purged present (same ▸ next)
  refine ⟨?_, ?_, ?_⟩
  · intro tenantId object granted
    rcases pool.state.engine.perform_granted P (pool.state.outside 0) asked tenantId _ granted with
      before | grants
    · refine Engine.perform_blobs_kept P _ _ asked object ?_ (backed tenantId object before)
      intro purge
      exact before ((purges object purge).1 tenantId)
    · -- the request has seen the blob, and nobody has purged it since
      have safe := (tracked object).1
      rw [shape] at safe
      have relies : Relies P object call := by
        refine ⟨safe.1 grants, fun never => ?_⟩
        rw [shape] at never
        exact never.1 grants
      refine Engine.perform_blobs_kept P _ _ asked object ?_ ((tracked object).2 relies)
      intro purge
      rw [purge] at grants
      exact grants
  · intro object
    have safe := (tracked object).1
    rw [shape] at safe
    refine ⟨safe.2 _, fun relies => ?_⟩
    obtain ⟨⟨entry, member, shown⟩, grants⟩ := relies
    rcases List.mem_cons.mp member with rfl | earlier
    · exact shows_perform pool.state.engine (pool.state.outside 0) asked shown
    · have relied : Relies P object call := by
        refine ⟨⟨entry, earlier, shown⟩, fun never => grants ?_⟩
        rw [shape] at never
        exact never.2 _
      refine Engine.perform_blobs_kept P _ _ asked object ?_ ((tracked object).2 relied)
      intro purge
      exact (purges object purge).2 call (List.mem_of_getElem? present) relied
  · intro other member held object
    refine ⟨(held object).1, fun relies => ?_⟩
    refine Engine.perform_blobs_kept P _ _ asked object ?_ ((held object).2 relies)
    intro purge
    exact (purges object purge).2 other member relies

/-! ## An upload that succeeded -/

def GrantedTo (tenantId objectHash : String) : (made : EngineCall) × made.Answer → Prop
  | ⟨.addGrant tenant object _ _ _ _, .ok _⟩ => tenant = tenantId ∧ object = objectHash
  | _ => False

/-- A persisting upload that succeeds, and is not a replay, was granted its object. -/
def GrantSeen (P : Platform) (request : Option Request)
    (seen : List ((made : EngineCall) × made.Answer)) (reply : Reply) : Prop :=
  ∀ ctx data req result, request = some (.compress ctx data req) → req.persist = true →
    reply = .compressed (.ok result) → result.replayed = false →
    ∃ entry ∈ seen, GrantedTo ctx.tenantId (hexEncode (P.blake3 data).val) entry

abbrev recorder : Monitor EngineCall EngineCall.Answer
    (List ((made : EngineCall) × made.Answer)) := .seen fun _ _ => True

def GrantSeenBy (P : Platform) (ctx : TenantContext) (data : Bytes) (req : CompressRequest)
    (seen : List ((made : EngineCall) × made.Answer)) : Except EngineError CompressResult → Prop
  | .ok result => req.persist = true → result.replayed = false →
    ∃ entry ∈ seen, GrantedTo ctx.tenantId (hexEncode (P.blake3 data).val) entry
  | .error _ => True

theorem compressNew_grantSeen (ctx : TenantContext) (data : Bytes) (req : CompressRequest) :
    (compressNew P config ctx data req).Safe recorder (GrantSeenBy P ctx data req) seen := by
  refine safe_attempt.mpr (((compressBlocking_reads data).under fun _ _ _ => trivial).imp
    fun later result same => ?_)
  cases result with
  | error e => trivial
  | ok outcome =>
      refine ⟨trivial, fun now => ?_⟩
      split
      · refine safe_attempt.mpr ⟨trivial, fun grant => ?_⟩
        cases grant with
        | error e => trivial
        | ok grant =>
            refine safe_attempt.mpr ⟨trivial, fun granted => ?_⟩
            cases granted with
            | error e => trivial
            | ok granted =>
                refine ⟨trivial, fun recorded persist fresh => ?_⟩
                refine ⟨_, List.mem_cons_of_mem _ List.mem_cons_self, rfl, ?_⟩
                rw [show outcome.hash = P.blake3 data from same]
      · rename_i unpersisted
        exact fun persist => absurd persist unpersisted

theorem replay_grantSeen (ctx : TenantContext) (data : Bytes) (req : CompressRequest)
    (prev : StoredEvent) :
    (replay P ctx.tenantId prev).Safe recorder (GrantSeenBy P ctx data req) seen := by
  have loads : ∀ own known, (loadContainer ctx.tenantId own).Safe recorder (fun _ _ => True)
      known := fun own _ => Safe.under (loadContainer_uses _ own) fun _ _ _ => trivial
  unfold replay
  split
  · trivial
  · split
    · trivial
    · refine safe_attempt.mpr (safe_attempt.mpr ?_)
      refine (loads _ _).imp fun later loaded _ => ?_
      cases loaded with
      | error e => trivial
      | ok bytes =>
          dsimp only
          cases parse P bytes with
          | error e => trivial
          | ok envelope =>
              refine safe_attempt.mpr ?_
              refine (loads _ _).imp fun last again _ => ?_
              cases again with
              | error e => trivial
              | ok bytes => exact ⟨trivial, fun grant _ fresh => nomatch fresh⟩

theorem compress_grantSeen (ctx : TenantContext) (data : Bytes) (req : CompressRequest) :
    (compress P config ctx data req).Safe recorder (GrantSeenBy P ctx data req) seen := by
  unfold compress
  split
  · exact compressNew_grantSeen ctx data req
  · refine safe_attempt.mpr ⟨trivial, fun found => ?_⟩
    cases found with
    | error e => trivial
    | ok found =>
        cases found with
        | some prev => exact replay_grantSeen ctx data req prev
        | none => exact compressNew_grantSeen ctx data req

theorem handle_grantSeen (request : Request) :
    (request.handle P config).Safe recorder (GrantSeen P (some request)) seen := by
  cases request with
  | compress ctx data req =>
      refine safe_bind.mpr ((compress_grantSeen ctx data req).imp fun later outcome granted => ?_)
      intro ctx data req result same persist reply fresh
      cases same
      cases reply
      exact granted persist fresh
  | delete ctx own purge =>
      refine safe_bind.mpr ?_
      refine ((deleteObject_grantsNothing ctx own purge).under fun _ _ _ => trivial).imp ?_
      intro later outcome _ ctx data req result same
      cases same

theorem grantedTo_perform (engine : Engine) (outside : Outside) (asked : EngineCall)
    {tenantId objectHash : String}
    (granted : GrantedTo tenantId objectHash ⟨asked, (engine.perform P outside asked).1⟩) :
    (engine.perform P outside asked).2.db.findGrant tenantId objectHash ≠ none := by
  cases asked with
  | addGrant tenant object name originalSize essenceSize nowMs =>
      rcases engine.db.transact_addGrant outside.statementFault tenant object name originalSize
        essenceSize nowMs with ⟨e, -, refused⟩ | ⟨-, next, done, -, rows⟩
      · simp only [Engine.perform, refused, Engine.withDb, GrantedTo] at granted
      · simp only [Engine.perform, done, Engine.withDb, GrantedTo] at granted
        obtain ⟨rfl, rfl⟩ := granted
        simp only [Engine.perform, done, Engine.withDb, rows, if_true]
        exact Option.some_ne_none _
  | _ => exact granted.elim

/-! ## Every run -/

theorem NoDangling.empty (dictionaries : DictStore) : NoDangling (.empty dictionaries) :=
  fun _ _ granted => absurd rfl granted

/-- When every purge of a run finds the blob unheld, no grant ever dangles, and an
upload that succeeded can be read back as long as the tenant has not deleted it since. -/
theorem unheldPurge_no_dangling (P : Platform) (config : Config) (requests : List Request)
    (dictionaries : DictStore) (outside : Nat → Outside) (moves : List Nat) (final : Requests)
    (run : Run.exec (Pool.step (World.perform P))
      (Pool.start { engine := .empty dictionaries, outside } (requests.map (·.handle P config)))
      moves = some final)
    (unheld : Run.Meets (Pool.step (World.perform P)) (UnheldPurge P)
      (Pool.start { engine := .empty dictionaries, outside } (requests.map (·.handle P config)))
      moves) :
    NoDangling final.state.engine ∧
    ∀ index ctx data req result, requests[index]? = some (.compress ctx data req) →
      req.persist = true → final.returned index = some (.compressed (.ok result)) →
      result.replayed = false →
      ∃ before granted after, Pool.log (World.perform P)
          (Pool.start { engine := .empty dictionaries, outside }
            (requests.map (·.handle P config))) moves = before ++ (index, granted) :: after ∧
        GrantedTo ctx.tenantId (hexEncode (P.blake3 data).val) granted ∧
        ((∀ entry ∈ after, ¬ entry.2.1.releases ctx.tenantId (hexEncode (P.blake3 data).val)) →
          ∀ later, (∀ n, (later n).Calm) → ∃ bytes,
            ((loadContainer ctx.tenantId (P.blake3 data)).run (World.perform P)
              { engine := final.state.engine, outside := later }).1 = .ok bytes) := by
  have kept : NoDangling final.state.engine := by
    refine (Pool.invariant (UnheldPurge P) (fun world => NoDangling world.engine) (Tracked P)
      unheldPurge_step _ final moves (NoDangling.empty dictionaries) ?_ unheld run).1
    intro call member hash
    obtain ⟨program, listed, rfl⟩ := List.mem_map.mp member
    obtain ⟨request, -, rfl⟩ := List.mem_map.mp listed
    refine ⟨handle_shown request, fun relies => ?_⟩
    obtain ⟨⟨entry, impossible, -⟩, -⟩ := relies
    cases impossible
  refine ⟨kept, fun index ctx data req result asked persist returned fresh => ?_⟩
  obtain ⟨call, present, ended⟩ := Option.bind_eq_some_iff.mp returned
  have safe := Pool.safe_calls (fun _ _ => True) (fun index => GrantSeen P requests[index]?)
    { engine := .empty dictionaries, outside } (requests.map (·.handle P config)) ?_ final moves
    run index call present
  · have finished : call.rest = .done (.compressed (.ok result)) := by
      unfold Call.returned at ended
      split at ended
      · rename_i shape
        rw [shape, Option.some.inj ended]
      · cases ended
    rw [finished] at safe
    obtain ⟨granted, member, grantedTo⟩ := safe ctx data req result asked persist rfl fresh
    rcases Pool.mem_log_of_seen run present member with logged | ⟨first, found, earlier⟩
    · obtain ⟨before, after, split⟩ := List.append_of_mem logged
      refine ⟨before, granted, after, split, grantedTo, fun unreleased later calm => ?_⟩
      obtain ⟨middle, next, rest, answered, state, runs, same⟩ := Pool.log_split run split
      have held : final.state.engine.db.findGrant ctx.tenantId
          (hexEncode (P.blake3 data).val) ≠ none := by
        refine Pool.log_keeps (fun world => world.engine.db.findGrant ctx.tenantId
          (hexEncode (P.blake3 data).val) ≠ none) runs ?_ ?_
        · intro entry member world granted
          exact Engine.perform_grant_kept P _ _ _ _ _ (unreleased entry (same ▸ member)) granted
        · rw [state]
          exact grantedTo_perform middle.state.engine (middle.state.outside 0) granted.1
            (answered ▸ grantedTo)
      obtain ⟨bytes, stored⟩ := Option.ne_none_iff_exists'.mp (kept _ _ held)
      exact ⟨bytes, congrArg Prod.fst (loadContainer_reads
        { engine := final.state.engine, outside := later } calm held stored)⟩
    · rw [Pool.getElem?_start] at found
      obtain ⟨program, -, rfl⟩ := Option.map_eq_some_iff.mp found
      cases earlier
  · intro other program listed
    rw [List.getElem?_map] at listed
    obtain ⟨request, here, rfl⟩ := Option.map_eq_some_iff.mp listed
    rw [here]
    exact handle_grantSeen request

def otherTenant : TenantContext := { tenantId := "u", keyId := none }

/-- `t` uploads and deletes, then `u` uploads the same. -/
def inTurn : List Request :=
  [.compress sampleTenant [] emptyUpload, .delete sampleTenant emptyHash false,
    .compress otherTenant [] emptyUpload]

def inTurnStart : Requests :=
  Pool.start { engine := freshEngine, outside := fun _ => quiet }
    (inTurn.map (Request.handle framingPlatform sampleConfig))

def inTurnMoves : List Nat := List.replicate 13 0 ++ List.replicate 6 1 ++ List.replicate 13 2

/-- The deletion purges after `t` has released its grant and before `u` has begun. -/
theorem inTurn_unheld : Run.Meets (Pool.step (World.perform framingPlatform))
    (UnheldPurge framingPlatform) inTurnStart inTurnMoves := by
  iterate 16
    refine Run.meets_cons rfl (fun call hash present asks => ?_) ?_
    · cases present
      cases asks
  refine Run.meets_cons rfl (fun call hash present asks => ?_) ?_
  · cases present
    cases asks
    refine ⟨fun _ => rfl, fun other member relies => ?_⟩
    rcases List.mem_cons.mp member with rfl | member
    · exact relies.2 trivial
    rcases List.mem_cons.mp member with rfl | member
    · refine relies.2 ⟨id, fun purged => ?_⟩
      cases purged with
      | error e => trivial
      | ok gone => exact ⟨id, fun _ => ⟨id, fun _ => trivial⟩⟩
    rcases List.mem_cons.mp member with rfl | none
    · obtain ⟨⟨entry, none, -⟩, -⟩ := relies
      cases none
    · cases none
  iterate 15
    refine Run.meets_cons rfl (fun call hash present asks => ?_) ?_
    · cases present
      cases asks
  trivial

def answersUpload : Option Reply → Bool
  | some (.compressed (.ok result)) => !result.replayed
  | _ => false

def releasesOf (tenantId : String) : EngineCall → Bool
  | .releaseGrant tenant _ _ _ => tenant == tenantId
  | _ => false

/-- After the purge `u` can read back what it has uploaded. -/
theorem unheldPurge_no_dangling_inTurn :
    ∃ final, Run.exec (Pool.step (World.perform framingPlatform)) inTurnStart inTurnMoves =
        some final ∧
      NoDangling final.state.engine ∧
      ∀ later, (∀ n, (later n).Calm) → ∃ bytes,
        ((loadContainer "u" emptyHash).run (World.perform framingPlatform)
          { engine := final.state.engine, outside := later }).1 = .ok bytes := by
  have shown : (Run.exec (Pool.step (World.perform framingPlatform)) inTurnStart
      inTurnMoves).map (fun final => answersUpload (final.returned 2)) = some true := by
    decide +kernel
  have unreleased : (Pool.log (World.perform framingPlatform) inTurnStart inTurnMoves).all
      (fun entry => !releasesOf "u" entry.2.1) = true := by
    decide +kernel
  obtain ⟨final, run, answers⟩ := Option.map_eq_some_iff.mp shown
  obtain ⟨kept, reads⟩ := unheldPurge_no_dangling framingPlatform sampleConfig inTurn
    (DictStore.load framingPlatform true none []) (fun _ => quiet) inTurnMoves final run
    inTurn_unheld
  refine ⟨final, run, kept, ?_⟩
  unfold answersUpload at answers
  split at answers
  · rename_i result returned
    obtain ⟨before, granted, after, log, -, stays⟩ := reads 2 otherTenant [] emptyUpload result
      rfl rfl returned (by simpa using answers)
    refine stays fun entry member releases => ?_
    have whole : Pool.log (World.perform framingPlatform) inTurnStart inTurnMoves =
        before ++ (2, granted) :: after := log
    have there : entry ∈ Pool.log (World.perform framingPlatform) inTurnStart inTurnMoves := by
      rw [whole]
      exact List.mem_append_right _ (List.mem_cons_of_mem _ member)
    have other := List.all_eq_true.mp unreleased entry there
    obtain ⟨index, asked, answer⟩ := entry
    cases asked with
    | releaseGrant tenant object purge nowMs =>
        obtain rfl := (Prod.mk.inj releases).1
        simp [releasesOf, otherTenant] at other
    | _ => exact releases.elim
  · cases answers

/-- `u` uploads what `t` has stored, `t` deletes it meanwhile. -/
def crossing : List Request :=
  [.compress sampleTenant [] emptyUpload, .compress otherTenant [] emptyUpload,
    .delete sampleTenant emptyHash false]

/-- The upload of `u` finds the blob; `t` releases its grant, counts none and purges;
then `u` is granted the object. -/
theorem crossing_dangles :
    ∃ final, Run.exec (Pool.step (World.perform framingPlatform))
        (Pool.start { engine := freshEngine, outside := fun _ => quiet }
          (crossing.map (Request.handle framingPlatform sampleConfig)))
        (List.replicate 13 0 ++ [1, 1] ++ List.replicate 6 2 ++ List.replicate 4 1) =
          some final ∧
      (∀ call ∈ final.calls, call.returned ≠ none) ∧
      final.state.engine.db.findGrant "u" (hexEncode emptyHash.val) ≠ none ∧
      final.state.engine.blobs emptyHash = none := by
  have shown : (Run.exec (Pool.step (World.perform framingPlatform))
      (Pool.start { engine := freshEngine, outside := fun _ => quiet }
        (crossing.map (Request.handle framingPlatform sampleConfig)))
      (List.replicate 13 0 ++ [1, 1] ++ List.replicate 6 2 ++ List.replicate 4 1)).map
        (fun final => (final.calls.all fun call => call.returned.isSome,
          (final.state.engine.db.findGrant "u" (hexEncode emptyHash.val)).isSome,
          (final.state.engine.blobs emptyHash).isSome)) = some (true, true, false) := by
    decide +kernel
  obtain ⟨final, run, seen⟩ := Option.map_eq_some_iff.mp shown
  rw [Prod.mk.injEq, Prod.mk.injEq, List.all_eq_true] at seen
  refine ⟨final, run, fun call member => ?_, ?_, ?_⟩
  · exact Option.isSome_iff_ne_none.mp (seen.1 call member)
  · exact Option.isSome_iff_ne_none.mp seen.2.1
  · simpa using seen.2.2

end Syntra

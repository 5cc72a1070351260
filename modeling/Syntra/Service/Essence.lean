import Syntra.Service.Accounting
import Syntra.Service.Dangling
import Syntra.Service.Effects

/-!
# Stored essences

While a tenant holds a grant, requests that look for a stored blob before they
write leave the blob of its object alone, and the sizes of the grants are those
of the blob.
-/

set_option autoImplicit false

namespace Syntra

open Program Text

def World.serve (P : Platform) (config : Config) (world : World) (request : Request) : World :=
  ((request.handle P config).run (World.perform P) world).2

def World.serveAll (P : Platform) (config : Config) (world : World) (requests : List Request) :
    World :=
  requests.foldl (World.serve P config) world

variable {P : Platform} {config : Config} {hash : Digest}

theorem World.serve_compress (world : World) (ctx : TenantContext) (data : Bytes)
    (req : CompressRequest) :
    world.serve P config (.compress ctx data req) =
      ((compress P config ctx data req).run (World.perform P) world).2 := by
  rw [serve, Request.handle, run_bind]
  rfl

theorem World.serve_delete (world : World) (ctx : TenantContext) (own : Digest) (purge : Bool) :
    world.serve P config (.delete ctx own purge) =
      ((deleteObject ctx own purge).run (World.perform P) world).2 := by
  rw [serve, Request.handle, run_bind]
  rfl

theorem World.Working.serveAll {world : World} (working : world.Working)
    (requests : List Request) : (world.serveAll P config requests).Working := by
  induction requests generalizing world with
  | nil => exact working
  | cons request requests ih => exact ih (working.run P _)

/-! ## A request and one object -/

/-- What a request may do to the blob of `hash`. -/
def WritesAt (P : Platform) (config : Config) (hash : Digest) (before : Engine) (request : Request)
    (after : Engine) : Prop :=
  ∃ ctx data req written, request = .compress ctx data req ∧ req.persist = true ∧
    P.blake3 data = hash ∧
    (req.allowDedup = true → ∀ bytes envelope, ¬ before.Stores P hash bytes envelope) ∧
    SealedFrom P config before.dictionaries data req written ∧
    after.blobs hash = some written.bytes

def PurgesAt (hash : Digest) (request : Request) (after : Engine) : Prop :=
  ∃ ctx purge, request = .delete ctx hash purge ∧ after.blobs hash = none ∧
    ∀ tenantId, after.db.findGrant tenantId (hexEncode hash.val) = none

variable (P config hash)

theorem serve_blob (world : World) (working : world.Working) (request : Request) :
    (world.serve P config request).engine.blobs hash = world.engine.blobs hash ∨
      WritesAt P config hash world.engine request (world.serve P config request).engine ∨
      PurgesAt hash request (world.serve P config request).engine := by
  unfold World.serve Request.handle
  cases request with
  | compress ctx data req =>
      dsimp only
      rw [run_bind]
      have compressed := compress_run P config req ctx data
        world working
      generalize (compress P config ctx data req).run (World.perform P) world = ran at *
      obtain ⟨result, later⟩ := ran
      dsimp only [Function.comp, run_done] at compressed ⊢
      cases compressed with
      | failed _ _ blobs => exact Or.inl (congrFun blobs hash)
      | replayed _ _ _ blobs => exact Or.inl (congrFun blobs hash)
      | unpersisted _ _ _ blobs => exact Or.inl (congrFun blobs hash)
      | persisted _ _ outcome now unseen persist blocked grants =>
          generalize left : later.engine.blobs = blobs at blocked
          cases blocked with
          | stored => exact Or.inl rfl
          | fresh _ written absent same envelope sealed =>
              rw [if_pos persist]
              by_cases own : P.blake3 data = hash
              · refine Or.inr (Or.inl ⟨ctx, data, req, written, rfl, persist, own, ?_, sealed, ?_⟩)
                · exact own ▸ absent persist
                · rw [left, if_pos persist, own, Function.update_self]
              · exact Or.inl (Function.update_of_ne (Ne.symm own) _ _)
  | delete ctx own purge =>
      dsimp only
      rw [run_bind]
      obtain ⟨-, purged⟩ := deleteObject_run (P := P) ctx own purge world working
      generalize (deleteObject ctx own purge).run (World.perform P) world = ran at *
      obtain ⟨result, later⟩ := ran
      dsimp only [Function.comp, run_done] at purged ⊢
      rcases purged with kept | ⟨gone, ungranted⟩
      · exact Or.inl (congrFun kept hash)
      · rw [gone]
        by_cases same : own = hash
        · subst same
          exact Or.inr (Or.inr ⟨ctx, purge, rfl, by rw [gone, Function.update_self], ungranted⟩)
        · exact Or.inl (Function.update_of_ne (Ne.symm same) _ _)

variable {P config hash}

/-- A message that was encoded can be decoded.  The numbers of a message are taken to be those
that its fields can hold, as they are in the source. -/
def Platform.Framed (P : Platform) : Prop := ∀ file, P.decodeFile (P.encodeFile file) = .ok file

theorem SealedFrom.parses (framed : P.Framed) {dictionaries : DictStore} {data : Bytes}
    {req : CompressRequest} {written : Sealed}
    (sealed : SealedFrom P config dictionaries data req written) :
    parse P written.bytes = .ok written.envelope := by
  obtain ⟨planned, compressMs, verified, verifyMs, now, -, -, rfl⟩ := sealed
  exact parse_sealEnvelope P _ framed

/-- A grant after a request is an old one, or has the size of the blob that is stored. -/
theorem serve_grant (framed : P.Framed) (world : World) (working : world.Working)
    (request : Request) (tenantId : String) (row : GrantRow)
    (found : (world.serve P config request).engine.db.findGrant tenantId (hexEncode hash.val) =
      some row) :
    (∃ old, world.engine.db.findGrant tenantId (hexEncode hash.val) = some old ∧
      row.essenceSize = old.essenceSize) ∨
    ∃ bytes envelope, (world.serve P config request).engine.Stores P hash bytes envelope ∧
      row.essenceSize = asI64 envelope.processedSize := by
  unfold World.serve Request.handle at found ⊢
  cases request with
  | compress ctx data req =>
      dsimp only at found ⊢
      rw [run_bind] at found ⊢
      have compressed := compress_run P config req ctx data
        world working
      generalize (compress P config ctx data req).run (World.perform P) world = ran at *
      obtain ⟨result, later⟩ := ran
      dsimp only [Function.comp, run_done] at compressed found ⊢
      have kept : SameGrants world.engine.db later.engine.db →
          ∃ old, world.engine.db.findGrant tenantId (hexEncode hash.val) = some old ∧
            row.essenceSize = old.essenceSize := by
        intro same
        rw [same] at found
        exact ⟨row, found, rfl⟩
      cases compressed with
      | failed _ _ _ same => exact Or.inl (kept same)
      | replayed _ _ _ _ same => exact Or.inl (kept same)
      | unpersisted _ _ _ _ same => exact Or.inl (kept same)
      | persisted _ _ outcome now unseen persist blocked grants =>
          rcases grants with ⟨_, _, same⟩ | granted
          · exact Or.inl (kept same)
          · rw [granted] at found
            split at found
            · rename_i own
              obtain ⟨rfl, hex⟩ := Prod.mk.inj own
              have same := hexEncode_digest_inj hex
              subst same
              have stored : later.engine.Stores P (P.blake3 data)
                  ((later.engine.blobs (P.blake3 data)).getD []) outcome.envelope := by
                generalize left : later.engine.blobs = blobs at blocked
                cases blocked with
                | stored _ dedup same present =>
                    rw [Engine.Stores, left, present.1]
                    exact ⟨rfl, present.2⟩
                | fresh _ written absent same envelope sealed =>
                    rw [Engine.Stores, left, if_pos persist, Function.update_self, envelope]
                    exact ⟨rfl, sealed.parses framed⟩
              cases before : world.engine.db.findGrant ctx.tenantId
                  (hexEncode (P.blake3 data).val) with
              | some old =>
                  left
                  rw [before] at found
                  cases found
                  exact ⟨old, rfl, rfl⟩
              | none =>
                  right
                  rw [before] at found
                  cases found
                  refine ⟨_, outcome.envelope, stored, ?_⟩
                  rw [Database.essenceSize_granted, Option.map_none, Option.getD_none]
            · exact Or.inl ⟨row, found, rfl⟩
  | delete ctx own purge =>
      dsimp only at found ⊢
      rw [run_bind] at found
      obtain ⟨fewer, -⟩ := deleteObject_run (P := P) ctx own purge world working
      exact Or.inl (fewer tenantId _ row found)

/-! ## What every request keeps -/

/-- A granted object has its blob, and the blob can be parsed. -/
structure Holds (P : Platform) (hash : Digest) (engine : Engine) : Prop where
  backed : ∀ tenantId, engine.db.findGrant tenantId (hexEncode hash.val) ≠ none →
    engine.blobs hash ≠ none
  parses : ∀ bytes, engine.blobs hash = some bytes → ∃ envelope, parse P bytes = .ok envelope

theorem serve_holds (framed : P.Framed) (world : World) (working : world.Working)
    (request : Request) (holds : Holds P hash world.engine) :
    Holds P hash (world.serve P config request).engine := by
  rcases serve_blob P config hash world working request with
    same | ⟨ctx, data, req, written, -, -, -, -, sealed, wrote⟩ | ⟨ctx, purge, -, gone, ungranted⟩
  · refine ⟨fun tenantId granted => ?_, fun bytes stored => holds.parses bytes (same ▸ stored)⟩
    obtain ⟨row, found⟩ := Option.ne_none_iff_exists'.mp granted
    rcases serve_grant framed world working request tenantId row found with
      ⟨old, before, -⟩ | ⟨bytes, envelope, stored, -⟩
    · rw [same]
      exact holds.backed tenantId (by rw [before]; exact Option.some_ne_none old)
    · rw [stored.1]
      exact Option.some_ne_none bytes
  · refine ⟨fun _ _ => by rw [wrote]; exact Option.some_ne_none _, fun bytes stored => ?_⟩
    rw [wrote, Option.some.injEq] at stored
    exact ⟨written.envelope, stored ▸ sealed.parses framed⟩
  · refine ⟨fun tenantId granted => absurd (ungranted tenantId) granted, fun bytes stored => ?_⟩
    rw [gone] at stored
    cases stored

/-- A request that persists the object looks for a stored blob first. -/
def Request.Dedups (P : Platform) (hash : Digest) : Request → Prop
  | .compress _ data req => req.persist = true → P.blake3 data = hash → req.allowDedup = true
  | .delete _ _ _ => True

theorem serve_bytes (world : World) (working : world.Working) (request : Request)
    (dedups : request.Dedups P hash) (holds : Holds P hash world.engine) {bytes : Bytes}
    (stored : world.engine.blobs hash = some bytes) {tenantId : String}
    (granted : (world.serve P config request).engine.db.findGrant tenantId
      (hexEncode hash.val) ≠ none) :
    (world.serve P config request).engine.blobs hash = some bytes := by
  rcases serve_blob P config hash world working request with
    same | ⟨ctx, data, req, written, rfl, persist, own, absent, -, -⟩ | ⟨_, _, -, -, ungranted⟩
  · rw [same, stored]
  · obtain ⟨envelope, parsed⟩ := holds.parses bytes stored
    exact absurd ⟨stored, parsed⟩ (absent (dedups persist own) bytes envelope)
  · exact absurd (ungranted tenantId) granted

/-- The sizes of the grants are those of the stored envelope. -/
def Sized (P : Platform) (hash : Digest) (engine : Engine) : Prop :=
  ∀ tenantId row bytes envelope, engine.db.findGrant tenantId (hexEncode hash.val) = some row →
    engine.Stores P hash bytes envelope → row.essenceSize = asI64 envelope.processedSize

theorem serve_sized (framed : P.Framed) (world : World) (working : world.Working)
    (request : Request) (dedups : request.Dedups P hash) (holds : Holds P hash world.engine)
    (sized : Sized P hash world.engine) : Sized P hash (world.serve P config request).engine := by
  intro tenantId row bytes envelope found stored
  rcases serve_grant framed world working request tenantId row found with
    ⟨old, before, size⟩ | ⟨own, opened, present, size⟩
  · obtain ⟨blob, there⟩ := Option.ne_none_iff_exists'.mp (holds.backed tenantId (by rw [before]; exact Option.some_ne_none old))
    have kept := serve_bytes world working request dedups holds there
      (by rw [found]; exact Option.some_ne_none row)
    have equal : blob = bytes := Option.some.inj (kept.symm.trans stored.1)
    rw [size]
    exact sized tenantId old bytes envelope before ⟨equal ▸ there, stored.2⟩
  · have equal : own = bytes := Option.some.inj (present.1.symm.trans stored.1)
    have same : opened = envelope := Except.ok.inj (present.2.symm.trans (equal ▸ stored.2))
    rw [size, same]

/-! ## Runs of requests -/

theorem serveAll_holds (framed : P.Framed) (world : World) (working : world.Working)
    (requests : List Request) (holds : Holds P hash world.engine) :
    Holds P hash (world.serveAll P config requests).engine := by
  induction requests generalizing world with
  | nil => exact holds
  | cons request requests ih =>
      exact ih _ (working.run P _) (serve_holds framed world working request holds)

theorem serveAll_sized (framed : P.Framed) (world : World) (working : world.Working)
    (requests : List Request) (dedups : ∀ request ∈ requests, request.Dedups P hash)
    (holds : Holds P hash world.engine) (sized : Sized P hash world.engine) :
    Sized P hash (world.serveAll P config requests).engine := by
  induction requests generalizing world with
  | nil => exact sized
  | cons request requests ih =>
      have first := dedups request List.mem_cons_self
      exact ih _ (working.run P _)
        (fun other member => dedups other (List.mem_cons_of_mem _ member))
        (serve_holds framed world working request holds)
        (serve_sized framed world working request first holds sized)

/-- The blob stays through a run while the tenant is granted it after every request. -/
theorem serveAll_bytes (framed : P.Framed) (world : World) (working : world.Working)
    (requests : List Request) (dedups : ∀ request ∈ requests, request.Dedups P hash)
    (holds : Holds P hash world.engine) {bytes : Bytes}
    (stored : world.engine.blobs hash = some bytes) {tenantId : String}
    (granted : ∀ n, (world.serveAll P config (requests.take n)).engine.db.findGrant tenantId
      (hexEncode hash.val) ≠ none) :
    (world.serveAll P config requests).engine.blobs hash = some bytes := by
  induction requests generalizing world with
  | nil => exact stored
  | cons request requests ih =>
      have first := dedups request List.mem_cons_self
      refine ih _ (working.run P _)
        (fun other member => dedups other (List.mem_cons_of_mem _ member))
        (serve_holds framed world working request holds)
        (serve_bytes world working request first holds stored (granted 1)) ?_
      exact fun n => granted (n + 1)

def Loads (P : Platform) (tenantId : String) (hash : Digest) (engine : Engine) (bytes : Bytes) :
    Prop :=
  ∀ outside, (∀ n, (outside n).Calm) →
    ((loadContainer tenantId hash).run (World.perform P) { engine, outside }).1 = .ok bytes

theorem Holds.empty (dictionaries : DictStore) : Holds P hash (.empty dictionaries) where
  backed _ granted := absurd rfl granted
  parses _ stored := nomatch stored

/-- From any state, requests that dedup leave what a tenant reads of its object; and
when all requests have done so, the sizes of the grants are those of the blob. -/
theorem stored_essence_stays (P : Platform) (framed : P.Framed) (config : Config)
    (dictionaries : DictStore) (outside : Nat → Outside)
    (working : ∀ n, (outside n).fault = none) (earlier later : List Request) (hash : Digest)
    (dedups : ∀ request ∈ later, request.Dedups P hash) (before after : World)
    (reached : before = World.serveAll P config { engine := .empty dictionaries, outside } earlier)
    (left : after = before.serveAll P config later) :
    (∀ tenantId, (∀ n, (before.serveAll P config (later.take n)).engine.db.findGrant tenantId
        (hexEncode hash.val) ≠ none) →
      ∃ bytes, Loads P tenantId hash before.engine bytes ∧
        Loads P tenantId hash after.engine bytes) ∧
    ((∀ request ∈ earlier, request.Dedups P hash) → ∀ tenantId row,
      after.engine.db.findGrant tenantId (hexEncode hash.val) = some row →
      ∃ bytes envelope, after.engine.Stores P hash bytes envelope ∧
        row.essenceSize = asI64 envelope.processedSize) := by
  have start : World.Working { engine := .empty dictionaries, outside } := working
  have works : before.Working := reached ▸ start.serveAll earlier
  have holds : Holds P hash before.engine :=
    reached ▸ serveAll_holds framed _ start earlier (Holds.empty dictionaries)
  have stays : Holds P hash after.engine := left ▸ serveAll_holds framed before works later holds
  refine ⟨fun tenantId granted => ?_, fun always tenantId row found => ?_⟩
  · obtain ⟨bytes, stored⟩ := Option.ne_none_iff_exists'.mp (holds.backed tenantId (granted 0))
    have kept := left ▸ serveAll_bytes framed before works later dedups holds stored granted
    have last : after.engine.db.findGrant tenantId (hexEncode hash.val) ≠ none := by
      have whole := granted later.length
      rwa [List.take_length, ← left] at whole
    refine ⟨bytes, fun reading calm => ?_, fun reading calm => ?_⟩
    · exact congrArg Prod.fst (loadContainer_reads { engine := before.engine, outside := reading }
        calm (granted 0) stored)
    · exact congrArg Prod.fst (loadContainer_reads { engine := after.engine, outside := reading }
        calm last kept)
  · have sized : Sized P hash after.engine := by
      rw [left]
      refine serveAll_sized framed before works later dedups holds ?_
      rw [reached]
      refine serveAll_sized framed _ start earlier always (Holds.empty dictionaries) ?_
      intro _ _ _ _ impossible
      cases impossible
    obtain ⟨bytes, stored⟩ := Option.ne_none_iff_exists'.mp
      (stays.backed tenantId (by rw [found]; exact Option.some_ne_none row))
    obtain ⟨envelope, parsed⟩ := stays.parses bytes stored
    exact ⟨bytes, envelope, ⟨stored, parsed⟩, sized tenantId row bytes envelope found ⟨stored, parsed⟩⟩

def uploaded : World :=
  World.serveAll framingPlatform sampleConfig
    { engine := freshEngine, outside := fun _ => quiet } [.compress sampleTenant [] emptyUpload]

theorem uploaded_granted :
    uploaded.engine.db.findGrant "t" (hexEncode emptyHash.val) ≠ none := by
  decide +kernel

theorem stored_essence_stays_secondUpload :
    ∃ bytes, Loads framingPlatform "t" emptyHash uploaded.engine bytes ∧
      Loads framingPlatform "t" emptyHash (uploaded.serveAll framingPlatform sampleConfig
        [.compress otherTenant [] emptyUpload]).engine bytes := by
  refine (stored_essence_stays framingPlatform framingPlatform_decodeFile sampleConfig
    (DictStore.load framingPlatform true none []) (fun _ => quiet) (fun _ => rfl)
    [.compress sampleTenant [] emptyUpload] [.compress otherTenant [] emptyUpload] emptyHash
    ?_ uploaded _ rfl rfl).1 "t" ?_
  · intro request member
    cases List.mem_singleton.mp member
    exact fun _ _ => rfl
  · intro n
    cases n with
    | zero => exact uploaded_granted
    | succ n =>
        rw [List.take_succ_cons, List.take_nil]
        decide +kernel

/-- The same file under another name, stored without looking for it. -/
def renamedUpload : Request :=
  .compress otherTenant [] { emptyUpload with filename := "b.bin", allowDedup := false }

/-- What `t` reads changes with the upload of `u`. -/
theorem rewrite_changes_essence :
    uploaded.engine.db.findGrant "t" (hexEncode emptyHash.val) ≠ none ∧
      (uploaded.serve framingPlatform sampleConfig renamedUpload).engine.db.findGrant "t"
        (hexEncode emptyHash.val) ≠ none ∧
      ((loadContainer "t" emptyHash).run (World.perform framingPlatform) uploaded).1.toOption ≠
        ((loadContainer "t" emptyHash).run (World.perform framingPlatform)
          (uploaded.serve framingPlatform sampleConfig renamedUpload)).1.toOption := by
  decide +kernel

end Syntra

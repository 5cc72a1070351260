import Syntra.Engine

/-!
# What one call changes

The outcome of the transactions of the engine, whatever statements fail, and
the parts of the engine that the other calls leave alone.
-/

set_option autoImplicit false

namespace Syntra

open Program

/-! ## Transactions -/

namespace Database

variable (db : Database) (faults : Nat → Option DbError)

theorem transact_done {α : Type} (result : Except DbError α) :
    db.transact faults (.done result) = (result, db) := rfl

theorem transact_andThen {α : Type} (statement : Statement) (next : statement.Rows → Sql α) :
    db.transact faults ((Sql.send statement).andThen next) =
      match faults 0 with
      | some e => (.error e, db)
      | none =>
        match db.execute statement with
        | (.ok rows, later) => later.transact (fun n => faults (n + 1)) (next rows)
        | (.error e, later) => (.error e, later) := by
  simp only [transact, Sql.andThen, Sql.send, run_attempt, run_ask, executeOr]
  cases faults 0 with
  | some e => rfl
  | none =>
      rcases db.execute statement with ⟨answer, later⟩
      cases answer <;> rfl

theorem transact_send (statement : Statement) :
    db.transact faults (Sql.send statement) =
      match faults 0 with
      | some e => (.error e, db)
      | none => db.execute statement := by
  simp only [transact, Sql.send, run_ask, executeOr]
  cases faults 0 <;> rfl

theorem transact_reading (statement : Statement) (reads : (db.execute statement).2 = db) :
    (db.transact faults (Sql.send statement)).2 = db := by
  rw [transact_send]
  cases faults 0 with
  | some e => rfl
  | none => exact reads

def granted (found : Option GrantRow) (objectHash name : String)
    (originalSize essenceSize nowMs : Int) : GrantRow :=
  match found with
  | some existing => { existing with refs := existing.refs + 1, updatedAtMs := nowMs }
  | none =>
    { objectHash, refs := 1, originalSize, essenceSize, name, createdAtMs := nowMs
      updatedAtMs := nowMs }

theorem essenceSize_granted (found : Option GrantRow) (objectHash name : String)
    (originalSize essenceSize nowMs : Int) :
    (granted found objectHash name originalSize essenceSize nowMs).essenceSize =
      (found.map (·.essenceSize)).getD essenceSize := by
  cases found <;> rfl

/-- A grant is counted unless a statement fails, and then nothing changes. -/
theorem transact_addGrant (tenantId objectHash name : String)
    (originalSize essenceSize nowMs : Int) :
    (∃ e, (faults 0).or (faults 1) = some e ∧
      db.transact faults (addGrant tenantId objectHash name originalSize essenceSize nowMs) =
        (.error e, db)) ∨
    ((faults 0).or (faults 1) = none ∧ ∃ next : Database,
      db.transact faults (addGrant tenantId objectHash name originalSize essenceSize nowMs) =
        (.ok ((granted (db.findGrant tenantId objectHash) objectHash name originalSize
          essenceSize nowMs).refs, (db.findGrant tenantId objectHash).isNone), next) ∧
      next.events = db.events ∧ ∀ tenant object, next.findGrant tenant object =
        if (tenant, object) = (tenantId, objectHash) then
          some (granted (db.findGrant tenantId objectHash) objectHash name originalSize
            essenceSize nowMs)
        else db.findGrant tenant object) := by
  rw [addGrant, transact_andThen]
  cases first : faults 0 with
  | some e => exact Or.inl ⟨e, rfl, rfl⟩
  | none =>
      simp only [execute, Option.none_or]
      cases found : db.findGrant tenantId objectHash with
      | some existing =>
          dsimp only [addGrantTo]
          rw [transact_andThen]
          cases second : faults 1 with
          | some e => exact Or.inl ⟨e, rfl, rfl⟩
          | none =>
              refine Or.inr ⟨rfl, _, rfl, rfl, fun tenant object => ?_⟩
              have after := db.findGrant_update tenantId objectHash (existing.refs + 1) nowMs
                tenant object
              refine after.trans ?_
              split
              · rename_i same
                rw [(Prod.mk.inj same).1, (Prod.mk.inj same).2, found]
                rfl
              · rfl
      | none =>
          dsimp only [addGrantTo]
          rw [transact_andThen]
          cases second : faults 1 with
          | some e => exact Or.inl ⟨e, rfl, rfl⟩
          | none =>
              refine Or.inr ⟨rfl, ?_⟩
              rcases db.execute_insertGrant tenantId
                ⟨objectHash, 1, originalSize, essenceSize, name, nowMs, nowMs⟩ with
                ⟨-, next, inserted, events, after⟩ | ⟨taken, -⟩
              · exact ⟨next, by simp only [inserted, transact_done]; rfl, events, after⟩
              · exact absurd found taken

/-- What every allowed statement keeps holds after the transaction. -/
theorem transact_keeps {α : Type} {sql : Sql α} {allowed : Statement → Prop}
    (uses : sql.Uses allowed) (inv : Database → Prop)
    (kept : ∀ state statement, inv state → allowed statement → inv (state.execute statement).2)
    (start : inv db) : inv (db.transact faults sql).2 := by
  refine uses.run_keeps executeOr (fun state => inv state.1) ?_ (db, faults) start
  intro state statement held allows
  simp only [executeOr]
  cases state.2 0 with
  | some e => exact held
  | none => exact kept state.1 statement held allows

/-! ## What becomes of the grants -/

/-- The statement writes no grant but that of the tenant on the object, and adds none. -/
def Releases (tenantId objectHash : String) : Statement → Prop
  | .updateGrant _ _ tenant object | .deleteGrant tenant object =>
    (tenant, object) = (tenantId, objectHash)
  | .insertGrant _ _ => False
  | _ => True

theorem execute_releases {tenantId objectHash : String} {statement : Statement}
    (releases : Releases tenantId objectHash statement) (tenant object : String) :
    (∀ row, (db.execute statement).2.findGrant tenant object = some row →
        ∃ old, db.findGrant tenant object = some old ∧ row.essenceSize = old.essenceSize) ∧
      ((tenant, object) ≠ (tenantId, objectHash) →
        (db.execute statement).2.findGrant tenant object = db.findGrant tenant object) := by
  have unchanged : ∀ row, db.findGrant tenant object = some row →
      ∃ old, db.findGrant tenant object = some old ∧ row.essenceSize = old.essenceSize :=
    fun row found => ⟨row, found, rfl⟩
  cases statement with
  | insertGrant tenant row => exact releases.elim
  | updateGrant refs nowMs owner held =>
      rw [findGrant_update, releases]
      refine ⟨fun row found => ?_, fun other => if_neg other⟩
      split at found
      · obtain ⟨old, before, rfl⟩ := Option.map_eq_some_iff.mp found
        exact ⟨old, before, rfl⟩
      · exact unchanged row found
  | deleteGrant owner held =>
      rw [findGrant_delete, releases]
      refine ⟨fun row found => ?_, fun other => if_neg other⟩
      split at found
      · cases found
      · exact unchanged row found
  | insertEvent event =>
      simp only [execute]
      split <;> exact ⟨unchanged, fun _ => rfl⟩
  | _ => exact ⟨unchanged, fun _ => rfl⟩

theorem releaseGrant_uses (tenantId objectHash : String) (purge : Bool) (nowMs : Int) :
    (releaseGrant tenantId objectHash purge nowMs).Uses (Releases tenantId objectHash) := by
  refine Uses.attempt (Uses.ask (Statement.findGrant _ _) trivial) fun found => ?_
  unfold releaseGrantOf
  cases found with
  | none => trivial
  | some existing =>
      dsimp only
      split
      · exact Uses.attempt (Uses.ask (Statement.updateGrant _ _ _ _) (by rfl)) fun _ => trivial
      · exact Uses.attempt (Uses.ask (Statement.deleteGrant _ _) (by rfl)) fun _ => trivial

/-- A release adds no grant, resizes none, and takes none away but that of the tenant on
the object. -/
theorem transact_releaseGrant (tenantId objectHash : String) (purge : Bool) (nowMs : Int)
    (tenant object : String) :
    (∀ row, (db.transact faults (releaseGrant tenantId objectHash purge nowMs)).2.findGrant
        tenant object = some row →
        ∃ old, db.findGrant tenant object = some old ∧ row.essenceSize = old.essenceSize) ∧
      ((tenant, object) ≠ (tenantId, objectHash) →
        (db.transact faults (releaseGrant tenantId objectHash purge nowMs)).2.findGrant tenant
          object = db.findGrant tenant object) := by
  refine db.transact_keeps faults (releaseGrant_uses tenantId objectHash purge nowMs)
    (fun state => (∀ row, state.findGrant tenant object = some row →
        ∃ old, db.findGrant tenant object = some old ∧ row.essenceSize = old.essenceSize) ∧
      ((tenant, object) ≠ (tenantId, objectHash) →
        state.findGrant tenant object = db.findGrant tenant object)) ?_
    ⟨fun row found => ⟨row, found, rfl⟩, fun _ => rfl⟩
  intro state statement held releases
  have one := state.execute_releases releases tenant object
  refine ⟨fun row found => ?_, fun other => (one.2 other).trans (held.2 other)⟩
  obtain ⟨between, there, sized⟩ := one.1 row found
  obtain ⟨old, before, same⟩ := held.1 between there
  exact ⟨old, before, sized.trans same⟩

def leavesGrants : Statement → Prop
  | .updateGrant _ _ _ _ | .insertGrant _ _ | .deleteGrant _ _ => False
  | _ => True

def Records (event : UsageEvent) : Statement → Prop
  | .insertEvent own => own = event
  | .findEvent _ _ => True
  | _ => False

theorem record_asks (event : UsageEvent) : (Usage.record event).Uses (Records event) := by
  have again : ∀ e, (Usage.lookAgain event e).Uses (Records event) := by
    intro e
    unfold Usage.lookAgain
    cases event.idempotencyKey with
    | none => trivial
    | some key =>
        refine Uses.attempt (Uses.ask (Statement.findEvent _ _) trivial) fun found => ?_
        split <;> trivial
  have inserts : (Usage.insertEvent event).Uses (Records event) := by
    refine Uses.bind (Uses.ask (Statement.insertEvent _) (by rfl)) fun answer => ?_
    cases answer with
    | ok _ => trivial
    | error e => exact again e
  unfold Usage.record
  cases event.idempotencyKey with
  | none => exact inserts
  | some key =>
      refine Uses.attempt (Uses.ask (Statement.findEvent _ _) trivial) fun found => ?_
      split
      · trivial
      · exact inserts

theorem record_uses (event : UsageEvent) : (Usage.record event).Uses leavesGrants := by
  refine (record_asks event).mono fun statement records => ?_
  cases statement with
  | insertEvent => trivial
  | findEvent => trivial
  | _ => exact records.elim

theorem transact_record_events (event : UsageEvent) {key : String × String}
    (other : eventKey event ≠ some key) :
    (db.transact faults (Usage.record event)).2.events.find key = db.events.find key := by
  refine db.transact_keeps faults (record_asks event)
    (fun state => state.events.find key = db.events.find key) ?_ rfl
  intro state statement held records
  cases statement with
  | insertEvent own =>
      cases records
      simp only [execute]
      split
      · rename_i events inserted
        rw [Table.find_insert inserted, if_neg other]
        exact held
      · exact held
  | findEvent => exact held
  | _ => exact records.elim

theorem transact_record_grants (event : UsageEvent) :
    (db.transact faults (Usage.record event)).2.grants = db.grants := by
  refine db.transact_keeps faults (record_uses event) (fun state => state.grants = db.grants)
    ?_ rfl
  intro state statement held leaves
  cases statement with
  | updateGrant => exact leaves.elim
  | insertGrant => exact leaves.elim
  | deleteGrant => exact leaves.elim
  | insertEvent event =>
      simp only [execute]
      split <;> exact held
  | _ => exact held

theorem execute_countGrants {objectHash : String}
    (none_left : (db.execute (.countGrants objectHash)).1 = .ok 0) (tenantId : String) :
    db.findGrant tenantId objectHash = none := by
  have counted : (db.grants.rows.countP fun row => row.2.objectHash = objectHash) = 0 :=
    Except.ok.inj none_left
  rw [List.countP_eq_zero] at counted
  rw [findGrant, Option.map_eq_none_iff, Table.find_eq_none]
  intro row member same
  have here := counted row member
  rw [grantKey, Option.some.injEq, Prod.mk.injEq] at same
  simp [same.2] at here

/-! ## What becomes of the ledger -/

/-- Whether `record` fails for an event whose key is new. -/
def recordFails (event : UsageEvent) : Bool :=
  (faults 0).isSome || (event.idempotencyKey.isSome && (faults 1).isSome)

theorem transact_insertEvent (event : UsageEvent) (fresh : db.events.accepts event = true) :
    (db.transact faults (Usage.insertEvent event)).2.events.rows =
      db.events.rows ++ if (faults 0).isSome then [] else [event] := by
  simp only [transact, Usage.insertEvent, Sql.send, run_bind, run_ask, executeOr]
  cases first : faults 0 with
  | some e =>
      suffices kept : (db.transact (fun n => faults (n + 1)) (Usage.lookAgain event e)).2 = db by
        simp only [transact] at kept
        simp [kept]
      unfold Usage.lookAgain
      cases event.idempotencyKey with
      | none => rfl
      | some key =>
          dsimp only [Usage.findByIdempotency]
          rw [transact_andThen]
          cases faults 1 with
          | some e => rfl
          | none =>
              simp only [execute]
              split <;> rfl
  | none =>
      cases inserted : db.events.insert event with
      | some events =>
          simp only [execute, inserted]
          exact (Table.insert_eq_some inserted).2
      | none =>
          rw [Table.insert_eq_none, fresh] at inserted
          simp at inserted

theorem transact_record (event : UsageEvent) (fresh : db.events.accepts event = true) :
    (db.transact faults (Usage.record event)).2.events.rows =
      db.events.rows ++ if recordFails faults event then [] else [event] := by
  unfold Usage.record recordFails
  cases key : event.idempotencyKey with
  | none =>
      rw [Option.isSome_none, Bool.false_and, Bool.or_false]
      exact db.transact_insertEvent faults event fresh
  | some key' =>
      have absent := Table.accepts_iff.mp fresh (event.tenantId, key') (by simp [eventKey, key])
      dsimp only [Usage.findByIdempotency]
      rw [transact_andThen]
      cases first : faults 0 with
      | some e => simp
      | none =>
          simp only [execute, absent, Option.map_none, Option.isSome_none, Bool.false_eq_true,
            if_false, Option.isSome_some, Bool.true_and, Bool.false_or]
          exact db.transact_insertEvent (fun n => faults (n + 1)) event fresh

end Database

/-! ## What calls leave alone -/

namespace EngineCall

def leavesDb : EngineCall → Prop
  | addGrant _ _ _ _ _ _ | releaseGrant _ _ _ _ | recordUsage _ => False
  | _ => True

def leavesBlobs : EngineCall → Prop
  | writeBlob _ _ | purge _ => False
  | _ => True

end EngineCall

variable (P : Platform)

theorem Engine.perform_db (engine : Engine) (outside : Outside) (call : EngineCall)
    (other : call.leavesDb) : (engine.perform P outside call).2.db = engine.db := by
  cases call with
  | addGrant => exact other.elim
  | releaseGrant => exact other.elim
  | recordUsage => exact other.elim
  | findEvent tenantId key => exact engine.db.transact_reading _ (.findEvent tenantId key) rfl
  | findGrant tenantId objectHash =>
      exact engine.db.transact_reading _ (.findGrant tenantId objectHash) rfl
  | countGrants objectHash => exact engine.db.transact_reading _ (.countGrants objectHash) rfl
  | readBlob | writeBlob | recordObject | purge =>
      simp only [perform]
      split <;> rfl
  | _ => rfl

theorem Engine.perform_blobs (engine : Engine) (outside : Outside) (call : EngineCall)
    (other : call.leavesBlobs) : (engine.perform P outside call).2.blobs = engine.blobs := by
  cases call with
  | writeBlob => exact other.elim
  | purge => exact other.elim
  | readBlob | recordObject =>
      simp only [perform]
      split <;> rfl
  | _ => rfl

theorem Engine.perform_blobs_kept (engine : Engine) (outside : Outside) (call : EngineCall)
    (hash : Digest) (other : call ≠ .purge hash) (present : engine.blobs hash ≠ none) :
    (engine.perform P outside call).2.blobs hash ≠ none := by
  by_cases leaves : call.leavesBlobs
  · rw [engine.perform_blobs P outside call leaves]
    exact present
  cases call with
  | writeBlob written bytes =>
      simp only [perform]
      cases outside.fault with
      | some e => exact present
      | none =>
          dsimp only
          rw [Function.update_apply]
          split
          · exact Option.some_ne_none bytes
          · exact present
  | purge purged =>
      simp only [perform]
      cases outside.fault with
      | some e => exact present
      | none =>
          dsimp only
          rw [Function.update_of_ne]
          · exact present
          · intro same
            exact other (same ▸ rfl)
  | _ => exact absurd trivial leaves

def EngineCall.grants (objectHash : String) : EngineCall → Prop
  | addGrant _ object _ _ _ _ => object = objectHash
  | _ => False

def EngineCall.releases (tenantId objectHash : String) : EngineCall → Prop
  | releaseGrant tenant object _ _ => (tenantId, objectHash) = (tenant, object)
  | _ => False

theorem Engine.perform_granted (engine : Engine) (outside : Outside) (call : EngineCall)
    (tenantId objectHash : String)
    (granted : (engine.perform P outside call).2.db.findGrant tenantId objectHash ≠ none) :
    engine.db.findGrant tenantId objectHash ≠ none ∨ call.grants objectHash := by
  by_cases leaves : call.leavesDb
  · rw [engine.perform_db P outside call leaves] at granted
    exact Or.inl granted
  cases call with
  | addGrant tenant object name originalSize essenceSize nowMs =>
      rcases engine.db.transact_addGrant outside.statementFault tenant object name originalSize
        essenceSize nowMs with ⟨e, -, refused⟩ | ⟨-, next, done, -, rows⟩
      · simp only [perform, refused, withDb] at granted
        exact Or.inl granted
      · simp only [perform, done, withDb, rows] at granted
        by_cases same : (tenantId, objectHash) = (tenant, object)
        · exact Or.inr (Prod.mk.inj same).2.symm
        · rw [if_neg same] at granted
          exact Or.inl granted
  | releaseGrant tenant object purge nowMs =>
      left
      obtain ⟨row, found⟩ := Option.ne_none_iff_exists'.mp granted
      obtain ⟨old, before, -⟩ := (engine.db.transact_releaseGrant outside.statementFault tenant
        object purge nowMs tenantId objectHash).1 row found
      rw [before]
      exact Option.some_ne_none old
  | recordUsage event =>
      left
      have same := engine.db.transact_record_grants outside.statementFault event
      simp only [perform, withDb, Database.findGrant, same] at granted
      exact granted
  | _ => exact absurd trivial leaves

theorem Engine.perform_grant_kept (engine : Engine) (outside : Outside) (call : EngineCall)
    (tenantId objectHash : String) (other : ¬ call.releases tenantId objectHash)
    (granted : engine.db.findGrant tenantId objectHash ≠ none) :
    (engine.perform P outside call).2.db.findGrant tenantId objectHash ≠ none := by
  by_cases leaves : call.leavesDb
  · rw [engine.perform_db P outside call leaves]
    exact granted
  cases call with
  | addGrant tenant object name originalSize essenceSize nowMs =>
      rcases engine.db.transact_addGrant outside.statementFault tenant object name originalSize
        essenceSize nowMs with ⟨e, -, refused⟩ | ⟨-, next, done, -, rows⟩
      · simp only [perform, refused, withDb]
        exact granted
      · simp only [perform, done, withDb, rows]
        split
        · exact Option.some_ne_none _
        · exact granted
  | releaseGrant tenant object purge nowMs =>
      have kept := (engine.db.transact_releaseGrant outside.statementFault tenant object purge
        nowMs tenantId objectHash).2 other
      simp only [perform, withDb, kept]
      exact granted
  | recordUsage event =>
      have same := engine.db.transact_record_grants outside.statementFault event
      simp only [perform, withDb, Database.findGrant, same]
      exact granted
  | _ => exact absurd trivial leaves

/-- The outside of the calls after a run is what was left of it. -/
theorem World.run_outside {α : Type} (program : Handler α) (world : World) (n : Nat) :
    (program.run (World.perform P) world).2.outside n =
      world.outside ((program.trace (World.perform P) world).length + n) := by
  induction program generalizing world with
  | done value =>
      rw [run_done, trace_done, List.length_nil, Nat.zero_add]
  | call asked next ih =>
      rw [run_call, trace_call, List.length_cons, ih]
      show world.outside _ = world.outside _
      congr 1
      omega

end Syntra

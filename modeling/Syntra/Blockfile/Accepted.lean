import Syntra.Blockfile.Writer

/-!
# What the writer accepted

Over any sequence of calls the tables of the writer are those of the blocks whose
push was accepted, whatever failed in between.  What the sink holds is the
header and their payloads, with what failed writes left between them.
-/

set_option autoImplicit false

namespace Syntra.Blockfile

open Fallible

structure Pushed where
  original : Bytes
  planIdx : Nat
  payload : Bytes
  deriving Repr, DecidableEq

variable (P : Platform)

/-! ## The tables -/

def storedTable (blocks : List Pushed) : Bytes :=
  blocks.flatMap fun b => LittleEndian.toBytes 4 b.payload.length

def originalTable (blocks : List Pushed) : Bytes :=
  blocks.flatMap fun b => LittleEndian.toBytes 4 b.original.length

def planTable (blocks : List Pushed) : Bytes :=
  blocks.flatMap fun b => LittleEndian.toBytes 2 b.planIdx

def hashTable (blocks : List Pushed) : Bytes := blocks.flatMap fun b => shortHash P b.payload

def payloads (blocks : List Pushed) : Bytes := blocks.flatMap (·.payload)

def originals (blocks : List Pushed) : Bytes := blocks.flatMap (·.original)

/-- What a push checks of a block alone. -/
structure Pushed.Fits (log2 planCount : Nat) (b : Pushed) : Prop where
  filled : 0 < b.original.length
  within : b.original.length ≤ 1 <<< log2
  planned : b.planIdx < planCount
  slack : b.payload.length ≤ slackLen b.original.length

/-- Only the last block may be short. -/
def FullButLast (log2 : Nat) (blocks : List Pushed) : Prop :=
  ∀ b ∈ blocks.dropLast, b.original.length = 1 <<< log2

/-- The plans of a table: valid, without lengths and each only once. -/
structure PlanTable (plans : List BlockPlan) : Prop where
  valid : ∀ plan ∈ plans, plan.validate = .ok ()
  normal : ∀ plan ∈ plans, plan.normalized = plan
  nodup : plans.Nodup
  few : plans.length ≤ maxPlans

structure Writer.Holds (w : Writer) (blocks : List Pushed) : Prop where
  log2 : minBlockLog2 ≤ w.log2 ∧ w.log2 ≤ maxBlockLog2
  plans : PlanTable w.plans
  storedLens : w.storedLens = storedTable blocks
  originalLens : w.originalLens = originalTable blocks
  planIndices : w.planIndices = planTable blocks
  payloadHashes : w.payloadHashes = hashTable P blocks
  count : w.blocks = blocks.length
  hashed : w.hashed = originals blocks
  originalSize : w.originalSize = (originals blocks).length
  payloadBytes : w.payloadBytes = (payloads blocks).length
  sound : ∀ b ∈ blocks, b.Fits w.log2 w.plans.length
  full : FullButLast w.log2 blocks
  sealed : w.sealedByShortBlock = true ↔ ∃ last ∈ blocks.getLast?, last.original.length < w.blockSize
  few : blocks.length ≤ maxBlocks

/-! ## One call -/

theorem Writer.new_eq_ok {log2 : Nat} {first second : Option Fault} {w : Writer}
    (made : Writer.new log2 first second = .ok w) :
    w.Holds P [] ∧ w.out = header log2 ∧ w.log2 = log2 := by
  obtain ⟨_, valid, made⟩ := bind_eq_ok.mp made
  cases first with
  | some fault => cases made
  | none =>
      cases second with
      | some fault => cases made
      | none =>
          cases made
          refine ⟨?_, rfl, rfl⟩
          exact
            { log2 := checkLog2_eq_ok.mp valid
              plans := ⟨by simp, by simp, List.nodup_nil, Nat.zero_le _⟩
              storedLens := rfl, originalLens := rfl, planIndices := rfl, payloadHashes := rfl
              count := rfl, hashed := rfl, originalSize := rfl, payloadBytes := rfl
              sound := by simp, full := by simp [FullButLast], sealed := by simp
              few := Nat.zero_le _ }

/-- A plan is found, or added at the end; nothing else changes. -/
theorem Writer.addPlan_cases {w : Writer} (plan : BlockPlan) (table : PlanTable w.plans) :
    (∃ refusal, w.addPlan plan = (.error refusal, w)) ∨
      ∃ i added, w.addPlan plan = (.ok i, { w with plans := w.plans ++ added }) ∧
        PlanTable (w.plans ++ added) ∧ (w.plans ++ added)[i]? = some plan.normalized := by
  unfold addPlan
  dsimp only
  cases valid : plan.normalized.validate with
  | error reason => exact Or.inl ⟨_, rfl⟩
  | ok _ =>
      dsimp only
      cases found : w.plans.findIdx? (· = plan.normalized) with
      | some i =>
          obtain ⟨inside, same, -⟩ := List.findIdx?_eq_some_iff_getElem.mp found
          have small : i % 2 ^ 16 = i := by
            have few := table.few
            simp only [maxPlans] at few
            omega
          refine Or.inr ⟨i, [], ?_, ?_, ?_⟩
          · simp only [small, List.append_nil]
          · rwa [List.append_nil]
          · rw [List.append_nil, List.getElem?_eq_getElem inside, of_decide_eq_true same]
      | none =>
          have absent := List.findIdx?_eq_none_iff.mp found
          by_cases room : maxPlans ≤ w.plans.length
          · exact Or.inl ⟨_, if_pos room⟩
          · have small : w.plans.length % 2 ^ 16 = w.plans.length := by
              simp only [maxPlans] at room
              omega
            refine Or.inr ⟨w.plans.length, [plan.normalized], ?_, ?_, ?_⟩
            · rw [if_neg room, small]
            · refine ⟨?_, ?_, ?_, ?_⟩
              · intro other member
                rcases List.mem_append.mp member with listed | new
                · exact table.valid other listed
                · rw [List.mem_singleton.mp new]
                  exact valid
              · intro other member
                rcases List.mem_append.mp member with listed | new
                · exact table.normal other listed
                · rw [List.mem_singleton.mp new, BlockPlan.normalized_normalized]
              · rw [List.nodup_append]
                refine ⟨table.nodup, List.nodup_singleton _, ?_⟩
                intro left listed right new same
                rw [List.mem_singleton.mp new] at same
                exact of_decide_eq_false (by simpa using absent left listed) same
              · rw [List.length_append, List.length_singleton]
                omega
            · simp

variable {P}

theorem Pushed.Fits.mono {log2 few many : Nat} {b : Pushed} (fits : b.Fits log2 few)
    (more : few ≤ many) : b.Fits log2 many :=
  { fits with planned := fits.planned.trans_le more }

theorem Writer.Holds.addPlans {w : Writer} {blocks : List Pushed} (held : w.Holds P blocks)
    {added : List BlockPlan} (table : PlanTable (w.plans ++ added)) :
    Writer.Holds P { w with plans := w.plans ++ added } blocks :=
  { held with
    plans := table
    sound := fun b member => (held.sound b member).mono (by simp) }

theorem Writer.Holds.anyOut {w : Writer} {blocks : List Pushed} (held : w.Holds P blocks)
    (out : Bytes) : Writer.Holds P { w with out } blocks := { held with }

theorem Writer.checkPush_eq_ok {w : Writer} {original : Bytes} {planIdx : Nat} {payload : Bytes} :
    w.checkPush original planIdx payload = .ok () ↔
      w.sealedByShortBlock = false ∧
        Pushed.Fits w.log2 w.plans.length ⟨original, planIdx, payload⟩ ∧ w.blocks < maxBlocks := by
  simp only [checkPush, rejectIf_bind_eq_ok, rejectIf_eq_ok, Nat.not_lt, Nat.not_le,
    Bool.not_eq_true]
  constructor
  · rintro ⟨open_, filled, within, planned, slack, room⟩
    exact ⟨open_, ⟨List.length_pos_iff.mpr filled, within, planned, slack⟩, room⟩
  · rintro ⟨open_, fits, room⟩
    exact ⟨open_, List.length_pos_iff.mp fits.filled, fits.within, fits.planned, fits.slack, room⟩

theorem Writer.Holds.record {w : Writer} {blocks : List Pushed} (held : w.Holds P blocks)
    {original : Bytes} {planIdx : Nat} {payload : Bytes}
    (checked : w.checkPush original planIdx payload = .ok ()) :
    (w.record P original planIdx payload).Holds P
      (blocks ++ [⟨original, planIdx, payload⟩]) := by
  obtain ⟨unsealed, fits, room⟩ := checkPush_eq_ok.mp checked
  have allFull : ∀ b ∈ blocks, b.original.length = 1 <<< w.log2 := by
    cases blocks using List.reverseRecOn with
    | nil => exact fun b member => absurd member List.not_mem_nil
    | append_singleton front last _ =>
        intro b member
        rcases List.mem_append.mp member with earlier | final
        · exact held.full b (by rwa [List.dropLast_concat])
        · rw [List.mem_singleton.mp final]
          have within := (held.sound last (by simp)).within
          have long : ¬ last.original.length < w.blockSize := by
            intro short
            have isSealed := held.sealed.mpr ⟨last, by simp, short⟩
            rw [unsealed] at isSealed
            cases isSealed
          exact Nat.le_antisymm within (Nat.le_of_not_lt long)
  refine
    { log2 := held.log2
      plans := held.plans
      storedLens := ?_, originalLens := ?_, planIndices := ?_, payloadHashes := ?_
      count := ?_, hashed := ?_, originalSize := ?_, payloadBytes := ?_, sound := ?_
      full := ?_, sealed := ?_, few := ?_ }
  · simp [Writer.record, held.storedLens, storedTable]
  · simp [Writer.record, held.originalLens, originalTable]
  · simp [Writer.record, held.planIndices, planTable]
  · simp [Writer.record, held.payloadHashes, hashTable]
  · simp [Writer.record, held.count]
  · simp [Writer.record, held.hashed, originals]
  · simp [Writer.record, held.originalSize, originals]
  · simp [Writer.record, held.payloadBytes, payloads]
  · intro b member
    rcases List.mem_append.mp member with earlier | new
    · exact held.sound b earlier
    · rw [List.mem_singleton.mp new]
      exact fits
  · intro b member
    rw [List.dropLast_concat] at member
    exact allFull b member
  · simp only [Writer.record, Writer.blockSize, unsealed, Bool.false_or, List.getLast?_concat,
      Option.mem_some_iff, exists_eq_left']
    exact decide_eq_true_iff
  · have count := held.count
    rw [List.length_append, List.length_singleton]
    omega

/-! ## Any sequence of calls -/

inductive Call where
  | addPlan (plan : BlockPlan)
  | pushBlock (original : Bytes) (planIdx : Nat) (payload : Bytes) (fault : Option Fault)
  | pushCompressed (original : Bytes) (block : CompressedBlock) (fault : Option Fault)
  deriving Repr, DecidableEq

variable (P)

def Writer.step (w : Writer) : Call → Except BlockError (Option Pushed) × Writer
  | .addPlan plan =>
    let (result, w) := w.addPlan plan
    (result.map fun _ => none, w)
  | .pushBlock original planIdx payload fault =>
    let (result, w) := w.pushBlock P original planIdx payload fault
    (result.map fun _ => some ⟨original, planIdx, payload⟩, w)
  | .pushCompressed original block fault =>
    let (result, w) := w.pushCompressed P original block fault
    (result.map fun planIdx => some ⟨original, planIdx, block.payload⟩, w)

def Writer.steps (w : Writer) : List Call → List (Except BlockError (Option Pushed)) × Writer
  | [] => ([], w)
  | call :: calls =>
    let (result, w) := w.step P call
    let (results, w) := w.steps calls
    (result :: results, w)

def addedBy : Except BlockError (Option Pushed) → Option Pushed
  | .ok added => added
  | .error _ => none

def acceptedBy (results : List (Except BlockError (Option Pushed))) : List Pushed :=
  results.filterMap addedBy

/-- What a push leaves in the sink when its write fails. -/
def Writer.pushLitter (w : Writer) (original : Bytes) (planIdx : Nat) (payload : Bytes)
    (fault : Option Fault) : Bytes :=
  match w.checkPush original planIdx payload, fault with
  | .ok (), some fault => payload.take fault.written
  | _, _ => []

def Writer.litter (w : Writer) : Call → Bytes
  | .addPlan _ => []
  | .pushBlock original planIdx payload fault => w.pushLitter original planIdx payload fault
  | .pushCompressed original block fault =>
    match w.addPlan block.plan with
    | (.ok planIdx, w) => w.pushLitter original planIdx block.payload fault
    | (.error _, _) => []

/-- What all failed writes of the calls left. -/
def Writer.litters (w : Writer) : List Call → Bytes
  | [] => []
  | call :: calls => w.litter call ++ (w.step P call).2.litters calls

def Call.unfailing : Call → Prop
  | .addPlan _ => True
  | .pushBlock _ _ _ fault => fault = none
  | .pushCompressed _ _ fault => fault = none

theorem Writer.pushLitter_none (w : Writer) (original : Bytes) (planIdx : Nat) (payload : Bytes) :
    w.pushLitter original planIdx payload none = [] := by
  unfold pushLitter
  cases w.checkPush original planIdx payload <;> rfl

theorem Writer.litters_of_unfailing {calls : List Call}
    (unfailing : ∀ call ∈ calls, call.unfailing) (w : Writer) : w.litters P calls = [] := by
  induction calls generalizing w with
  | nil => rfl
  | cons call calls ih =>
      have rest := ih (fun other member => unfailing other (List.mem_cons_of_mem _ member))
        (w.step P call).2
      have first := unfailing call List.mem_cons_self
      rw [litters, rest, List.append_nil]
      cases call with
      | addPlan plan => rfl
      | pushBlock original planIdx payload fault =>
          obtain rfl : fault = none := first
          exact w.pushLitter_none original planIdx payload
      | pushCompressed original block fault =>
          obtain rfl : fault = none := first
          rw [litter]
          cases w.addPlan block.plan with
          | mk result after =>
              cases result with
              | error refusal => rfl
              | ok planIdx => exact after.pushLitter_none original planIdx block.payload

structure Writer.SameTables (w w' : Writer) : Prop where
  log2 : w'.log2 = w.log2
  storedLens : w'.storedLens = w.storedLens
  originalLens : w'.originalLens = w.originalLens
  planIndices : w'.planIndices = w.planIndices
  payloadHashes : w'.payloadHashes = w.payloadHashes
  blocks : w'.blocks = w.blocks
  hashed : w'.hashed = w.hashed
  originalSize : w'.originalSize = w.originalSize
  payloadBytes : w'.payloadBytes = w.payloadBytes
  sealed : w'.sealedByShortBlock = w.sealedByShortBlock

theorem Writer.SameTables.refl (w : Writer) : w.SameTables w :=
  ⟨rfl, rfl, rfl, rfl, rfl, rfl, rfl, rfl, rfl, rfl⟩

variable {P}

structure Writer.Steps (P : Platform) (w : Writer) (blocks : List Pushed) (call : Call)
    (result : Except BlockError (Option Pushed)) (w' : Writer) : Prop where
  holds : w'.Holds P (blocks ++ (addedBy result).toList)
  log2 : w'.log2 = w.log2
  out : w'.out = w.out ++ (payloads (addedBy result).toList ++ w.litter call)
  plans : w.plans <+: w'.plans
  failed : ∀ failure, result = .error failure → w.SameTables w'

theorem Writer.pushBlock_steps {w : Writer} {blocks : List Pushed} (held : w.Holds P blocks)
    (original : Bytes) (planIdx : Nat) (payload : Bytes) (fault : Option Fault) :
    (∃ failure left, w.pushBlock P original planIdx payload fault =
        (.error failure, { w with out := w.out ++ left }) ∧
      left = w.pushLitter original planIdx payload fault) ∨
      ∃ w', w.pushBlock P original planIdx payload fault = (.ok (), w') ∧
        w'.Holds P (blocks ++ [⟨original, planIdx, payload⟩]) ∧ w'.log2 = w.log2 ∧
        w'.plans = w.plans ∧ w'.out = w.out ++ payload ∧
        w.pushLitter original planIdx payload fault = [] := by
  unfold pushBlock pushLitter
  cases checked : w.checkPush original planIdx payload with
  | error refusal =>
      refine Or.inl ⟨refusal, [], ?_, rfl⟩
      simp only [List.append_nil]
  | ok _ =>
      cases fault with
      | some fault => exact Or.inl ⟨_, payload.take fault.written, rfl, rfl⟩
      | none =>
          refine Or.inr ⟨_, rfl, ?_, rfl, rfl, rfl, rfl⟩
          exact (held.anyOut (w.out ++ payload)).record checked

theorem Writer.step_steps {w : Writer} {blocks : List Pushed} (held : w.Holds P blocks)
    (call : Call) :
    w.Steps P blocks call (w.step P call).1 (w.step P call).2 := by
  cases call with
  | addPlan plan =>
      rcases w.addPlan_cases plan held.plans with ⟨refusal, same⟩ | ⟨i, added, new, table, -⟩
      · simp only [step, same, Except.map]
        exact
          { holds := by rw [addedBy, Option.toList_none, List.append_nil]; exact held
            log2 := rfl
            out := by simp [addedBy, payloads, litter]
            plans := List.prefix_refl _
            failed := fun _ _ => SameTables.refl w }
      · simp only [step, new, Except.map]
        exact
          { holds := by rw [addedBy, Option.toList_none, List.append_nil]; exact held.addPlans table
            log2 := rfl
            out := by simp [addedBy, payloads, litter]
            plans := List.prefix_append _ _
            failed := fun _ impossible => by cases impossible }
  | pushBlock original planIdx payload fault =>
      rcases w.pushBlock_steps held original planIdx payload fault with
        ⟨failure, left, same, left_eq⟩ | ⟨w', made, holds, log2, plans, out, clean⟩
      · simp only [step, same, Except.map]
        exact
          { holds := by rw [addedBy, Option.toList_none, List.append_nil]; exact held.anyOut _
            log2 := rfl
            out := by simp [addedBy, payloads, litter, left_eq]
            plans := List.prefix_refl _
            failed := fun _ _ => ⟨rfl, rfl, rfl, rfl, rfl, rfl, rfl, rfl, rfl, rfl⟩ }
      · simp only [step, made, Except.map]
        exact
          { holds := holds
            log2 := log2
            out := by simp [addedBy, payloads, litter, clean, out]
            plans := by rw [plans]
            failed := fun _ impossible => by cases impossible }
  | pushCompressed original block fault =>
      rcases w.addPlan_cases block.plan held.plans with ⟨refusal, same⟩ | ⟨i, added, new, table, -⟩
      · simp only [step, pushCompressed, same, Except.map]
        exact
          { holds := by rw [addedBy, Option.toList_none, List.append_nil]; exact held
            log2 := rfl
            out := by simp [addedBy, payloads, litter, same]
            plans := List.prefix_refl _
            failed := fun _ _ => SameTables.refl w }
      · have grown := held.addPlans table
        rcases Writer.pushBlock_steps grown original i block.payload fault with
          ⟨failure, left, same, left_eq⟩ | ⟨w', made, holds, log2, plans, out, clean⟩
        · simp only [step, pushCompressed, new, same, Except.map]
          exact
            { holds := by rw [addedBy, Option.toList_none, List.append_nil]; exact grown.anyOut _
              log2 := rfl
              out := by simp [addedBy, payloads, litter, new, left_eq]
              plans := List.prefix_append _ _
              failed := fun _ _ => ⟨rfl, rfl, rfl, rfl, rfl, rfl, rfl, rfl, rfl, rfl⟩ }
        · simp only [step, pushCompressed, new, made, Except.map]
          exact
            { holds := holds
              log2 := log2
              out := by simp [addedBy, payloads, litter, new, clean, out]
              plans := by rw [plans]; exact List.prefix_append _ _
              failed := fun _ impossible => by cases impossible }

/-- Any calls: what the writer holds, and what it added to the sink. -/
theorem Writer.steps_hold {w : Writer} {blocks : List Pushed} (held : w.Holds P blocks)
    (calls : List Call) :
    (w.steps P calls).2.Holds P (blocks ++ acceptedBy (w.steps P calls).1) ∧
      (w.steps P calls).2.log2 = w.log2 ∧
      ∃ added, (w.steps P calls).2.out = w.out ++ added ∧
        added.length = (payloads (acceptedBy (w.steps P calls).1)).length +
          (w.litters P calls).length ∧
        (w.litters P calls = [] → added = payloads (acceptedBy (w.steps P calls).1)) := by
  induction calls generalizing w blocks with
  | nil =>
      refine ⟨by simpa [steps, acceptedBy] using held, rfl, [], ?_, ?_, ?_⟩
      · simp [steps]
      · simp [steps, acceptedBy, litters, payloads]
      · simp [steps, acceptedBy, payloads]
  | cons call calls ih =>
      have one := Writer.step_steps held call
      obtain ⟨holds, log2, added, out, length, clean⟩ := ih one.holds
      have accepted : acceptedBy (w.steps P (call :: calls)).1 =
          (addedBy (w.step P call).1).toList ++ acceptedBy ((w.step P call).2.steps P calls).1 := by
        simp only [steps, acceptedBy, List.filterMap_cons]
        cases addedBy (w.step P call).1 <;> rfl
      have after : (w.steps P (call :: calls)).2 = ((w.step P call).2.steps P calls).2 := rfl
      have split : payloads (acceptedBy (w.steps P (call :: calls)).1) =
          payloads (addedBy (w.step P call).1).toList ++
            payloads (acceptedBy ((w.step P call).2.steps P calls).1) := by
        rw [accepted, payloads, List.flatMap_append]
        rfl
      rw [split, after, accepted, ← List.append_assoc]
      refine ⟨holds, log2.trans one.log2, payloads (addedBy (w.step P call).1).toList ++
        w.litter call ++ added, ?_, ?_, ?_⟩
      · rw [out, one.out]
        simp only [List.append_assoc]
      · simp only [litters, List.length_append, length]
        omega
      · intro none_left
        rw [litters, List.append_eq_nil_iff] at none_left
        rw [clean none_left.2, none_left.1, List.append_nil]

theorem Writer.plans_steps {w : Writer} {blocks : List Pushed} (held : w.Holds P blocks)
    (calls : List Call) : w.plans <+: (w.steps P calls).2.plans := by
  induction calls generalizing w blocks with
  | nil => exact List.prefix_refl _
  | cons call calls ih =>
      have one := Writer.step_steps held call
      exact one.plans.trans (ih one.holds)

theorem Writer.steps_append (w : Writer) (before after : List Call) :
    (w.steps P (before ++ after)).2 = ((w.steps P before).2.steps P after).2 := by
  induction before generalizing w with
  | nil => rfl
  | cons call before ih => exact ih _

/-- A plan that was accepted keeps its index in the table. -/
theorem Writer.addPlan_stays {w added : Writer} {blocks : List Pushed} (held : w.Holds P blocks)
    {before after : List Call} {plan : BlockPlan} {i : Nat}
    (accepted : (w.steps P before).2.addPlan plan = (.ok i, added)) :
    (w.steps P (before ++ .addPlan plan :: after)).2.plans[i]? = some plan.normalized := by
  have holds := (Writer.steps_hold held before).1
  have one := Writer.step_steps holds (.addPlan plan)
  obtain ⟨rest, grown⟩ := Writer.plans_steps one.holds after
  rw [Writer.steps_append, Writer.steps]
  dsimp only
  rw [← grown]
  rcases (w.steps P before).2.addPlan_cases plan holds.plans with
    ⟨refusal, refused⟩ | ⟨j, more, new, -, there⟩
  · rw [refused] at accepted
    cases accepted
  · rw [new] at accepted
    cases accepted
    simp only [Writer.step, new]
    exact (List.getElem?_append_left (List.getElem?_eq_some_iff.mp there).1).trans there

end Syntra.Blockfile

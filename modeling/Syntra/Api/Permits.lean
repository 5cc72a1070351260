import Syntra.Api
import Syntra.Lib.Permits
import Syntra.Lib.Run

/-!
# Permits of the engine

How requests and ingestions take permits, and how the load balancer keeps some back while
the processor is busy.
-/

set_option autoImplicit false

namespace Syntra

namespace Api

open Permits

inductive Permit where
  /-- The gate of the watcher. -/
  | gate
  | compress
  | io
  deriving DecidableEq

namespace Permit

/-- Permits are taken inside the gate only. -/
def rank : Permit → Nat
  | gate => 0
  | compress | io => 1

end Permit

def ingestConcurrency : Nat := 4

/-- The processors, and the multiplier as the configuration clamps it. -/
structure Concurrency where
  cpus : Nat
  compressMultiplier : Nat
  cpus_pos : 0 < cpus
  compressMultiplier_pos : 0 < compressMultiplier

def Concurrency.capacity (concurrency : Concurrency) : Permit → Nat
  | .gate => ingestConcurrency
  | .compress => concurrency.cpus
  | .io => concurrency.cpus * concurrency.compressMultiplier

/-! ## What the calls take -/

/-- One way a call may go: what it takes and gives back, and whether it goes well. -/
structure Way where
  script : List (Op Permit)
  ok : Bool
  deriving DecidableEq

abbrev Ways := List Way

namespace Ways

def work : Ways := [⟨[], true⟩, ⟨[], false⟩]

/-- The next call is made where the first one went well. -/
def andThen (first next : Ways) : Ways :=
  first.flatMap fun way =>
    if way.ok then next.map fun other => ⟨way.script ++ other.script, other.ok⟩ else [way]

/-- A permit that is taken before and dropped after, however it goes. -/
def under (s : Permit) (inner : Ways) : Ways :=
  inner.map fun way => ⟨.take s :: (way.script ++ [.give s]), way.ok⟩

def requireGrant : Ways := work

def loadObject : Ways := requireGrant.andThen (work.under .io)

/-- No permit, other than `loadObject`. -/
def loadContainer : Ways := requireGrant.andThen work

def reconstruct : Ways := work.under .compress

/-- The container is parsed before. -/
def reconstructBytes : Ways := work.andThen reconstruct

def replay : Ways := work.andThen (loadObject.andThen loadContainer)

/-- The permit is dropped before the grant is added. -/
def compressNew : Ways := (work.under .compress).andThen work

/-- The ledger is asked first where there is an idempotency key. -/
def compress (keyed : Bool) : Ways :=
  if keyed then work.andThen (replay ++ compressNew) else compressNew

def analyze : Ways := work.under .compress

/-- A file is left alone, or compressed without a key while the gate is held. -/
def ingest : Ways := under .gate (work ++ work.andThen ((compress false).andThen work))

end Ways

inductive Work where
  | request (route : DataRoute) (keyed : Bool)
  | ingestion

/-- The parameters are resolved before, and the ledger and the answer written after. -/
def Work.ways : Work → Ways
  | .request (.compress _) keyed | .request (.process _) keyed
  | .request (.simProcess _) keyed => Ways.work.andThen (Ways.compress keyed)
  | .request (.decompress _) _ | .request (.reconstruct _) _ =>
    Ways.work.andThen Ways.reconstructBytes
  | .request (.analyze _) _ => Ways.work.andThen Ways.analyze
  | .request (.getObject _) _ => Ways.work.andThen Ways.loadObject
  | .request (.getContent _) _ | .request (.downloadFile _) _ =>
    Ways.work.andThen (Ways.loadObject.andThen Ways.reconstruct)
  | .request (.getEssence _) _ => Ways.work.andThen Ways.loadContainer
  | .request .inspect _ | .request (.listObjects _) _ | .request (.listFiles _) _
  | .request (.deleteObject _ _) _ | .request (.deleteFile _) _ | .request (.myUsage _) _
  | .request .codecs _ | .request .dictionaries _ | .request .stats _
  | .request .legacyStats _ => Ways.work
  | .ingestion => Ways.ingest

/-! ## The load balancer -/

/-- What it makes of a reading: above 85 %, below 50 %, or neither. -/
inductive Cpu where
  | high
  | low
  | neither
  deriving DecidableEq

structure Workload where
  permits : Permits Permit
  /-- The balancer saw permits to spare and is about to try for one. -/
  trying : Bool

inductive WorkMove where
  | arrive (work : Work) (way : Nat)
  | turn (i : Nat)
  /-- The caller has gone. -/
  | drop (i : Nat)
  | tick (cpu : Cpu)
  /-- `try_acquire_owned`, which others may come before. -/
  | tryAcquire

namespace Workload

def start (concurrency : Concurrency) : Workload :=
  { permits := Permits.start concurrency.capacity, trying := false }

def withPermits (workload : Workload) (permits : Permits Permit) : Workload :=
  { workload with permits }

def step (workload : Workload) : WorkMove → Option Workload
  | .arrive work n =>
    (work.ways[n]?).bind fun way =>
      (workload.permits.step (.arrive way.script)).map workload.withPermits
  | .turn i => (workload.permits.step (.go i)).map workload.withPermits
  | .drop i => (workload.permits.step (.drop i)).map workload.withPermits
  | .tick cpu =>
    if workload.trying then none
    else match cpu with
      | .high => some { workload with trying := 1 < workload.permits.free .compress }
      | .low =>
        if workload.permits.kept .compress = 0 then some workload
        else (workload.permits.step (.restore .compress)).map workload.withPermits
      | .neither => some workload
  | .tryAcquire =>
    if workload.trying then
      if workload.permits.free .compress = 0 then some { workload with trying := false }
      else (workload.permits.step (.keep .compress)).map fun permits =>
        { permits, trying := false }
    else none

abbrev exec (workload : Workload) (moves : List WorkMove) : Option Workload :=
  Run.exec step workload moves

end Workload

/-! ## Every call keeps to the order -/

namespace Ways

def Balanced (floor : Nat) (ways : Ways) : Prop :=
  ∀ way ∈ ways, Permits.Balanced Permit.rank floor way.script

variable {floor : Nat} {first next inner : Ways}

theorem balanced_work (floor : Nat) : work.Balanced floor := by
  intro way member
  have nothing : way.script = [] := by
    rcases List.mem_cons.mp member with rfl | member
    · rfl
    · rw [List.mem_singleton.mp member]
  rw [nothing]
  exact balanced_nil Permit.rank floor

theorem Balanced.append (balanced : first.Balanced floor) (also : next.Balanced floor) :
    Balanced floor (first ++ next) := by
  intro way member
  rcases List.mem_append.mp member with member | member
  · exact balanced way member
  · exact also way member

theorem Balanced.andThen (balanced : first.Balanced floor) (then_balanced : next.Balanced floor) :
    (first.andThen next).Balanced floor := by
  intro way member
  obtain ⟨before, inFirst, member⟩ := List.mem_flatMap.mp member
  split at member
  · obtain ⟨after, inNext, rfl⟩ := List.mem_map.mp member
    exact (balanced before inFirst).append (then_balanced after inNext)
  · rw [List.mem_singleton.mp member]
    exact balanced before inFirst

theorem Balanced.under {s : Permit} (higher : floor ≤ s.rank)
    (balanced : inner.Balanced (s.rank + 1)) : (inner.under s).Balanced floor := by
  intro way member
  obtain ⟨within, inInner, rfl⟩ := List.mem_map.mp member
  exact (balanced within inInner).under higher

theorem balanced_loadObject : loadObject.Balanced 1 :=
  (balanced_work 1).andThen (Balanced.under (Nat.le_refl 1) (balanced_work _))

theorem balanced_loadContainer : loadContainer.Balanced 1 :=
  (balanced_work 1).andThen (balanced_work 1)

theorem balanced_reconstruct : reconstruct.Balanced 1 :=
  Balanced.under (Nat.le_refl 1) (balanced_work _)

theorem balanced_reconstructBytes : reconstructBytes.Balanced 1 :=
  (balanced_work 1).andThen balanced_reconstruct

theorem balanced_replay : replay.Balanced 1 :=
  (balanced_work 1).andThen (balanced_loadObject.andThen balanced_loadContainer)

theorem balanced_compressNew : compressNew.Balanced 1 :=
  (Balanced.under (Nat.le_refl 1) (balanced_work _)).andThen (balanced_work 1)

theorem balanced_compress (keyed : Bool) : (compress keyed).Balanced 1 := by
  unfold compress
  split
  · exact (balanced_work 1).andThen (balanced_replay.append balanced_compressNew)
  · exact balanced_compressNew

theorem balanced_analyze : analyze.Balanced 1 :=
  Balanced.under (Nat.le_refl 1) (balanced_work _)

theorem balanced_ingest : ingest.Balanced 0 :=
  Balanced.under (Nat.le_refl 0) ((balanced_work 1).append
    ((balanced_work 1).andThen ((balanced_compress false).andThen (balanced_work 1))))

end Ways

theorem balanced_request (route : DataRoute) (keyed : Bool) :
    (Work.request route keyed).ways.Balanced 1 := by
  have first := Ways.balanced_work 1
  cases route with
  | compress _ | process _ | simProcess _ => exact first.andThen (Ways.balanced_compress keyed)
  | decompress _ | reconstruct _ => exact first.andThen Ways.balanced_reconstructBytes
  | analyze _ => exact first.andThen Ways.balanced_analyze
  | getObject _ => exact first.andThen Ways.balanced_loadObject
  | getContent _ | downloadFile _ =>
    exact first.andThen (Ways.balanced_loadObject.andThen Ways.balanced_reconstruct)
  | getEssence _ => exact first.andThen Ways.balanced_loadContainer
  | inspect | listObjects _ | myUsage _ | codecs | dictionaries | stats | legacyStats
  | listFiles _ | deleteObject _ _ | deleteFile _ => exact first

theorem ordered_ways (work : Work) {way : Way} (member : way ∈ work.ways) :
    Ordered Permit.rank [] way.script := by
  cases work with
  | request route keyed => exact (balanced_request route keyed way member).ordered
  | ingestion => exact (Ways.balanced_ingest way member).ordered

/-! ## What holds always -/

variable {concurrency : Concurrency}

/-- The balancer leaves a permit, also when it is about to try for one more. -/
structure Workload.Sound (concurrency : Concurrency) (workload : Workload) : Prop where
  inv : workload.permits.Inv Permit.rank concurrency.capacity 0
  spared : workload.permits.kept .compress + (if workload.trying then 2 else 1) ≤ concurrency.cpus
  others : ∀ s, s ≠ .compress → workload.permits.kept s = 0

namespace Workload

theorem sound_start (concurrency : Concurrency) : (start concurrency).Sound concurrency where
  inv := inv_start Permit.rank concurrency.capacity
  spared := concurrency.cpus_pos
  others _ _ := rfl

variable {workload next : Workload} {permits : Permits Permit}

theorem Sound.withPermits (sound : workload.Sound concurrency)
    (inv : permits.Inv Permit.rank concurrency.capacity 0)
    (same : permits.kept = workload.permits.kept) :
    (workload.withPermits permits).Sound concurrency where
  inv := inv
  spared := by
    show permits.kept .compress + _ ≤ _
    rw [same]
    exact sound.spared
  others s other := (congrFun same s).trans (sound.others s other)

theorem Sound.arrive (sound : workload.Sound concurrency) {work : Work} {n : Nat}
    (taken : workload.step (.arrive work n) = some next) : next.Sound concurrency := by
  obtain ⟨way, present, taken⟩ := Option.bind_eq_some_iff.mp taken
  obtain ⟨permits, arrived, rfl⟩ := Option.map_eq_some_iff.mp taken
  have ordered := ordered_ways work (List.mem_of_getElem? present)
  refine sound.withPermits (sound.inv.step arrived ordered) ?_
  rw [← Option.some.inj arrived]

theorem Sound.turn (sound : workload.Sound concurrency) {i : Nat}
    (taken : workload.step (.turn i) = some next) : next.Sound concurrency := by
  obtain ⟨permits, gone, rfl⟩ := Option.map_eq_some_iff.mp taken
  exact sound.withPermits (sound.inv.step gone trivial) (kept_go gone)

theorem Sound.drop (sound : workload.Sound concurrency) {i : Nat}
    (taken : workload.step (.drop i) = some next) : next.Sound concurrency := by
  obtain ⟨permits, dropped, rfl⟩ := Option.map_eq_some_iff.mp taken
  refine sound.withPermits (sound.inv.step dropped trivial) ?_
  obtain ⟨client, here, rfl⟩ := Option.map_eq_some_iff.mp dropped
  rfl

/-- Two permits that are free leave one when the balancer takes the other. -/
theorem Sound.high (sound : workload.Sound concurrency) (calm : workload.trying = false) :
    ({ workload with trying := 1 < workload.permits.free .compress } :
      Workload).Sound concurrency where
  inv := sound.inv
  spared := by
    have counted := sound.inv.counted Permit.compress
    have before := sound.spared
    rw [calm] at before
    dsimp only [Concurrency.capacity, Pi.zero_apply] at counted
    show workload.permits.kept .compress +
      (if decide (1 < workload.permits.free .compress) then 2 else 1) ≤ concurrency.cpus
    split
    · rename_i free
      have two := of_decide_eq_true free
      omega
    · simpa using before
  others := sound.others

theorem Sound.low (sound : workload.Sound concurrency)
    (taken : workload.permits.step (.restore .compress) = some permits) :
    (workload.withPermits permits).Sound concurrency where
  inv := sound.inv.step taken trivial
  spared := by
    simp only [Permits.step, Option.ite_none_left_eq_some, Option.some.injEq] at taken
    obtain ⟨kept, rfl⟩ := taken
    have before := sound.spared
    show (Permits.release _ _).kept Permit.compress + (if workload.trying then 2 else 1) ≤ _
    rw [release_kept]
    dsimp only
    rw [Function.update_self]
    omega
  others s other := by
    simp only [Permits.step, Option.ite_none_left_eq_some, Option.some.injEq] at taken
    obtain ⟨kept, rfl⟩ := taken
    show (Permits.release _ _).kept s = 0
    rw [release_kept]
    dsimp only
    rw [Function.update_of_ne other]
    exact sound.others s other

theorem Sound.keep (sound : workload.Sound concurrency) (trying : workload.trying = true)
    (taken : workload.permits.step (.keep .compress) = some permits) :
    ({ permits, trying := false } : Workload).Sound concurrency where
  inv := sound.inv.step taken trivial
  spared := by
    simp only [Permits.step, Option.ite_none_left_eq_some, Option.some.injEq] at taken
    obtain ⟨free, rfl⟩ := taken
    have before := sound.spared
    rw [trying] at before
    rw [if_pos rfl] at before
    dsimp only
    rw [Function.update_self, if_neg Bool.false_ne_true]
    exact before
  others s other := by
    simp only [Permits.step, Option.ite_none_left_eq_some, Option.some.injEq] at taken
    obtain ⟨free, rfl⟩ := taken
    dsimp only
    rw [Function.update_of_ne other]
    exact sound.others s other

theorem Sound.tick (sound : workload.Sound concurrency) {cpu : Cpu}
    (taken : workload.step (.tick cpu) = some next) : next.Sound concurrency := by
  simp only [step, Option.ite_none_left_eq_some, Bool.not_eq_true] at taken
  obtain ⟨calm, taken⟩ := taken
  cases cpu with
  | high =>
      rw [← Option.some.inj taken]
      exact sound.high calm
  | low =>
      dsimp only at taken
      split at taken
      · rwa [← Option.some.inj taken]
      · obtain ⟨permits, restored, rfl⟩ := Option.map_eq_some_iff.mp taken
        exact sound.low restored
  | neither => rwa [← Option.some.inj taken]

theorem Sound.tryAcquire (sound : workload.Sound concurrency)
    (taken : workload.step .tryAcquire = some next) : next.Sound concurrency := by
  simp only [step, Option.ite_none_right_eq_some] at taken
  obtain ⟨trying, taken⟩ := taken
  split at taken
  · rw [← Option.some.inj taken]
    have before := sound.spared
    rw [trying] at before
    refine ⟨sound.inv, ?_, sound.others⟩
    show workload.permits.kept .compress + 1 ≤ concurrency.cpus
    rw [if_pos rfl] at before
    omega
  · obtain ⟨permits, kept, rfl⟩ := Option.map_eq_some_iff.mp taken
    exact sound.keep trying kept

theorem Sound.step (sound : workload.Sound concurrency) {move : WorkMove}
    (taken : workload.step move = some next) : next.Sound concurrency := by
  cases move with
  | arrive work n => exact sound.arrive taken
  | turn i => exact sound.turn taken
  | drop i => exact sound.drop taken
  | tick cpu => exact sound.tick taken
  | tryAcquire => exact sound.tryAcquire taken

theorem Sound.exec (sound : workload.Sound concurrency) {moves : List WorkMove}
    (ran : workload.exec moves = some next) : next.Sound concurrency := by
  induction moves generalizing workload with
  | nil =>
      cases ran
      exact sound
  | cons move moves ih =>
      obtain ⟨middle, first, rest⟩ := Run.exec_cons_eq_some.mp ran
      exact ih (sound.step first) rest

theorem Sound.room (sound : workload.Sound concurrency) (s : Permit) :
    workload.permits.kept s < concurrency.capacity s := by
  cases s with
  | compress =>
      have spared := sound.spared
      show workload.permits.kept .compress < concurrency.cpus
      split at spared <;> omega
  | gate =>
      rw [sound.others .gate (by decide)]
      exact Nat.zero_lt_succ 3
  | io =>
      rw [sound.others .io (by decide)]
      exact Nat.mul_pos concurrency.cpus_pos concurrency.compressMultiplier_pos

end Workload

/-! ## Permits are neither lost nor all kept back -/

theorem permits_conserved (concurrency : Concurrency) {moves : List WorkMove} {final : Workload}
    (ran : (Workload.start concurrency).exec moves = some final) :
    (∀ s, final.permits.free s + final.permits.kept s + final.permits.holding s =
        concurrency.capacity s) ∧
      (∀ s, final.permits.kept s < concurrency.capacity s) ∧
      ∀ s, final.permits.queue s ≠ [] → final.permits.free s = 0 := by
  have sound := (Workload.sound_start concurrency).exec ran
  exact ⟨sound.inv.counted, sound.room, sound.inv.busy⟩

def pairOfCpus : Concurrency :=
  { cpus := 2, compressMultiplier := 1, cpus_pos := by decide, compressMultiplier_pos := by decide }

/-- An ingestion and a download, while the balancer keeps one of two permits back. -/
def busyMoves : List WorkMove :=
  [.arrive .ingestion 2, .arrive (.request (.getContent "") false) 0, .turn 0, .tick .high,
    .turn 0, .tryAcquire, .turn 1, .turn 1, .turn 1]

theorem permits_conserved_busy :
    ∃ final, (Workload.start pairOfCpus).exec busyMoves = some final ∧
      final.permits.queue .compress = [1] ∧ final.permits.kept .compress = 1 ∧
      final.permits.free .compress + final.permits.kept .compress +
        final.permits.holding .compress = 2 :=
  ⟨_, rfl, rfl, rfl, (@permits_conserved pairOfCpus busyMoves _ rfl).1 .compress⟩

/-! ## Requests come to an end -/

namespace WorkMove

def isTurn : WorkMove → Bool
  | turn _ => true
  | _ => false

/-- The moves that what arrives may need: for each permit two, and one to wait. -/
def arrivals : WorkMove → Nat
  | arrive work n => (work.ways[n]?).elim 0 fun way => 2 * way.script.length + 1
  | _ => 0

end WorkMove

namespace Workload

variable {workload next : Workload}

theorem Sound.left_step (sound : workload.Sound concurrency) {move : WorkMove}
    (taken : workload.step move = some next) :
    next.permits.left + (if move.isTurn then 1 else 0) ≤
      workload.permits.left + move.arrivals := by
  cases move with
  | arrive work n =>
      obtain ⟨way, present, taken⟩ := Option.bind_eq_some_iff.mp taken
      obtain ⟨permits, arrived, rfl⟩ := Option.map_eq_some_iff.mp taken
      have bounded := sound.inv.left_step arrived
      simp only [WorkMove.arrivals, present, Option.elim_some]
      exact bounded
  | turn i =>
      obtain ⟨permits, gone, rfl⟩ := Option.map_eq_some_iff.mp taken
      exact sound.inv.left_step gone
  | drop i =>
      obtain ⟨permits, dropped, rfl⟩ := Option.map_eq_some_iff.mp taken
      exact sound.inv.left_step dropped
  | tick cpu =>
      simp only [Workload.step, Option.ite_none_left_eq_some] at taken
      obtain ⟨-, taken⟩ := taken
      cases cpu with
      | high | neither =>
          rw [← Option.some.inj taken]
          exact Nat.le_refl _
      | low =>
          dsimp only at taken
          split at taken
          · rw [← Option.some.inj taken]
            exact Nat.le_refl _
          · obtain ⟨permits, restored, rfl⟩ := Option.map_eq_some_iff.mp taken
            exact sound.inv.left_step restored
  | tryAcquire =>
      simp only [Workload.step, Option.ite_none_right_eq_some] at taken
      obtain ⟨-, taken⟩ := taken
      split at taken
      · rw [← Option.some.inj taken]
        exact Nat.le_refl _
      · obtain ⟨permits, kept, rfl⟩ := Option.map_eq_some_iff.mp taken
        exact sound.inv.left_step kept

theorem Sound.left_exec (sound : workload.Sound concurrency) {moves : List WorkMove}
    (ran : workload.exec moves = some next) :
    next.permits.left + moves.countP WorkMove.isTurn ≤
      workload.permits.left + (moves.map WorkMove.arrivals).sum := by
  induction moves generalizing workload with
  | nil =>
      cases ran
      exact Nat.le_refl _
  | cons move moves ih =>
      obtain ⟨middle, first, rest⟩ := Run.exec_cons_eq_some.mp ran
      have one := sound.left_step first
      have others := ih (sound.step first) rest
      rw [List.countP_cons, List.map_cons, List.sum_cons]
      omega

end Workload

/-- Clients make no more moves than what arrived may need, and none is ever stuck with
something left to do. -/
theorem requests_finish (concurrency : Concurrency) {moves : List WorkMove} {final : Workload}
    (ran : (Workload.start concurrency).exec moves = some final) :
    moves.countP WorkMove.isTurn ≤ (moves.map WorkMove.arrivals).sum ∧
      ((∀ i, final.step (.turn i) = none) →
        ∀ client ∈ final.permits.clients, client.Finished) := by
  have started := Workload.sound_start concurrency
  have sound := started.exec ran
  refine ⟨?_, fun halted => ?_⟩
  · have bounded := started.left_exec ran
    have nobody : (Workload.start concurrency).permits.left = 0 := rfl
    omega
  · exact sound.inv.all_finished sound.room fun i => Option.map_eq_none_iff.mp (halted i)

/-- The download is given up, and the ingestion goes on to its end. -/
def calmedMoves : List WorkMove := busyMoves ++ [.drop 1, .tick .low, .turn 0, .turn 0]

theorem requests_finish_calmed :
    ∃ final, (Workload.start pairOfCpus).exec calmedMoves = some final ∧
      ∀ client ∈ final.permits.clients, client.Finished := by
  refine ⟨_, rfl, (@requests_finish pairOfCpus calmedMoves _ rfl).2 fun i => ?_⟩
  rcases i with _ | _ | i <;> rfl

end Api

end Syntra

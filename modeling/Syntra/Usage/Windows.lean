import Syntra.Usage.Quote
import Syntra.Usage.Snapshot

/-!
# Windows of the ledger

A report sums the rows of its window.  Windows are half-open, so the reports of two
windows that meet add up to the report of both together.  What both plans price is a
function of the compressions alone.
-/

set_option autoImplicit false

namespace Syntra

open Program Grouped Tenancy

namespace Usage

/-- Every counter of the report sums its column over the rows. -/
structure Sums (rows : List UsageEvent) (report : UsageTotals) : Prop where
  totals : ∀ column ∈ UsageTotals.columns, column.1 report = total column.2 rows
  byOperation : ∀ column ∈ OperationBucket.columns, ∀ name,
    total column.1 (members (·.operation) report.byOperation name) =
      total column.2 (members (·.operation.asStr) rows name)
  byEffort : ∀ column ∈ EffortBucket.columns, ∀ name,
    total column.1 (members (·.effort) report.byEffort name) =
      total column.2 (members (·.effort) (compressions rows) name)

theorem reportOf_sums {server : Aggregates} {rows : List UsageEvent} {report : UsageTotals}
    (made : reportOf server rows rows rows = .ok report) : Sums rows report := by
  obtain ⟨row, ops, efforts, rowMade, opsMade, effortsMade, rfl⟩ := reportOf_eq_ok made
  constructor
  · exact totalsRow_counts rowMade ops efforts
  · intro column counter name
    exact operationRows_members opsMade name column counter
  · intro column counter name
    exact effortRows_members effortsMade name column counter

/-! ## Adjacent windows -/

/-- Every integer counter of `whole` is the sum of those of `left` and `right`; an
operation or effort that a report does not list counts as zero. -/
structure UsageTotals.Composes (whole left right : UsageTotals) : Prop where
  totals : ∀ column ∈ UsageTotals.columns, column.1 whole = column.1 left + column.1 right
  byOperation : ∀ column ∈ OperationBucket.columns, ∀ name,
    total column.1 (members (·.operation) whole.byOperation name) =
      total column.1 (members (·.operation) left.byOperation name) +
        total column.1 (members (·.operation) right.byOperation name)
  byEffort : ∀ column ∈ EffortBucket.columns, ∀ name,
    total column.1 (members (·.effort) whole.byEffort name) =
      total column.1 (members (·.effort) left.byEffort name) +
        total column.1 (members (·.effort) right.byEffort name)

theorem selects_split {tenantId : String} {a b c : Int} (ab : a ≤ b) (bc : b ≤ c)
    (event : UsageEvent) :
    Window.selects ⟨tenantId, a, c⟩ event =
      (Window.selects ⟨tenantId, a, b⟩ event || Window.selects ⟨tenantId, b, c⟩ event) := by
  simp only [Window.selects]
  by_cases own : event.tenantId = tenantId
  · by_cases early : event.occurredAtMs < b
    · have inside : event.occurredAtMs < c := by omega
      simp [own, early, inside, Int.not_le.mpr early]
    · have inside : a ≤ event.occurredAtMs := by omega
      simp [own, early, inside, Int.not_lt.mp early]
  · simp [own]

theorem selects_apart (tenantId : String) (a b c : Int) (event : UsageEvent) :
    (Window.selects ⟨tenantId, a, b⟩ event && Window.selects ⟨tenantId, b, c⟩ event) = false := by
  simp only [Window.selects]
  by_cases early : event.occurredAtMs < b
  · simp [Int.not_le.mpr early]
  · simp [early]

/-- The rows of adjacent windows sum up, whichever rows of the ledger are looked at. -/
theorem total_windows {tenantId : String} {a b c : Int} (ab : a ≤ b) (bc : b ≤ c)
    (column : UsageEvent → Int) (rows : List UsageEvent) :
    total column (rows.filter (Window.selects ⟨tenantId, a, c⟩)) =
      total column (rows.filter (Window.selects ⟨tenantId, a, b⟩)) +
        total column (rows.filter (Window.selects ⟨tenantId, b, c⟩)) :=
  total_filter_or (selects_split ab bc) (selects_apart tenantId a b c)

theorem compressions_filter (keep : UsageEvent → Bool) (rows : List UsageEvent) :
    compressions (rows.filter keep) = (compressions rows).filter keep :=
  members_filter keep "compress"

theorem Sums.composes {db : Database} {tenantId : String} {a b c : Int} (ab : a ≤ b) (bc : b ≤ c)
    {whole left right : UsageTotals} (wholeSums : Sums (Window.rows ⟨tenantId, a, c⟩ db) whole)
    (leftSums : Sums (Window.rows ⟨tenantId, a, b⟩ db) left)
    (rightSums : Sums (Window.rows ⟨tenantId, b, c⟩ db) right) : whole.Composes left right := by
  constructor
  · intro column counter
    rw [wholeSums.totals column counter, leftSums.totals column counter,
      rightSums.totals column counter]
    exact total_windows ab bc column.2 _
  · intro column counter name
    rw [wholeSums.byOperation column counter, leftSums.byOperation column counter,
      rightSums.byOperation column counter]
    simp only [Window.rows, members_filter]
    exact total_windows ab bc column.2 _
  · intro column counter name
    rw [wholeSums.byEffort column counter, leftSums.byEffort column counter,
      rightSums.byEffort column counter]
    simp only [Window.rows, compressions_filter, members_filter]
    exact total_windows ab bc column.2 _

/-! ## Events of other operations -/

/-- `after` has events of other operations that `before` does not have. -/
inductive AddsOthers : List UsageEvent → List UsageEvent → Prop where
  | none : AddsOthers [] []
  | kept (event : UsageEvent) {before after : List UsageEvent} (rest : AddsOthers before after) :
      AddsOthers (event :: before) (event :: after)
  | other (event : UsageEvent) (operation : event.operation ≠ .compress)
      {before after : List UsageEvent} (rest : AddsOthers before after) :
      AddsOthers before (event :: after)

theorem asStr_compress {operation : Operation} :
    operation.asStr = "compress" ↔ operation = .compress := by
  cases operation <;> decide

theorem AddsOthers.compressions {before after : List UsageEvent} (adds : AddsOthers before after) :
    compressions after = compressions before := by
  induction adds with
  | none => rfl
  | kept event rest ih =>
      simp only [Usage.compressions, List.filter_cons] at ih ⊢
      rw [ih]
  | other event operation rest ih =>
      have skipped : ¬ event.operation.asStr = "compress" := fun same =>
        operation (asStr_compress.mp same)
      simpa [Usage.compressions, skipped] using ih

theorem reportOf_compressions {server : Aggregates} {rows others : List UsageEvent}
    {report other : UsageTotals} (same : compressions others = compressions rows)
    (made : reportOf server rows rows rows = .ok report)
    (otherMade : reportOf server others others others = .ok other) :
    other.compressBytesSaved = report.compressBytesSaved ∧ other.byEffort = report.byEffort := by
  refine ⟨?_, ?_⟩
  · rw [compressBytesSaved_eq made, compressBytesSaved_eq otherMade, same]
  · obtain ⟨row, ops, efforts, -, -, effortsMade, rfl⟩ := reportOf_eq_ok made
    obtain ⟨row', ops', efforts', -, -, effortsMade', rfl⟩ := reportOf_eq_ok otherMade
    rw [same, effortsMade] at effortsMade'
    cases effortsMade'
    rfl

/-- Over any ledger a report sums the events of its window, the reports of adjacent
windows add up to the report of both, events of other operations change neither the
compressions' part of a report nor the quote of either plan, and where the sums fit all
these reports are made. -/
theorem windows_compose (server : Aggregates) (D : Doubles) (db : Database) :
    (∀ (window : Window) (report : UsageTotals),
      ((totals window).run server.select db).1 = .ok report → Sums (window.rows db) report) ∧
    (∀ (tenantId : String) (a b c : Int), a ≤ b → b ≤ c → ∀ whole left right : UsageTotals,
      ((totals ⟨tenantId, a, c⟩).run server.select db).1 = .ok whole →
      ((totals ⟨tenantId, a, b⟩).run server.select db).1 = .ok left →
      ((totals ⟨tenantId, b, c⟩).run server.select db).1 = .ok right →
      whole.Composes left right) ∧
    (∀ later : Database, AddsOthers db.events.rows later.events.rows →
      ∀ (window : Window) (before after : UsageTotals),
      ((totals window).run server.select db).1 = .ok before →
      ((totals window).run server.select later).1 = .ok after →
      after.compressBytesSaved = before.compressBytesSaved ∧ after.byEffort = before.byEffort ∧
      ∀ plan price, quote D plan price after = quote D plan price before) ∧
    (SumsFit db.events.rows →
      ∀ window, ∃ report, ((totals window).run server.select db).1 = .ok report) := by
  simp only [totals_run]
  refine ⟨fun _ _ made => reportOf_sums made, ?_, ?_, ?_⟩
  · intro tenantId a b c ab bc whole left right wholeMade leftMade rightMade
    exact Sums.composes ab bc (reportOf_sums wholeMade) (reportOf_sums leftMade)
      (reportOf_sums rightMade)
  · intro later adds window before after beforeMade afterMade
    have same : compressions (window.rows later) = compressions (window.rows db) := by
      simp only [Window.rows, compressions_filter, adds.compressions]
    obtain ⟨saved, efforts⟩ := reportOf_compressions same beforeMade afterMade
    exact ⟨saved, efforts, fun plan price => quote_congr D plan price saved efforts⟩
  · intro fit window
    have inside : SumsFit (window.rows db) := fit.sublist List.filter_sublist
    exact inside.reportOf server

/-- A ledger of two uploads, with or without a read of the time of the first. -/
def smallLedger (read : Bool) : Database :=
  ([keyedEvent, { keyedEvent with idempotencyKey := none, effort := "max", occurredAtMs := 5 }] ++
    (if read then [{ keyedEvent with operation := .read, idempotencyKey := none }] else [])).foldl
      inserted Database.empty

/-- The report of a window with one upload for each effort, and of the read. -/
def smallReport (efforts : List String) (read : Bool) : UsageTotals where
  events := efforts.length + if read then 1 else 0
  bytesIn := 6 * (efforts.length + if read then 1 else 0)
  bytesOut := 3 * (efforts.length + if read then 1 else 0)
  bytesSaved := 3 * (efforts.length + if read then 1 else 0)
  cpuMs := 0
  dedupTenant := 0
  dedupGlobal := 0
  byOperation :=
    { operation := "compress", events := efforts.length, bytesIn := 6 * efforts.length,
      bytesOut := 3 * efforts.length, bytesSaved := 3 * efforts.length } ::
      if read then
        [{ operation := "read", events := 1, bytesIn := 6, bytesOut := 3, bytesSaved := 3 }]
      else []
  byEffort := efforts.map fun effort =>
    { effort, events := 1, bytesIn := 6, bytesSaved := 3, cpuMs := 0 }

def smallAnswer (read : Bool) (since until' : Int) : Except DbError UsageTotals :=
  ((totals ⟨"t", since, until'⟩).run (Aggregates.sqlite fun _ => 0).select (smallLedger read)).1

/-- Two windows with an upload each, and the window of both before the read and after. -/
theorem windows_compose_small :
    smallAnswer false 0 3 = .ok (smallReport ["fast"] false) ∧
    smallAnswer false 3 9 = .ok (smallReport ["max"] false) ∧
    smallAnswer false 0 9 = .ok (smallReport ["fast", "max"] false) ∧
    smallAnswer true 0 9 = .ok (smallReport ["fast", "max"] true) ∧
    Sums (Window.rows ⟨"t", 0, 9⟩ (smallLedger true)) (smallReport ["fast", "max"] true) ∧
    (smallReport ["fast", "max"] false).Composes (smallReport ["fast"] false)
      (smallReport ["max"] false) ∧
    ∀ D plan price, quote D plan price (smallReport ["fast", "max"] true) =
      quote D plan price (smallReport ["fast", "max"] false) := by
  have early : smallAnswer false 0 3 = .ok (smallReport ["fast"] false) := by decide +kernel
  have late : smallAnswer false 3 9 = .ok (smallReport ["max"] false) := by decide +kernel
  -- the sort of two keys does not reduce, so it is taken as what it is on a sorted list
  have both : smallAnswer false 0 9 = .ok (smallReport ["fast", "max"] false) := by
    rw [smallAnswer, totals_run, reportOf, Aggregates.effortRows, keys,
      List.mergeSort_of_pairwise (by decide +kernel)]
    decide +kernel
  have after : smallAnswer true 0 9 = .ok (smallReport ["fast", "max"] true) := by
    rw [smallAnswer, totals_run, reportOf, Aggregates.effortRows, keys,
      List.mergeSort_of_pairwise (by decide +kernel), Aggregates.operationRows, keys,
      List.mergeSort_of_pairwise (by decide +kernel)]
    decide +kernel
  have adds : AddsOthers (smallLedger false).events.rows (smallLedger true).events.rows :=
    .kept _ (.kept _ (.other _ (by decide) .none))
  have compose := fun D : Doubles =>
    windows_compose (Aggregates.sqlite fun _ => 0) D (smallLedger false)
  let D : Doubles := ⟨fun _ => 0, fun _ => 0, fun _ v => v, fun v _ => v, id, fun _ => ""⟩
  exact ⟨early, late, both, after,
    (windows_compose (Aggregates.sqlite fun _ => 0) D (smallLedger true)).1 _ _ after,
    (compose D).2.1 "t" 0 3 9 (by decide) (by decide) _ _ _ both early late,
    fun D => ((compose D).2.2.1 (smallLedger true) adds ⟨"t", 0, 9⟩ _ _ both after).2.2⟩

end Usage

end Syntra

import Mathlib.Data.List.Sublists
import Syntra.Lib.Grouped
import Syntra.Usage

/-!
# Totals of a window

`totals` makes its report of three statements: one row over all events of the
window, one row an operation, and one row an effort over the compressions.
-/

set_option autoImplicit false

namespace Syntra

open Program Grouped

def InI64 (n : Int) : Prop := -2 ^ 63 ≤ n ∧ n < 2 ^ 63

instance (n : Int) : Decidable (InI64 n) := inferInstanceAs (Decidable (_ ∧ _))

/-- `iter().sum::<i64>()`, which wraps around in a release build. -/
def sumI64 (values : List Int) : Int := values.foldl (fun sum n => (sum + n).bmod (2 ^ 64)) 0

namespace Usage

/-- The part of a database that computes aggregates.  A sum of integers is exact or
an error: SQLite refuses one that overflows on the way, PostgreSQL a result that does
not fit. -/
structure Aggregates where
  /-- `CAST(COALESCE(SUM(column), 0) AS BIGINT)`. -/
  sum : (column : UsageEvent → Int) → List UsageEvent → Except DbError Int
  sum_exact : ∀ {column rows n}, sum column rows = .ok n → n = total column rows ∧ InI64 n
  sum_answers : ∀ {column rows}, (∀ part, part.Sublist rows → InI64 (total column part)) →
    ∃ n, sum column rows = .ok n
  /-- `COALESCE(SUM(cpu_ms), 0.0)`. -/
  sumCpu : List UsageEvent → F64
  /-- The order of texts. -/
  collate : String → String → Bool

/-! ## Reports -/

structure OperationBucket where
  operation : String
  events : Int
  bytesIn : Int
  bytesOut : Int
  bytesSaved : Int
  deriving Repr, DecidableEq

structure EffortBucket where
  effort : String
  events : Int
  bytesIn : Int
  bytesSaved : Int
  cpuMs : F64
  deriving Repr, DecidableEq

structure UsageTotals where
  events : Int
  bytesIn : Int
  bytesOut : Int
  bytesSaved : Int
  cpuMs : F64
  dedupTenant : Int
  dedupGlobal : Int
  byOperation : List OperationBucket
  byEffort : List EffortBucket
  deriving Repr, DecidableEq

namespace UsageTotals

def compressBytesIn (totals : UsageTotals) : Int :=
  sumI64 ((totals.byOperation.filter fun b => b.operation = "compress").map (·.bytesIn))

def compressBytesSaved (totals : UsageTotals) : Int :=
  sumI64 ((totals.byOperation.filter fun b => b.operation = "compress").map (·.bytesSaved))

end UsageTotals

/-! ## Statements -/

/-- `WHERE tenant_id = ? AND occurred_at_ms >= ? AND occurred_at_ms < ?`. -/
structure Window where
  tenantId : String
  fromMs : Int
  toMs : Int

def Window.selects (window : Window) (event : UsageEvent) : Bool :=
  event.tenantId = window.tenantId && decide (window.fromMs ≤ event.occurredAtMs) &&
    decide (event.occurredAtMs < window.toMs)

def Window.rows (window : Window) (db : Database) : List UsageEvent :=
  db.events.rows.filter window.selects

structure TotalsRow where
  events : Int
  bytesIn : Int
  bytesOut : Int
  bytesSaved : Int
  cpuMs : F64
  dedupTenant : Int
  dedupGlobal : Int

structure OperationRow where
  operation : String
  events : Int
  bytesIn : Int
  bytesOut : Int
  bytesSaved : Int

structure EffortRow where
  effort : String
  events : Int
  bytesIn : Int
  bytesSaved : Int
  cpuMs : F64

inductive Select where
  | totals (window : Window)
  | operations (window : Window)
  | efforts (window : Window)

namespace Select

/-- An aggregate without `GROUP BY` is one row. -/
abbrev Rows : Select → Type
  | .totals _ => Option TotalsRow
  | .operations _ => List OperationRow
  | .efforts _ => List EffortRow

abbrev Answer (select : Select) : Type := Except DbError select.Rows

end Select

abbrev Reading (α : Type) := Program Select Select.Answer (Except DbError α)

def Reading.send (asked : Select) : Reading asked.Rows := ask asked

/-- `CASE WHEN dedup_scope = 'tenant' THEN 1 ELSE 0 END`. -/
def dedupTenant (event : UsageEvent) : Int := if event.dedupScope.asStr = "tenant" then 1 else 0

def dedupGlobal (event : UsageEvent) : Int := if event.dedupScope.asStr = "global" then 1 else 0

/-- `AND operation = 'compress'`. -/
def compressions (rows : List UsageEvent) : List UsageEvent :=
  rows.filter fun event => event.operation.asStr = "compress"

namespace Aggregates

variable (server : Aggregates)

def totalsRow (rows : List UsageEvent) : Except DbError TotalsRow := do
  let bytesIn ← server.sum (·.bytesIn) rows
  let bytesOut ← server.sum (·.bytesOut) rows
  let bytesSaved ← server.sum (·.bytesSaved) rows
  let dedupTenant ← server.sum dedupTenant rows
  let dedupGlobal ← server.sum dedupGlobal rows
  .ok { events := rows.length, bytesIn, bytesOut, bytesSaved, cpuMs := server.sumCpu rows,
        dedupTenant, dedupGlobal }

def operationRow (rows : List UsageEvent) (operation : String) : Except DbError OperationRow := do
  let group := members (·.operation.asStr) rows operation
  let bytesIn ← server.sum (·.bytesIn) group
  let bytesOut ← server.sum (·.bytesOut) group
  let bytesSaved ← server.sum (·.bytesSaved) group
  .ok { operation, events := group.length, bytesIn, bytesOut, bytesSaved }

def effortRow (rows : List UsageEvent) (effort : String) : Except DbError EffortRow := do
  let group := members (·.effort) rows effort
  let bytesIn ← server.sum (·.bytesIn) group
  let bytesSaved ← server.sum (·.bytesSaved) group
  .ok { effort, events := group.length, bytesIn, bytesSaved, cpuMs := server.sumCpu group }

def operationRows (rows : List UsageEvent) : Except DbError (List OperationRow) :=
  report (server.operationRow rows) (keys server.collate (·.operation.asStr) rows)

def effortRows (rows : List UsageEvent) : Except DbError (List EffortRow) :=
  report (server.effortRow rows) (keys server.collate (·.effort) rows)

/-- One statement of a report; it only reads. -/
def select (db : Database) : (asked : Select) → asked.Answer × Database
  | .totals window => ((server.totalsRow (window.rows db)).map some, db)
  | .operations window => (server.operationRows (window.rows db), db)
  | .efforts window => (server.effortRows (compressions (window.rows db)), db)

end Aggregates

def OperationRow.bucket (r : OperationRow) : OperationBucket :=
  { operation := r.operation, events := r.events, bytesIn := r.bytesIn, bytesOut := r.bytesOut,
    bytesSaved := r.bytesSaved }

def EffortRow.bucket (r : EffortRow) : EffortBucket :=
  { effort := r.effort, events := r.events, bytesIn := r.bytesIn, bytesSaved := r.bytesSaved,
    cpuMs := r.cpuMs }

def assemble (row : Option TotalsRow) (ops : List OperationRow) (efforts : List EffortRow) :
    UsageTotals :=
  let base := row.getD { events := 0, bytesIn := 0, bytesOut := 0, bytesSaved := 0, cpuMs := 0,
                         dedupTenant := 0, dedupGlobal := 0 }
  { events := base.events, bytesIn := base.bytesIn, bytesOut := base.bytesOut,
    bytesSaved := base.bytesSaved, cpuMs := base.cpuMs, dedupTenant := base.dedupTenant,
    dedupGlobal := base.dedupGlobal, byOperation := ops.map (·.bucket),
    byEffort := efforts.map (·.bucket) }

def totals (window : Window) : Reading UsageTotals :=
  (Reading.send (.totals window)).attempt id fun row =>
    (Reading.send (.operations window)).attempt id fun ops =>
      (Reading.send (.efforts window)).attempt id fun efforts =>
        .done (.ok (assemble row ops efforts))

/-! ## The counters -/

/-- The integers of a report, each with the column it sums. -/
def UsageTotals.columns : List ((UsageTotals → Int) × (UsageEvent → Int)) :=
  [(events, fun _ => 1), (bytesIn, (·.bytesIn)), (bytesOut, (·.bytesOut)),
   (bytesSaved, (·.bytesSaved)), (dedupTenant, Usage.dedupTenant),
   (dedupGlobal, Usage.dedupGlobal)]

def OperationBucket.columns : List ((OperationBucket → Int) × (UsageEvent → Int)) :=
  [(events, fun _ => 1), (bytesIn, (·.bytesIn)), (bytesOut, (·.bytesOut)),
   (bytesSaved, (·.bytesSaved))]

def EffortBucket.columns : List ((EffortBucket → Int) × (UsageEvent → Int)) :=
  [(events, fun _ => 1), (bytesIn, (·.bytesIn)), (bytesSaved, (·.bytesSaved))]

section Rows

variable {server : Aggregates} {rows : List UsageEvent}

theorem totalsRow_counts {row : TotalsRow} (made : server.totalsRow rows = .ok row)
    (ops : List OperationRow) (efforts : List EffortRow) :
    ∀ column ∈ UsageTotals.columns,
      column.1 (assemble (some row) ops efforts) = total column.2 rows := by
  obtain ⟨bytesIn, sumIn, made⟩ := Fallible.bind_eq_ok.mp made
  obtain ⟨bytesOut, sumOut, made⟩ := Fallible.bind_eq_ok.mp made
  obtain ⟨bytesSaved, sumSaved, made⟩ := Fallible.bind_eq_ok.mp made
  obtain ⟨tenant, sumTenant, made⟩ := Fallible.bind_eq_ok.mp made
  obtain ⟨global, sumGlobal, made⟩ := Fallible.bind_eq_ok.mp made
  cases made
  simp [UsageTotals.columns, assemble, total_one, server.sum_exact sumIn, server.sum_exact sumOut,
    server.sum_exact sumSaved, server.sum_exact sumTenant, server.sum_exact sumGlobal]

theorem operationRow_counts {operation : String} {row : OperationRow}
    (made : server.operationRow rows operation = .ok row) :
    row.operation = operation ∧ ∀ column ∈ OperationBucket.columns,
      column.1 row.bucket = total column.2 (members (·.operation.asStr) rows operation) := by
  obtain ⟨bytesIn, sumIn, made⟩ := Fallible.bind_eq_ok.mp made
  obtain ⟨bytesOut, sumOut, made⟩ := Fallible.bind_eq_ok.mp made
  obtain ⟨bytesSaved, sumSaved, made⟩ := Fallible.bind_eq_ok.mp made
  cases made
  simp [OperationBucket.columns, OperationRow.bucket, total_one, server.sum_exact sumIn,
    server.sum_exact sumOut, server.sum_exact sumSaved]

theorem effortRow_counts {effort : String} {row : EffortRow}
    (made : server.effortRow rows effort = .ok row) :
    row.effort = effort ∧ ∀ column ∈ EffortBucket.columns,
      column.1 row.bucket = total column.2 (members (·.effort) rows effort) := by
  obtain ⟨bytesIn, sumIn, made⟩ := Fallible.bind_eq_ok.mp made
  obtain ⟨bytesSaved, sumSaved, made⟩ := Fallible.bind_eq_ok.mp made
  cases made
  simp [EffortBucket.columns, EffortRow.bucket, total_one, server.sum_exact sumIn,
    server.sum_exact sumSaved]

/-! ## The lines of a report -/

theorem operationRows_total {lines : List OperationRow}
    (made : server.operationRows rows = .ok lines) :
    ∀ column ∈ OperationBucket.columns,
      total column.1 (lines.map (·.bucket)) = total column.2 rows := by
  intro column counter
  rw [total_map]
  exact report_total_keys (fun _ _ its => (operationRow_counts its).2 column counter) made

theorem effortRows_total {lines : List EffortRow} (made : server.effortRows rows = .ok lines) :
    ∀ column ∈ EffortBucket.columns,
      total column.1 (lines.map (·.bucket)) = total column.2 rows := by
  intro column counter
  rw [total_map]
  exact report_total_keys (fun _ _ its => (effortRow_counts its).2 column counter) made

theorem operationRows_members {lines : List OperationRow}
    (made : server.operationRows rows = .ok lines) (name : String) :
    ∀ column ∈ OperationBucket.columns,
      total column.1 (members (·.operation) (lines.map (·.bucket)) name) =
        total column.2 (members (·.operation.asStr) rows name) := by
  intro column counter
  rw [members_map, total_map]
  exact report_members_keys (fun _ _ its => (operationRow_counts its).1)
    (fun _ _ its => (operationRow_counts its).2 column counter) made name

theorem effortRows_members {lines : List EffortRow} (made : server.effortRows rows = .ok lines)
    (name : String) :
    ∀ column ∈ EffortBucket.columns,
      total column.1 (members (·.effort) (lines.map (·.bucket)) name) =
        total column.2 (members (·.effort) rows name) := by
  intro column counter
  rw [members_map, total_map]
  exact report_members_keys (fun _ _ its => (effortRow_counts its).1)
    (fun _ _ its => (effortRow_counts its).2 column counter) made name

end Rows

/-! ## The report -/

def reportOf (server : Aggregates) (base ops efforts : List UsageEvent) :
    Except DbError UsageTotals := do
  let row ← server.totalsRow base
  let ops ← server.operationRows ops
  let efforts ← server.effortRows (compressions efforts)
  .ok (assemble (some row) ops efforts)

section Runs

variable {μ : Type} (server : Aggregates) (arrive : Database → μ → Database)

theorem select_keeps (db : Database) (asked : Select) : (server.select db asked).2 = db := by
  cases asked <;> rfl

theorem Reading.runAmid_send {α : Type} (asked : Select) (next : asked.Rows → Reading α)
    (batch : List μ) (batches : List (List μ)) (db : Database) :
    (((Reading.send asked).attempt id next).runAmid server.select arrive (batch :: batches) db).1 =
      (server.select (batch.foldl arrive db) asked).1 >>= fun rows =>
        ((next rows).runAmid server.select arrive batches (batch.foldl arrive db)).1 := by
  have kept := select_keeps server (batch.foldl arrive db) asked
  simp only [Reading.send, ask, attempt, Program.bind, runAmid, List.headD_cons, List.tail_cons]
  cases answer : (server.select (batch.foldl arrive db) asked).1 with
  | error e => rfl
  | ok rows => rw [kept]; rfl

theorem totals_runAmid (window : Window) (before first second : List μ) (db : Database) :
    ((totals window).runAmid server.select arrive [before, first, second] db).1 =
      reportOf server (window.rows (before.foldl arrive db))
        (window.rows (first.foldl arrive (before.foldl arrive db)))
        (window.rows (second.foldl arrive (first.foldl arrive (before.foldl arrive db)))) := by
  rw [totals, Reading.runAmid_send]
  simp only [Aggregates.select, reportOf]
  cases server.totalsRow (window.rows (before.foldl arrive db)) with
  | error e => rfl
  | ok row =>
      simp only [Except.map, Fallible.ok_bind]
      rw [Reading.runAmid_send]
      refine bind_congr fun ops => ?_
      rw [Reading.runAmid_send]
      rfl

theorem totals_run (window : Window) (db : Database) :
    ((totals window).run server.select db).1 =
      reportOf server (window.rows db) (window.rows db) (window.rows db) := by
  have alone := totals_runAmid server (fun db (_ : Unit) => db) window [] [] [] db
  rwa [runAmid_idle _ _ _ _ (by simp)] at alone

end Runs

/-! ## What a report says -/

section Reported

variable {server : Aggregates} {base ops efforts : List UsageEvent} {report : UsageTotals}

theorem reportOf_eq_ok (made : reportOf server base ops efforts = .ok report) :
    ∃ row opLines effortLines, server.totalsRow base = .ok row ∧
      server.operationRows ops = .ok opLines ∧
      server.effortRows (compressions efforts) = .ok effortLines ∧
      report = assemble (some row) opLines effortLines := by
  obtain ⟨row, first, made⟩ := Fallible.bind_eq_ok.mp made
  obtain ⟨opLines, second, made⟩ := Fallible.bind_eq_ok.mp made
  obtain ⟨effortLines, third, made⟩ := Fallible.bind_eq_ok.mp made
  cases made
  exact ⟨row, opLines, effortLines, first, second, third, rfl⟩

theorem compress_sum {lines : List OperationRow} (made : server.operationRows ops = .ok lines)
    {column : (OperationBucket → Int) × (UsageEvent → Int)}
    (counter : column ∈ OperationBucket.columns) :
    sumI64 (((lines.map (·.bucket)).filter fun b => b.operation = "compress").map column.1) =
      (total column.2 (compressions ops)).bmod (2 ^ 64) := by
  have line := report_amounts (fun _ _ its => (operationRow_counts its).1)
    (fun _ _ its => (operationRow_counts its).2 column counter) nodup_keys made "compress"
  rw [List.filter_map, List.map_map]
  refine (congrArg sumI64 line).trans ?_
  split
  · simp only [sumI64, List.foldl_cons, List.foldl_nil, Int.zero_add]
    rfl
  · rename_i absent
    have none : total column.2 (compressions ops) = 0 := total_members_of_not_mem absent
    rw [none]
    rfl

theorem compress_fits {lines : List OperationRow} (made : server.operationRows ops = .ok lines) :
    InI64 (total (·.bytesIn) (compressions ops)) := by
  by_cases present : "compress" ∈ keys server.collate (·.operation.asStr) ops
  · obtain ⟨row, line⟩ := report_made made present
    obtain ⟨bytesIn, sumIn, -⟩ := Fallible.bind_eq_ok.mp line
    obtain ⟨exactly, fits⟩ := server.sum_exact sumIn
    rwa [exactly] at fits
  · have none : total (·.bytesIn) (compressions ops) = 0 := total_members_of_not_mem present
    rw [none]
    decide

theorem compressBytesIn_eq (made : reportOf server base ops efforts = .ok report) :
    report.compressBytesIn = total (·.bytesIn) (compressions ops) := by
  obtain ⟨row, opLines, effortLines, -, second, -, rfl⟩ := reportOf_eq_ok made
  have bytes : (OperationBucket.bytesIn, UsageEvent.bytesIn) ∈ OperationBucket.columns := by
    simp [OperationBucket.columns]
  obtain ⟨low, high⟩ := compress_fits second
  refine (compress_sum second bytes).trans (Int.bmod_eq_of_le ?_ ?_)
  · simpa using low
  · simpa using high

theorem compressBytesSaved_eq (made : reportOf server base ops efforts = .ok report) :
    report.compressBytesSaved = (total (·.bytesSaved) (compressions ops)).bmod (2 ^ 64) := by
  obtain ⟨row, opLines, effortLines, -, second, -, rfl⟩ := reportOf_eq_ok made
  have saved : (OperationBucket.bytesSaved, UsageEvent.bytesSaved) ∈ OperationBucket.columns := by
    simp [OperationBucket.columns]
  exact compress_sum second saved

end Reported

/-! ## Ledgers whose sums fit -/

def summed : List (UsageEvent → Int) :=
  [(·.bytesIn), (·.bytesOut), (·.bytesSaved), dedupTenant, dedupGlobal]

/-- No sum over some of the rows leaves the 64 bits of a database. -/
def SumsFit (rows : List UsageEvent) : Prop :=
  ∀ column ∈ summed, ∀ part, part.Sublist rows → InI64 (total column part)

instance (rows : List UsageEvent) : Decidable (SumsFit rows) :=
  decidable_of_iff
    (∀ column ∈ summed, ∀ part ∈ rows.sublists, InI64 (total column part))
    (by simp only [SumsFit, List.mem_sublists])

theorem SumsFit.sublist {rows part : List UsageEvent} (fit : SumsFit rows)
    (among : part.Sublist rows) : SumsFit part :=
  fun column listed rest inner => fit column listed rest (inner.trans among)

section Fit

variable (server : Aggregates) {rows : List UsageEvent}

theorem SumsFit.sum (fit : SumsFit rows) {column : UsageEvent → Int} (listed : column ∈ summed) :
    ∃ n, server.sum column rows = .ok n :=
  server.sum_answers (fit column listed)

theorem SumsFit.totalsRow (fit : SumsFit rows) : ∃ row, server.totalsRow rows = .ok row := by
  have inSum : UsageEvent.bytesIn ∈ summed := by simp [summed]
  have outSum : UsageEvent.bytesOut ∈ summed := by simp [summed]
  have savedSum : UsageEvent.bytesSaved ∈ summed := by simp [summed]
  have tenantSum : dedupTenant ∈ summed := by simp [summed]
  have globalSum : dedupGlobal ∈ summed := by simp [summed]
  obtain ⟨bytesIn, sumIn⟩ := fit.sum server inSum
  obtain ⟨bytesOut, sumOut⟩ := fit.sum server outSum
  obtain ⟨bytesSaved, sumSaved⟩ := fit.sum server savedSum
  obtain ⟨tenant, sumTenant⟩ := fit.sum server tenantSum
  obtain ⟨global, sumGlobal⟩ := fit.sum server globalSum
  simp [Aggregates.totalsRow, sumIn, sumOut, sumSaved, sumTenant, sumGlobal]

theorem SumsFit.operationRow (fit : SumsFit rows) (operation : String) :
    ∃ row, server.operationRow rows operation = .ok row := by
  have group : SumsFit (members (·.operation.asStr) rows operation) :=
    fit.sublist List.filter_sublist
  have inSum : UsageEvent.bytesIn ∈ summed := by simp [summed]
  have outSum : UsageEvent.bytesOut ∈ summed := by simp [summed]
  have savedSum : UsageEvent.bytesSaved ∈ summed := by simp [summed]
  obtain ⟨bytesIn, sumIn⟩ := group.sum server inSum
  obtain ⟨bytesOut, sumOut⟩ := group.sum server outSum
  obtain ⟨bytesSaved, sumSaved⟩ := group.sum server savedSum
  simp [Aggregates.operationRow, sumIn, sumOut, sumSaved]

theorem SumsFit.effortRow (fit : SumsFit rows) (effort : String) :
    ∃ row, server.effortRow rows effort = .ok row := by
  have group : SumsFit (members (·.effort) rows effort) := fit.sublist List.filter_sublist
  have inSum : UsageEvent.bytesIn ∈ summed := by simp [summed]
  have savedSum : UsageEvent.bytesSaved ∈ summed := by simp [summed]
  obtain ⟨bytesIn, sumIn⟩ := group.sum server inSum
  obtain ⟨bytesSaved, sumSaved⟩ := group.sum server savedSum
  simp [Aggregates.effortRow, sumIn, sumSaved]

theorem SumsFit.reportOf (fit : SumsFit rows) :
    ∃ report, reportOf server rows rows rows = .ok report := by
  have compressed : SumsFit (compressions rows) := fit.sublist List.filter_sublist
  obtain ⟨row, first⟩ := fit.totalsRow server
  obtain ⟨ops, second⟩ : ∃ ops, server.operationRows rows = .ok ops :=
    report_answers fun operation _ => fit.operationRow server operation
  obtain ⟨efforts, third⟩ : ∃ efforts, server.effortRows (compressions rows) = .ok efforts :=
    report_answers fun effort _ => compressed.effortRow server effort
  refine ⟨assemble (some row) ops efforts, ?_⟩
  simp only [Usage.reportOf, first, second, third, Fallible.ok_bind]

end Fit

/-! ## The two databases -/

def runningSum (column : UsageEvent → Int) : Int → List UsageEvent → Except DbError Int
  | sum, [] => .ok sum
  | sum, event :: rest =>
    if InI64 (sum + column event) then runningSum column (sum + column event) rest
    else .error "integer overflow"

section RunningSum

variable {column : UsageEvent → Int} {rows : List UsageEvent}

theorem runningSum_exact {sum n : Int} (fits : InI64 sum)
    (made : runningSum column sum rows = .ok n) : n = sum + total column rows ∧ InI64 n := by
  induction rows generalizing sum with
  | nil =>
      cases made
      exact ⟨by simp, fits⟩
  | cons event rows ih =>
      rw [runningSum] at made
      split at made
      · rename_i next
        obtain ⟨exactly, inside⟩ := ih next made
        exact ⟨by rw [exactly, total_cons, Int.add_assoc], inside⟩
      · cases made

theorem runningSum_answers {sum : Int}
    (fit : ∀ part, part.Sublist rows → InI64 (sum + total column part)) :
    ∃ n, runningSum column sum rows = .ok n := by
  induction rows generalizing sum with
  | nil => exact ⟨sum, rfl⟩
  | cons event rows ih =>
      have next : InI64 (sum + column event) := by
        simpa using fit [event] (by simp)
      rw [runningSum, if_pos next]
      apply ih
      intro part among
      have whole := fit (event :: part) (among.cons_cons event)
      rwa [total_cons, ← Int.add_assoc] at whole

end RunningSum

def Aggregates.sqlite (sumCpu : List UsageEvent → F64) : Aggregates where
  sum column rows := runningSum column 0 rows
  sum_exact made := by simpa using runningSum_exact (by decide) made
  sum_answers fit := runningSum_answers (by simpa using fit)
  sumCpu
  collate left right := decide (left ≤ right)

/-- PostgreSQL sums in arbitrary precision and converts the result. -/
def Aggregates.postgres (sumCpu : List UsageEvent → F64) (collate : String → String → Bool) :
    Aggregates where
  sum column rows :=
    if InI64 (total column rows) then .ok (total column rows) else .error "bigint out of range"
  sum_exact made := by
    split at made
    · rename_i fits
      cases made
      exact ⟨rfl, fits⟩
    · cases made
  sum_answers fit := ⟨_, if_pos (fit _ (List.Sublist.refl _))⟩
  sumCpu
  collate

end Usage

end Syntra

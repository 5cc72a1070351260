import Syntra.Usage.Recording
import Syntra.Usage.Totals

/-!
# Reports made while events arrive

The three statements of a report are no transaction, so events may be inserted
between them.  The report adds up exactly when those that arrive do not show.
-/

set_option autoImplicit false

namespace Syntra

open Program Grouped

namespace Usage

def inserted (db : Database) (event : UsageEvent) : Database :=
  (db.execute (.insertEvent event)).2

def accepted (db : Database) : List UsageEvent → List UsageEvent
  | [] => []
  | event :: rest =>
    if db.events.accepts event then event :: accepted (inserted db event) rest
    else accepted (inserted db event) rest

theorem rows_inserted (db : Database) (event : UsageEvent) :
    (inserted db event).events.rows =
      db.events.rows ++ if db.events.accepts event then [event] else [] := by
  rcases execute_insertEvent db event with ⟨free, next, done, -, rows⟩ | ⟨taken, e, refused⟩
  · have accepts : db.events.accepts event = true := by simpa [Taken] using free
    rw [inserted, done, rows, if_pos accepts]
  · have refuses : db.events.accepts event = false := taken
    rw [inserted, refused, if_neg (by simp [refuses]), List.append_nil]

theorem rows_batch (db : Database) (batch : List UsageEvent) :
    (batch.foldl inserted db).events.rows = db.events.rows ++ accepted db batch := by
  induction batch generalizing db with
  | nil => simp [accepted]
  | cons event batch ih =>
      rw [List.foldl_cons, ih, rows_inserted, accepted, List.append_assoc]
      split <;> rfl

theorem Window.rows_batch (window : Window) (db : Database) (batch : List UsageEvent) :
    window.rows (batch.foldl inserted db) =
      window.rows db ++ (accepted db batch).filter window.selects := by
  rw [Window.rows, Usage.rows_batch, List.filter_append, Window.rows]

/-- The lines of the operations add up to the totals, those of the efforts to the
compressions. -/
structure UsageTotals.Consistent (report : UsageTotals) : Prop where
  events : total (·.events) report.byOperation = report.events
  bytesIn : total (·.bytesIn) report.byOperation = report.bytesIn
  bytesOut : total (·.bytesOut) report.byOperation = report.bytesOut
  bytesSaved : total (·.bytesSaved) report.byOperation = report.bytesSaved
  efforts : total (·.bytesIn) report.byEffort = report.compressBytesIn

/-- A report adds up when its second statement found no more rows than the first, and
the third only compressions more whose sizes cancel. -/
theorem reportOf_consistent_iff {server : Aggregates} {base first second : List UsageEvent}
    {report : UsageTotals}
    (made : reportOf server base (base ++ first) (base ++ first ++ second) = .ok report) :
    report.Consistent ↔ first = [] ∧ total (·.bytesIn) (compressions second) = 0 := by
  have compressed := compressBytesIn_eq made
  obtain ⟨row, ops, efforts, rowMade, opsMade, effortsMade, rfl⟩ := reportOf_eq_ok made
  have sums := totalsRow_counts rowMade ops efforts
  have lines := operationRows_total opsMade
  have tiers := effortRows_total effortsMade
  have parts : compressions (base ++ first ++ second) =
      compressions (base ++ first) ++ compressions second := List.filter_append ..
  simp only [UsageTotals.columns, OperationBucket.columns, EffortBucket.columns, parts,
    List.forall_mem_cons, total_one, total_append] at sums lines tiers
  obtain ⟨events, bytesIn, bytesOut, bytesSaved, -⟩ := sums
  obtain ⟨eventLines, inLines, outLines, savedLines, -⟩ := lines
  obtain ⟨-, tierLines, -⟩ := tiers
  constructor
  · intro consistent
    have counted : (first.length : Int) = 0 := by
      have same := eventLines.symm.trans (consistent.events.trans events)
      omega
    refine ⟨List.eq_nil_of_length_eq_zero (by omega), ?_⟩
    have same := tierLines.symm.trans (consistent.efforts.trans compressed)
    omega
  · rintro ⟨rfl, cancels⟩
    refine ⟨?_, ?_, ?_, ?_, ?_⟩
    · exact eventLines.trans (by simp [events])
    · exact inLines.trans (by simp [bytesIn])
    · exact outLines.trans (by simp [bytesOut])
    · exact savedLines.trans (by simp [bytesSaved])
    · exact tierLines.trans (by rw [compressed, cancels, Int.add_zero])

/-- A report that is made while batches of events arrive before its statements adds up
exactly when no event of its window arrives between the first two and the sizes of the
compressions that arrive between the last two cancel. -/
theorem totals_consistent_iff (server : Aggregates) (window : Window) (db : Database)
    (before first second : List UsageEvent) (report : UsageTotals)
    (returned : ((totals window).runAmid server.select inserted [before, first, second] db).1 =
      .ok report) :
    report.Consistent ↔
      (∀ event ∈ accepted (before.foldl inserted db) first, window.selects event = false) ∧
      total (·.bytesIn) (compressions
        ((accepted (first.foldl inserted (before.foldl inserted db)) second).filter
          window.selects)) = 0 := by
  have made := totals_runAmid server inserted window before first second db
  rw [returned, window.rows_batch _ second, window.rows_batch _ first] at made
  rw [reportOf_consistent_iff made.symm, List.filter_eq_nil_iff]
  simp only [Bool.not_eq_true]

def uploadReport (known : Bool) : UsageTotals where
  events := if known then 1 else 0
  bytesIn := if known then 6 else 0
  bytesOut := if known then 3 else 0
  bytesSaved := if known then 3 else 0
  cpuMs := 0
  dedupTenant := 0
  dedupGlobal := 0
  byOperation :=
    [{ operation := "compress", events := 1, bytesIn := 6, bytesOut := 3, bytesSaved := 3 }]
  byEffort := [{ effort := "fast", events := 1, bytesIn := 6, bytesSaved := 3, cpuMs := 0 }]

/-- The upload arrives before the first statement. -/
theorem totals_consistent_iff_early : (uploadReport true).Consistent :=
  (totals_consistent_iff (Aggregates.sqlite fun _ => 0)
    { tenantId := "t", fromMs := 0, toMs := 10 } Database.empty [keyedEvent] [] [] _
    (by decide +kernel)).mpr ⟨by simp [accepted], rfl⟩

/-- The upload arrives after the first statement: one compression, and no event at all. -/
theorem totals_inconsistent :
    ¬ ∀ (server : Aggregates) (window : Window) (db : Database)
      (before first second : List UsageEvent) (report : UsageTotals),
      ((totals window).runAmid server.select inserted [before, first, second] db).1 = .ok report →
      report.Consistent := by
  intro always
  have consistent := always (Aggregates.sqlite fun _ => 0)
    { tenantId := "t", fromMs := 0, toMs := 10 } Database.empty [] [keyedEvent] []
    (uploadReport false) (by decide +kernel)
  exact absurd consistent.events (by decide)

end Usage

end Syntra

import Syntra.Lib.Machine
import Syntra.Transform.Csv

/-!
# The columnar inverse, index by index

`csv_invert` with its positions, indices and word arithmetic, in which an
overflow or a bad index is a panic.  It follows the inverse over lists, so it
never panics, and what it writes has the length it computed.
-/

set_option autoImplicit false

namespace Syntra.Indexed

open Fallible Machine

abbrev Io (α : Type) := Run IoError α

/-- The loop of `get_varint`, with the value read and the position after it. -/
def varintLoop (data : Bytes) (p shift value : Nat) : Io (Nat × Nat) :=
  if data.length ≤ p then fails (invalid "varint truncado")
  else if 63 < shift then fails (invalid "varint fora de faixa")
  else do
    let byte ← index data p
    let next ← increment 64 p
    let digit ← shiftLeft 64 (byte &&& 0x7f).toNat shift
    let value := value ||| digit
    if byte &&& 0x80 = 0 then .ok (value, next.val)
    else do
      let shift ← add 32 shift 7
      varintLoop data next.val shift value
termination_by data.length - p
decreasing_by
  have := next.property
  omega

def getVarint (data : Bytes) (p : Nat) : Io (Nat × Nat) := varintLoop data p 0 0

/-- `usize::try_from` on a 64-bit target. -/
def tryUsize (value : Nat) (failure : IoError) : Io Nat :=
  if value < 2 ^ 64 then .ok value else fails failure

structure Lengths where
  p : Nat
  payload : Nat
  lens : List Nat

def readLength (data : Bytes) (_ : Nat) (read : Lengths) : Io Lengths := do
  let (len, p) ← getVarint data read.p
  let len ← tryUsize len (invalid "campo colunar absurdo")
  let payload ← lift (okOr (checkedAdd read.payload len) (invalid "payload colunar absurdo"))
  .ok { p, payload, lens := read.lens ++ [len] }

/-- What `csv_invert` knows before it allocates its output. -/
structure Header where
  delim : UInt8
  trailing : Bool
  rows : Nat
  cols : Nat
  total : Nat
  lens : List Nat
  p : Nat
  stop : Nat
  outLen : Nat

def readHeader (data : Bytes) : Io Header := do
  lift (rejectIf (data.length < 5) (invalid "cabeçalho colunar inválido"))
  let magic ← index data 0
  lift (rejectIf (magic ≠ csvMagic) (invalid "cabeçalho colunar inválido"))
  let delim ← index data 1
  let flag ← index data 2
  let trailing := decide (flag ≠ 0)
  let (rows, p) ← getVarint data 3
  let rows ← tryUsize rows (invalid "dimensões colunares absurdas")
  let (cols, p) ← getVarint data p
  let cols ← tryUsize cols (invalid "dimensões colunares absurdas")
  lift (rejectIf (rows = 0 ∨ cols = 0) (invalid "dimensões colunares inválidas"))
  let total ← lift (okOr (checkedMul rows cols) (invalid "dimensões colunares absurdas"))
  lift (rejectIf (maxFields < total) (invalid "dimensões colunares inconsistentes"))
  let left ← sub data.length p
  lift (rejectIf (left < total) (invalid "dimensões colunares inconsistentes"))
  let read ← loop (readLength data) 0 total { p, payload := 0, lens := [] }
  let stop ← lift (okOr ((checkedAdd read.p read.payload).filter (· ≤ data.length))
    (invalid "payload colunar truncado"))
  let separators ← sub total 1
  let outLen ← lift (okOr ((checkedAdd read.payload separators).bind
    (checkedAdd · (if trailing then 1 else 0))) (invalid "saída colunar absurda"))
  .ok { delim, trailing, rows, cols, total, lens := read.lens, p := read.p, stop, outLen }

structure Cells where
  fields : List Bytes
  q : Nat

def readCell (data : Bytes) (h : Header) (c r : Nat) (cells : Cells) : Io Cells := do
  let column ← mul 64 c h.rows
  let source ← add 64 column r
  let len ← index h.lens source
  let row ← mul 64 r h.cols
  let target ← add 64 row c
  let stop ← add 64 cells.q len
  let field ← lift (okOr (getRange data cells.q stop) (invalid "payload colunar truncado"))
  let fields ← store cells.fields target field
  .ok { fields, q := stop }

def writeField (h : Header) (fields : List Bytes) (r c : Nat) (out : Bytes) : Io Bytes := do
  let row ← mul 64 r h.cols
  let source ← add 64 row c
  let field ← index fields source
  .ok (out ++ (if 0 < c then [h.delim] else []) ++ field)

def writeRow (h : Header) (fields : List Bytes) (r : Nat) (out : Bytes) : Io Bytes :=
  loop (writeField h fields r) 0 h.cols (out ++ if 0 < r then [newline] else [])

def writeTable (data : Bytes) (h : Header) : Io Bytes := do
  let cells ← loop (fun c => loop (readCell data h c) 0 h.rows) 0 h.cols
    { fields := List.replicate h.total [], q := h.p }
  assert (cells.q = h.stop)
  let out ← loop (writeRow h cells.fields) 0 h.rows []
  .ok (out ++ if h.trailing then [newline] else [])

def csvInvert (data : Bytes) (limit : Nat) : Io Bytes := do
  let h ← readHeader data
  lift (checkLen h.outLen limit)
  writeTable data h

/-! ## Reading numbers -/

/-- The number read, and the position at which the list that is left begins. -/
structure ReadsTo (data : Bytes) (p : Nat) (got : Nat × Nat) (read : Nat × Bytes) : Prop where
  value : got.1 = read.1
  word : got.1 < 2 ^ 64
  moved : p < got.2
  inside : got.2 ≤ data.length
  rest : read.2 = data.drop got.2

theorem varintLoop_follows {data : Bytes} (small : data.length < 2 ^ 64) {rest : Bytes}
    {p : Nat} (shift value : Nat) (inside : p ≤ data.length) (here : data.drop p = rest)
    (word : value < 2 ^ 64) :
    Follows (ReadsTo data p) (varintLoop data p shift value)
      (Leb128.decode (invalid "varint truncado") (invalid "varint fora de faixa") shift value
        rest) := by
  induction rest generalizing p shift value with
  | nil =>
      have ended : data.length ≤ p := List.drop_eq_nil_iff.mp here
      rw [varintLoop, if_pos ended, Leb128.decode]
      exact Follows.fail _
  | cons byte rest ih =>
      have more : ¬ data.length ≤ p := by
        intro ended
        rw [List.drop_eq_nil_iff.mpr ended] at here
        cases here
      have read : data[p]? = some byte := by
        rw [← List.head?_drop, here]
        rfl
      have next : data.drop (p + 1) = rest := by
        rw [← List.tail_drop, here]
        rfl
      rw [varintLoop, if_neg more, Leb128.decode]
      by_cases far : 63 < shift
      · rw [if_pos far, if_pos far]
        exact Follows.fail _
      · rw [if_neg far, if_neg far, index_eq read, ok_bind, increment_eq (by omega), ok_bind,
          shiftLeft_eq (by omega), ok_bind]
        have grown : value ||| (((byte &&& 0x7f).toNat <<< shift) % 2 ^ 64) < 2 ^ 64 :=
          Nat.or_lt_two_pow word (Nat.mod_lt _ (by decide))
        dsimp only
        split
        · exact Follows.ok ⟨rfl, grown, Nat.lt_succ_self p, Nat.lt_of_not_le more, next.symm⟩
        · rw [add_eq (by omega), ok_bind]
          apply (ih (shift + 7) _ (Nat.lt_of_not_le more) next grown).imp
          intro got model later
          exact { later with moved := (Nat.lt_succ_self p).trans later.moved }

theorem getVarint_follows {data : Bytes} (small : data.length < 2 ^ 64) {p : Nat}
    (inside : p ≤ data.length) :
    Follows (ReadsTo data p) (getVarint data p) (Syntra.getVarint (data.drop p)) :=
  varintLoop_follows small 0 0 inside rfl (by decide)

theorem tryUsize_eq {value : Nat} (word : value < 2 ^ 64) (failure : IoError) :
    tryUsize value failure = .ok value := if_pos word

/-! ## Reading the lengths -/

/-- What the loop over the lengths has gathered when `n` more are to come. -/
structure Gathers (data : Bytes) (n : Nat) (start got : Lengths)
    (read : List Nat × Nat × Bytes) : Prop where
  payload : got.payload = read.2.1
  lens : got.lens = start.lens ++ read.1
  count : read.1.length = n
  sum : got.payload = start.payload + read.1.sum
  moved : start.p + n ≤ got.p
  inside : got.p ≤ data.length
  rest : read.2.2 = data.drop got.p

theorem readLengths_follow {data : Bytes} (small : data.length < 2 ^ 64) (n first : Nat)
    (start : Lengths) (inside : start.p ≤ data.length) :
    Follows (Gathers data n start) (loop (readLength data) first n start)
      (readLens n start.payload (data.drop start.p)) := by
  induction n generalizing first start with
  | zero => exact Follows.ok ⟨rfl, by simp, rfl, rfl, Nat.le_refl _, inside, rfl⟩
  | succ n ih =>
      rw [loop, readLength, readLens]
      simp only [bind_assoc]
      apply Follows.bind (getVarint_follows small inside)
      rintro ⟨len, p⟩ ⟨value, rest⟩ reads
      obtain rfl : len = value := reads.value
      obtain rfl : rest = data.drop p := reads.rest
      rw [tryUsize_eq reads.word, ok_bind]
      apply Follows.bind (Follows.lift _)
      rintro payload _ ⟨rfl, added⟩
      have sum : payload = start.payload + len := by
        rw [okOr_eq_ok, checkedAdd] at added
        split at added
        · exact (Option.some.inj added).symm
        · cases added
      rw [ok_bind]
      have later := ih (first + 1) { p, payload, lens := start.lens ++ [len] } reads.inside
      rw [← bind_pure (loop _ _ _ _)]
      apply Follows.bind later
      rintro got ⟨lens, total, rest⟩ gathers
      have moved := reads.moved
      have further := gathers.moved
      dsimp only at moved further
      refine Follows.ok ⟨gathers.payload, ?_, ?_, ?_, by omega, gathers.inside, gathers.rest⟩
      · rw [gathers.lens, List.append_assoc]
        rfl
      · rw [List.length_cons, gathers.count]
      · rw [gathers.sum, List.sum_cons, sum, Nat.add_assoc]

/-! ## Placing the cells -/

/-- The cells of the first `k` positions of the payload stand in row order. -/
structure Placed (data : Bytes) (h : Header) (cells : List Bytes) (k : Nat) (got : Cells) :
    Prop where
  q : got.q = h.p + (h.lens.take k).sum
  count : got.fields.length = h.total
  fields : ∀ r < h.rows, ∀ c < h.cols, got.fields[r * h.cols + c]? =
    some (if c * h.rows + r < k then cells.getD (c * h.rows + r) [] else [])

structure Header.Fits (data : Bytes) (h : Header) : Prop where
  small : data.length < 2 ^ 64
  word : h.total < 2 ^ 64
  count : h.lens.length = h.total
  dims : h.rows * h.cols = h.total
  ends : h.p + h.lens.sum = h.stop
  inside : h.stop ≤ data.length

theorem sum_take_succ (lens : List Nat) (k : Nat) :
    (lens.take (k + 1)).sum = (lens.take k).sum + lens.getD k 0 := by
  rw [List.take_add_one, List.sum_append, List.getD_eq_getElem?_getD]
  cases lens[k]? <;> simp

theorem sum_take_le (lens : List Nat) (k : Nat) : (lens.take k).sum ≤ lens.sum := by
  conv_rhs => rw [← List.take_append_drop k lens, List.sum_append]
  exact Nat.le_add_right _ _

/-- The cells that are cut off the payload, each by its position. -/
theorem cutFields_getD (lens : List Nat) (data : Bytes) (inside : lens.sum ≤ data.length) :
    ∃ cells, cutFields lens data = .ok cells ∧ cells.length = lens.length ∧
      cells.map List.length = lens ∧
      ∀ k < lens.length, cells.getD k [] =
        (data.drop (lens.take k).sum).take (lens.getD k 0) := by
  induction lens generalizing data with
  | nil => exact ⟨[], rfl, rfl, rfl, fun k impossible => absurd impossible (Nat.not_lt_zero k)⟩
  | cons len lens ih =>
      rw [List.sum_cons] at inside
      obtain ⟨cells, cut, count, sizes, each⟩ := ih (data.drop len)
        (by rw [List.length_drop]; omega)
      refine ⟨data.take len :: cells, ?_, ?_, ?_, ?_⟩
      · rw [cutFields, if_neg (by omega), cut, ok_bind]
      · rw [List.length_cons, List.length_cons, count]
      · rw [List.map_cons, sizes, List.length_take, Nat.min_eq_left (by omega)]
      · intro k within
        cases k with
        | zero => simp
        | succ k =>
            rw [List.length_cons] at within
            rw [List.getD_cons_succ, each k (by omega), List.take_succ_cons, List.sum_cons,
              List.getD_cons_succ, List.drop_drop]

theorem pair_index_eq {cols r c r' c' : Nat} (inside : c < cols) (inside' : c' < cols)
    (same : r * cols + c = r' * cols + c') : r = r' ∧ c = c' := by
  have quotient : ∀ r c, c < cols → (r * cols + c) / cols = r := by
    intro r c within
    rw [Nat.add_comm, Nat.add_mul_div_right c r (by omega), Nat.div_eq_of_lt within, Nat.zero_add]
  have rows : r = r' := by
    rw [← quotient r c inside, same, quotient r' c' inside']
  subst rows
  exact ⟨rfl, by omega⟩

variable {data : Bytes} {h : Header} {cells : List Bytes}

theorem readCell_placed (fits : h.Fits data)
    (each : ∀ k < h.total, cells.getD k [] =
      (data.drop (h.p + (h.lens.take k).sum)).take (h.lens.getD k 0))
    {c r : Nat} (inCols : c < h.cols) (inRows : r < h.rows) {got : Cells}
    (placed : Placed data h cells (c * h.rows + r) got) :
    ∃ next, readCell data h c r got = .ok next ∧
      Placed data h cells (c * h.rows + (r + 1)) next := by
  have source : c * h.rows + r < h.total := by
    rw [← fits.dims, Nat.mul_comm h.rows]
    exact Grid.cell_inside inCols inRows
  have target : r * h.cols + c < h.total := by
    rw [← fits.dims]
    exact Grid.cell_inside inRows inCols
  have word := fits.word
  have len : h.lens[c * h.rows + r]? = some (h.lens.getD (c * h.rows + r) 0) := by
    have there : c * h.rows + r < h.lens.length := by rw [fits.count]; exact source
    rw [List.getD_eq_getElem?_getD, List.getElem?_eq_getElem there]
    rfl
  have moves := sum_take_succ h.lens (c * h.rows + r)
  have within : h.p + (h.lens.take (c * h.rows + r + 1)).sum ≤ data.length :=
    (Nat.add_le_add_left (sum_take_le h.lens _) h.p).trans (fits.ends.trans_le fits.inside)
  have q := placed.q
  have small := fits.small
  refine ⟨⟨got.fields.set (r * h.cols + c) (cells.getD (c * h.rows + r) []),
    got.q + h.lens.getD (c * h.rows + r) 0⟩, ?_, ?_⟩
  · rw [readCell, mul_eq (by omega), ok_bind, add_eq (by omega), ok_bind, index_eq len, ok_bind,
      mul_eq (by omega), ok_bind, add_eq (by omega), ok_bind, add_eq (by omega), ok_bind,
      getRange_eq (by omega), okOr, each _ source, ← q]
    rw [lift_ok, ok_bind, store_eq _ (by rw [placed.count]; exact target), ok_bind]
  · refine ⟨?_, ?_, ?_⟩
    · dsimp only
      rw [← Nat.add_assoc (c * h.rows), moves, q]
      omega
    · rw [List.length_set, placed.count]
    · intro r' inRows' c' inCols'
      dsimp only
      by_cases same : r * h.cols + c = r' * h.cols + c'
      · obtain ⟨rfl, rfl⟩ := pair_index_eq inCols inCols' same
        rw [List.getElem?_set_self (by rw [placed.count]; exact target), if_pos (by omega)]
      · rw [List.getElem?_set_ne same, placed.fields r' inRows' c' inCols']
        congr 1
        have other : c' * h.rows + r' ≠ c * h.rows + r := by
          intro equal
          obtain ⟨rfl, rfl⟩ := pair_index_eq inRows' inRows equal
          exact same rfl
        by_cases before : c' * h.rows + r' < c * h.rows + r
        · rw [if_pos before, if_pos (by omega)]
        · rw [if_neg before, if_neg (by omega)]

theorem readCells_placed (fits : h.Fits data)
    (each : ∀ k < h.total, cells.getD k [] =
      (data.drop (h.p + (h.lens.take k).sum)).take (h.lens.getD k 0)) :
    ∃ got, loop (fun c => loop (readCell data h c) 0 h.rows) 0 h.cols
        { fields := List.replicate h.total [], q := h.p } = .ok got ∧
      Placed data h cells (h.cols * h.rows) got := by
  have start : Placed data h cells (0 * h.rows)
      { fields := List.replicate h.total [], q := h.p } := by
    refine ⟨by simp, List.length_replicate, fun r inRows c inCols => ?_⟩
    have target : r * h.cols + c < h.total := by
      rw [← fits.dims]
      exact Grid.cell_inside inRows inCols
    rw [Nat.zero_mul, if_neg (Nat.not_lt_zero _), List.getElem?_replicate, if_pos target]
  have turn : ∀ c got, c < h.cols → Placed data h cells (c * h.rows) got →
      ∃ next, loop (readCell data h c) 0 h.rows got = .ok next ∧
        Placed data h cells ((c + 1) * h.rows) next := by
    intro c got inCols placed
    obtain ⟨next, column, filled⟩ :=
      loop_zero_ok (fun r got => Placed data h cells (c * h.rows + r) got)
        (fun r got inRows held => readCell_placed fits each inCols inRows held) placed
    refine ⟨next, column, ?_⟩
    rwa [← Nat.succ_mul] at filled
  exact loop_zero_ok (fun c got => Placed data h cells (c * h.rows) got) turn start

/-! ## Writing the rows -/

theorem intercalate_concat (separator : UInt8) (pieces : List Bytes) (last : Bytes) :
    [separator].intercalate (pieces ++ [last]) =
      [separator].intercalate pieces ++ (if 0 < pieces.length then [separator] else []) ++ last := by
  induction pieces with
  | nil => simp [List.intercalate]
  | cons first rest ih =>
      cases rest with
      | nil => simp [List.intercalate]
      | cons second rest =>
          simp only [List.intercalate, List.cons_append, List.intersperse_cons_cons,
            List.flatten_cons, List.length_cons, Nat.zero_lt_succ, if_true] at ih ⊢
          rw [ih]
          simp only [List.append_assoc, List.cons_append, List.nil_append]

/-- A loop that writes pieces with a separator before each but the first. -/
theorem joinLoop_ok {body : Nat → Bytes → Io Bytes} (separator : UInt8) (piece : Nat → Bytes)
    (n : Nat) (out : Bytes)
    (writes : ∀ i < n, ∀ out, body i out =
      .ok (out ++ (if 0 < i then [separator] else []) ++ piece i)) :
    loop body 0 n out = .ok (out ++ [separator].intercalate ((List.range n).map piece)) := by
  let joined (i : Nat) : Bytes := out ++ [separator].intercalate ((List.range i).map piece)
  have start : out = joined 0 := by simp [joined, List.intercalate]
  have turn : ∀ i got, i < n → got = joined i →
      ∃ next, body i got = .ok next ∧ next = joined (i + 1) := by
    rintro i _ within rfl
    refine ⟨_, writes i within _, ?_⟩
    dsimp only [joined]
    rw [List.range_succ, List.map_append, List.map_cons, List.map_nil, intercalate_concat,
      List.length_map, List.length_range]
    simp only [List.append_assoc]
  obtain ⟨final, run, rfl⟩ := loop_zero_ok (fun i got => got = joined i) turn start
  exact run

theorem writeTable_eq (fits : h.Fits data)
    (each : ∀ k < h.total, cells.getD k [] =
      (data.drop (h.p + (h.lens.take k).sum)).take (h.lens.getD k 0)) :
    writeTable data h = .ok ([newline].intercalate ((List.range h.rows).map fun r =>
      [h.delim].intercalate ((List.range h.cols).map fun c => cells.getD (c * h.rows + r) [])) ++
      if h.trailing then [newline] else []) := by
  obtain ⟨got, placedAll, placed⟩ := readCells_placed fits each
  have total : h.cols * h.rows = h.total := by rw [← fits.dims, Nat.mul_comm]
  have word := fits.word
  have consumed : got.q = h.stop := by
    rw [placed.q, total, ← fits.count, List.take_length, fits.ends]
  have row : ∀ r < h.rows, ∀ out, writeRow h got.fields r out =
      .ok (out ++ (if 0 < r then [newline] else []) ++
        [h.delim].intercalate ((List.range h.cols).map fun c => cells.getD (c * h.rows + r) [])) := by
    intro r inRows out
    apply joinLoop_ok
    intro c inCols out
    have target : r * h.cols + c < h.total := by
      rw [← fits.dims]
      exact Grid.cell_inside inRows inCols
    have source : c * h.rows + r < h.cols * h.rows := Grid.cell_inside inCols inRows
    have field := placed.fields r inRows c inCols
    rw [if_pos source] at field
    rw [writeField, mul_eq (by omega), ok_bind, add_eq (by omega), ok_bind, index_eq field, ok_bind]
  rw [writeTable, placedAll, ok_bind, assert_eq consumed, ok_bind,
    joinLoop_ok newline _ h.rows [] row, ok_bind, List.nil_append]

/-! ## The header -/

/-- What the inverse over lists knows before it checks the limit. -/
structure Plan where
  delim : UInt8
  trailing : Bool
  rows : Nat
  cols : Nat
  lens : List Nat
  rest : Bytes
  outLen : Nat

def plan (data : Bytes) : Except IoError Plan :=
  match data with
  | magic :: delim :: trailing :: rest => do
    rejectIf (data.length < 5 ∨ magic ≠ csvMagic) (invalid "cabeçalho colunar inválido")
    let (rows, rest) ← Syntra.getVarint rest
    let (cols, rest) ← Syntra.getVarint rest
    rejectIf (rows = 0 ∨ cols = 0) (invalid "dimensões colunares inválidas")
    let total ← okOr (checkedMul rows cols) (invalid "dimensões colunares absurdas")
    rejectIf (maxFields < total ∨ rest.length < total)
      (invalid "dimensões colunares inconsistentes")
    let (lens, payload, rest) ← readLens total 0 rest
    rejectIf (rest.length < payload) (invalid "payload colunar truncado")
    let ending := if trailing ≠ 0 then 1 else 0
    let outLen ← okOr ((checkedAdd payload (total - 1)).bind (checkedAdd · ending))
      (invalid "saída colunar absurda")
    .ok { delim, trailing := decide (trailing ≠ 0), rows, cols, lens, rest, outLen }
  | _ => .error (invalid "cabeçalho colunar inválido")

def Plan.table (p : Plan) (cells : List Bytes) : Bytes :=
  [newline].intercalate ((List.range p.rows).map fun r =>
    [p.delim].intercalate ((List.range p.cols).map fun c => cells.getD (c * p.rows + r) [])) ++
    if p.trailing then [newline] else []

theorem csvInvert_eq (data : Bytes) (limit : Nat) :
    Syntra.csvInvert data limit = (do
      let p ← plan data
      checkLen p.outLen limit
      let cells ← cutFields p.lens p.rest
      .ok (p.table cells)) := by
  have transposed : ∀ (rows cols : Nat) (cells : List Bytes) (delim : UInt8),
      (List.range rows).map (fun r => [delim].intercalate ((List.range cols).map fun c =>
        (Grid.table rows cols fun r c => cells.getD (c * rows + r) []).getD (r * cols + c) [])) =
      (List.range rows).map fun r => [delim].intercalate ((List.range cols).map fun c =>
        cells.getD (c * rows + r) []) := by
    intro rows cols cells delim
    apply List.map_congr_left
    intro r inRows
    congr 1
    apply List.map_congr_left
    intro c inCols
    exact Grid.getD_table rows cols _ r c [] (List.mem_range.mp inRows) (List.mem_range.mp inCols)
  rcases data with _ | ⟨magic, _ | ⟨delim, _ | ⟨trailing, rest⟩⟩⟩
  · rfl
  · rfl
  · rfl
  · simp only [Syntra.csvInvert, plan, bind_assoc, ok_bind, transposed, Plan.table,
      decide_eq_true_eq]

/-- The header of the program is the plan of the model, and counts at least one byte for
each length. -/
structure Plans (data : Bytes) (h : Header) (p : Plan) : Prop extends h.Fits data where
  delim : h.delim = p.delim
  trailing : h.trailing = p.trailing
  rows : h.rows = p.rows
  cols : h.cols = p.cols
  lens : h.lens = p.lens
  rest : p.rest = data.drop h.p
  outLen : h.outLen = p.outLen
  filled : 0 < h.rows ∧ 0 < h.cols
  counted : 5 + h.total ≤ h.p
  computed : h.outLen = h.lens.sum + (h.total - 1) + if h.trailing then 1 else 0

theorem checkedAdd_filter {left right n : Nat} (word : n < 2 ^ 64) :
    (checkedAdd left right).filter (· ≤ n) =
      if left + right ≤ n then some (left + right) else none := by
  unfold checkedAdd
  by_cases within : left + right ≤ n
  · rw [if_pos (by omega), if_pos within]
    simp [within]
  · rw [if_neg within]
    split
    · rw [Option.filter_some, if_neg (by simpa using within)]
    · rfl

theorem checkedMul_eq_some {left right product : Nat}
    (multiplied : checkedMul left right = some product) :
    product = left * right ∧ product < 2 ^ 64 := by
  unfold checkedMul at multiplied
  split at multiplied
  · rename_i word
    cases multiplied
    exact ⟨rfl, word⟩
  · cases multiplied

theorem checkedAdd_eq_some {left right sum : Nat} (added : checkedAdd left right = some sum) :
    sum = left + right := by
  unfold checkedAdd at added
  split at added
  · cases added
    rfl
  · cases added

theorem readHeader_follows (small : data.length < 2 ^ 64) :
    Follows (Plans data) (readHeader data) (plan data) := by
  by_cases short : data.length < 5
  · have refused : plan data = .error (invalid "cabeçalho colunar inválido") := by
      rcases data with _ | ⟨magic, _ | ⟨delim, _ | ⟨trailing, rest⟩⟩⟩
      · rfl
      · rfl
      · rfl
      · rw [plan, rejectIf_of (Or.inl short)]
        rfl
    rw [refused, readHeader, rejectIf_of short]
    exact Follows.fail _
  · rcases data with _ | ⟨magic, _ | ⟨delim, _ | ⟨trailing, rest⟩⟩⟩
    · exact absurd (by decide) short
    · exact absurd (by simp) short
    · exact absurd (by simp) short
    · rw [readHeader, plan, rejectIf_of_not short]
      rw [lift_ok, ok_bind, index_eq (x := magic) rfl, ok_bind]
      simp only [short, false_or]
      apply Follows.bind (Follows.lift _)
      rintro _ _ ⟨-, -⟩
      rw [index_eq (x := delim) rfl, ok_bind, index_eq (x := trailing) rfl, ok_bind]
      have three : 3 ≤ (magic :: delim :: trailing :: rest).length := by simp
      apply Follows.bind (getVarint_follows small three)
      rintro ⟨rows, p₁⟩ ⟨value, rest₁⟩ first
      obtain rfl : rows = value := first.value
      obtain rfl : rest₁ = List.drop p₁ _ := first.rest
      rw [tryUsize_eq first.word, ok_bind]
      apply Follows.bind (getVarint_follows small first.inside)
      rintro ⟨cols, p₂⟩ ⟨value, rest₂⟩ second
      obtain rfl : cols = value := second.value
      obtain rfl : rest₂ = List.drop p₂ _ := second.rest
      rw [tryUsize_eq second.word, ok_bind]
      apply Follows.bind (Follows.lift _)
      rintro _ _ ⟨-, filled⟩
      rw [rejectIf_eq_ok, not_or] at filled
      apply Follows.bind (Follows.lift _)
      rintro total _ ⟨rfl, multiplied⟩
      rw [List.length_drop]
      by_cases big : maxFields < total
      · rw [rejectIf_of big, rejectIf_of (Or.inl big)]
        exact Follows.fail _
      · rw [rejectIf_of_not big, lift_ok, ok_bind, sub_eq second.inside, ok_bind]
        simp only [big, false_or]
        apply Follows.bind (Follows.lift _)
        rintro _ _ ⟨-, -⟩
        apply Follows.bind (readLengths_follow small total 0 { p := p₂, payload := 0, lens := [] }
          second.inside)
        rintro got ⟨lens, payload, rest₃⟩ gathers
        obtain rfl : got.payload = payload := gathers.payload
        obtain rfl : rest₃ = List.drop got.p _ := gathers.rest
        dsimp only
        rw [List.length_drop]
        by_cases truncated : (magic :: delim :: trailing :: rest).length - got.p < got.payload
        · rw [rejectIf_of truncated, checkedAdd_filter small, if_neg (by omega)]
          exact Follows.fail _
        · have inside := gathers.inside
          rw [rejectIf_of_not truncated, checkedAdd_filter small, if_pos (by omega)]
          obtain ⟨rfl, word⟩ := checkedMul_eq_some (okOr_eq_ok.mp multiplied)
          have positive : 0 < rows * cols :=
            Nat.mul_pos (Nat.pos_of_ne_zero filled.1) (Nat.pos_of_ne_zero filled.2)
          rw [show okOr (some (got.p + got.payload)) (invalid "payload colunar truncado") =
            .ok (got.p + got.payload) from rfl, lift_ok, ok_bind, sub_eq positive, ok_bind]
          simp only [decide_eq_true_eq]
          apply Follows.bind (Follows.lift _)
          rintro outLen _ ⟨rfl, computed⟩
          obtain ⟨joined, added, ended⟩ := Option.bind_eq_some_iff.mp (okOr_eq_ok.mp computed)
          obtain rfl := checkedAdd_eq_some added
          obtain rfl := checkedAdd_eq_some ended
          have lens_eq : got.lens = lens := gathers.lens
          have sum : got.payload = lens.sum := by
            rw [gathers.sum, Nat.zero_add]
          have moved : p₂ + rows * cols ≤ got.p := gathers.moved
          have start := first.moved
          have next := second.moved
          dsimp only at start next
          refine Follows.ok
            { small, word, count := ?_, dims := rfl, ends := ?_, inside := ?_, delim := rfl
              trailing := rfl, rows := rfl, cols := rfl, lens := lens_eq, rest := rfl, outLen := rfl
              filled := ⟨Nat.pos_of_ne_zero filled.1, Nat.pos_of_ne_zero filled.2⟩
              counted := ?_, computed := ?_ }
          · rw [lens_eq, gathers.count]
          · rw [lens_eq, sum]
          · dsimp only
            omega
          · dsimp only
            omega
          · dsimp only
            rw [lens_eq, sum]
            simp only [decide_eq_true_eq]

/-! ## The whole inverse -/

theorem Plans.cut {p : Plan} (plans : Plans data h p) :
    ∃ cells, cutFields p.lens p.rest = .ok cells ∧ cells.map List.length = p.lens ∧
      ∀ k < h.total, cells.getD k [] =
        (data.drop (h.p + (h.lens.take k).sum)).take (h.lens.getD k 0) := by
  have ends := plans.ends
  have inside := plans.inside
  have room : p.lens.sum ≤ p.rest.length := by
    rw [plans.rest, List.length_drop, ← plans.lens]
    omega
  obtain ⟨cells, cut, -, sizes, each⟩ := cutFields_getD p.lens p.rest room
  refine ⟨cells, cut, sizes, fun k within => ?_⟩
  rw [each k (by rw [← plans.lens, plans.count]; exact within), plans.rest, List.drop_drop,
    plans.lens]

theorem csvInvert_follows (small : data.length < 2 ^ 64) (limit : Nat) :
    Follows (fun got value => got = value) (csvInvert data limit)
      (Syntra.csvInvert data limit) := by
  rw [csvInvert, csvInvert_eq]
  apply Follows.bind (readHeader_follows small)
  intro h p plans
  rw [plans.outLen]
  apply Follows.bind (Follows.lift _)
  rintro _ _ ⟨-, -⟩
  obtain ⟨cells, cut, -, each⟩ := plans.cut
  rw [cut, ok_bind, writeTable_eq plans.toFits each, plans.rows, plans.cols, plans.delim,
    plans.trailing]
  exact Follows.ok rfl

theorem sum_lines (delim : UInt8) (rows cols : Nat) (cell : Nat → Nat → Bytes) :
    (((List.range rows).map fun r => [delim].intercalate ((List.range cols).map (cell r))).map
      List.length).sum =
      (Grid.table rows cols fun r c => (cell r c).length).sum + rows * (cols - 1) := by
  induction rows with
  | zero => simp [Grid.table]
  | succ rows ih =>
      rw [List.range_succ, List.map_append, List.map_append, List.sum_append, ih, Grid.table_succ,
        List.sum_append, List.map_cons, List.map_nil, List.map_cons, List.map_nil, List.sum_cons,
        List.sum_nil, length_intercalate, List.map_map, List.length_map, List.length_range,
        Nat.succ_mul]
      rw [show List.length ∘ cell rows = fun c => (cell rows c).length from rfl]
      omega

theorem Plans.length_table {p : Plan} (plans : Plans data h p) {cells : List Bytes}
    (sizes : cells.map List.length = p.lens) : (p.table cells).length = h.outLen := by
  obtain ⟨rowsPositive, colsPositive⟩ := plans.filled
  have dims := plans.dims
  have count : cells.length = p.cols * p.rows := by
    rw [← List.length_map (f := List.length), sizes, ← plans.lens, plans.count, ← dims, plans.rows,
      plans.cols, Nat.mul_comm]
  have cellBytes : (Grid.table p.rows p.cols fun r c =>
      (cells.getD (c * p.rows + r) []).length).sum = p.lens.sum := by
    rw [← Grid.sum_table_transpose p.rows p.cols
      (fun r c => (cells.getD (c * p.rows + r) []).length),
      ← Grid.map_table p.cols p.rows (fun c r => cells.getD (c * p.rows + r) []) List.length,
      Grid.table_getD p.cols p.rows cells [] count, sizes]
  have lines := sum_lines p.delim p.rows p.cols fun r c => cells.getD (c * p.rows + r) []
  have ending : (if p.trailing then [newline] else []).length = if p.trailing then 1 else 0 := by
    split <;> rfl
  have product : p.rows * p.cols = p.rows * (p.cols - 1) + p.rows := by
    rw [plans.cols] at colsPositive
    have pred : p.cols - 1 + 1 = p.cols := Nat.sub_add_cancel colsPositive
    conv_lhs => rw [← pred, Nat.mul_succ]
  rw [plans.rows, plans.cols] at dims
  rw [plans.rows] at rowsPositive
  rw [Plan.table, List.length_append, length_intercalate, lines, cellBytes, ending, List.length_map,
    List.length_range, plans.computed, plans.lens, plans.trailing]
  omega

/-- Whatever is inverted, nothing overflows and no index is out of range; what comes out has
the length that was computed, within the limit and below that of the input. -/
theorem csvInvert_never_panics (data : Bytes) (small : data.length < 2 ^ 64) (limit : Nat) :
    csvInvert data limit ≠ .error .panic ∧
      csvInvert data limit = lift (Syntra.csvInvert data limit) ∧
      ∀ out, csvInvert data limit = .ok out →
        ∃ h, readHeader data = .ok h ∧ out.length = h.outLen ∧ out.length ≤ limit ∧
          out.length + 5 ≤ data.length := by
  have follows := csvInvert_follows small limit
  refine ⟨follows.no_panic, follows.eq_lift, fun out success => ?_⟩
  obtain ⟨h, header, rest⟩ := bind_eq_ok.mp success
  obtain ⟨p, made, plans⟩ := (readHeader_follows small).of_ok header
  obtain ⟨_, checked, written⟩ := bind_eq_ok.mp rest
  obtain ⟨cells, -, sizes, each⟩ := plans.cut
  rw [writeTable_eq plans.toFits each, plans.rows, plans.cols, plans.delim, plans.trailing]
    at written
  have table : p.table cells = out := Except.ok.inj written
  have length := plans.length_table sizes
  have within := mapError_eq_ok.mp checked
  rw [checkLen, rejectIf_eq_ok] at within
  have positive : 0 < h.total := plans.dims ▸ Nat.mul_pos plans.filled.1 plans.filled.2
  have computed := plans.computed
  have ends := plans.ends
  have inside := plans.inside
  have counted := plans.counted
  have one : (if h.trailing then 1 else 0) ≤ 1 := by split <;> omega
  rw [table] at length
  exact ⟨h, header, length, by omega, by omega⟩

/-- A table that declares a field of 2^64 - 1 bytes. -/
theorem csvInvert_never_panics_hostile :
    csvInvert [0x43, 44, 0, 2, 2, 255, 255, 255, 255, 255, 255, 255, 255, 255, 1, 1, 0, 0] 100 ≠
      .error .panic :=
  (csvInvert_never_panics
    [0x43, 44, 0, 2, 2, 255, 255, 255, 255, 255, 255, 255, 255, 255, 1, 1, 0, 0] (by decide) 100).1

end Syntra.Indexed

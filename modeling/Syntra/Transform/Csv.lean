import Mathlib.Algebra.Order.Ring.Nat
import Mathlib.Data.List.Basic
import Mathlib.Tactic.Ring
import Syntra.IoError
import Syntra.Lib.Fallible
import Syntra.Lib.Grid
import Syntra.Lib.Leb128

/-!
# Columnar layout of uniform tables

A table whose lines all have the same number of fields is stored as its
dimensions, the length of every field and the fields, column by column.  A
position in the input is the list of the bytes that remain.
-/

set_option autoImplicit false

namespace Syntra

open Fallible

def csvMagic : UInt8 := 0x43

def newline : UInt8 := 10

/-- Comma, tab and semicolon. -/
def csvDelims : List UInt8 := [44, 9, 59]

def maxFields : Nat := 32 * 1024 * 1024

def checkedAdd (left right : Nat) : Option Nat :=
  if left + right < 2 ^ 64 then some (left + right) else none

def checkedMul (left right : Nat) : Option Nat :=
  if left * right < 2 ^ 64 then some (left * right) else none

def putVarint (value : Nat) : Bytes := Leb128.encode value

def getVarint (data : Bytes) : Except IoError (Nat × Bytes) :=
  Leb128.decode (invalid "varint truncado") (invalid "varint fora de faixa") 0 0 data

/-! ## Detection -/

/-- The loop over the delimiters; the outer `none` is the early return on a probe
without a filled line. -/
def csvBest (probe : Bytes) :
    List UInt8 → Option (UInt8 × Nat) → Option (Option (UInt8 × Nat))
  | [], best => some best
  | delim :: delims, best =>
    let filled := ((probe.splitOn newline).take 32).filter (fun line => !line.isEmpty)
    match filled.map (fun line => line.count delim) with
    | [] => none
    | first :: counts =>
      if first = 0 then csvBest probe delims best
      else if counts.all (fun count => count = first) then
        let cols := first + 1
        if best.all (fun previous => previous.2 < cols) then
          csvBest probe delims (some (delim, cols))
        else csvBest probe delims best
      else csvBest probe delims best

/-- The number of lines, when every one has `cols` fields and the table stays small. -/
def csvRows (delim : UInt8) (cols : Nat) : List Bytes → Nat → Option Nat
  | [], rows => some rows
  | line :: lines, rows =>
    if line.count delim + 1 ≠ cols then none
    else if maxFields / cols < rows + 1 then none
    else csvRows delim cols lines (rows + 1)

def splitLines (data : Bytes) : List Bytes × Bool :=
  let trailing := data.getLast? = some newline
  let body := if trailing then data.dropLast else data
  (body.splitOn newline, trailing)

def csvDetect (data : Bytes) : Option (UInt8 × Nat) := do
  if data.length < 64 then none
  let probe := data.take (min data.length (256 * 1024))
  let (delim, cols) ← (← csvBest probe csvDelims none)
  if cols < 2 then none
  let rows ← csvRows delim cols (splitLines data).1 0
  if rows < 4 then none
  some (delim, cols)

/-! ## Layout -/

def csvCells (delim : UInt8) (cols : Nat) (lines : List Bytes) : List Bytes :=
  Grid.table cols lines.length fun c r =>
    (lines.map fun line => line.splitOn delim).flatten.getD (r * cols + c) []

/-- The output of `csv_apply` once every line is known to have `cols` fields. -/
def csvLayout (delim : UInt8) (cols : Nat) (lines : List Bytes) (trailing : Bool) : Bytes :=
  let cells := csvCells delim cols lines
  csvMagic :: delim :: (if trailing then 1 else 0) ::
    (putVarint lines.length ++ (putVarint cols ++
      (cells.flatMap (fun field => putVarint field.length) ++ cells.flatten)))

def csvApply (data : Bytes) : Option Bytes := do
  let (delim, cols) ← csvDetect data
  let (lines, trailing) := splitLines data
  if maxFields < (← checkedMul lines.length cols) then none
  if lines.any (fun line => (line.splitOn delim).length ≠ cols) then none
  some (csvLayout delim cols lines trailing)

def readLens : Nat → Nat → Bytes → Except IoError (List Nat × Nat × Bytes)
  | 0, payload, rest => .ok ([], payload, rest)
  | n + 1, payload, rest => do
    let (len, rest) ← getVarint rest
    let payload ← okOr (checkedAdd payload len) (invalid "payload colunar absurdo")
    let (lens, payload, rest) ← readLens n payload rest
    .ok (len :: lens, payload, rest)

def cutFields : List Nat → Bytes → Except IoError (List Bytes)
  | [], _ => .ok []
  | len :: lens, rest =>
    if rest.length < len then .error (invalid "payload colunar truncado")
    else do
      let fields ← cutFields lens (rest.drop len)
      .ok (rest.take len :: fields)

def csvInvert (data : Bytes) (limit : Nat) : Except IoError Bytes :=
  match data with
  | magic :: delim :: trailing :: rest => do
    rejectIf (data.length < 5 ∨ magic ≠ csvMagic) (invalid "cabeçalho colunar inválido")
    let (rows, rest) ← getVarint rest
    let (cols, rest) ← getVarint rest
    rejectIf (rows = 0 ∨ cols = 0) (invalid "dimensões colunares inválidas")
    let total ← okOr (checkedMul rows cols) (invalid "dimensões colunares absurdas")
    rejectIf (maxFields < total ∨ rest.length < total)
      (invalid "dimensões colunares inconsistentes")
    let (lens, payload, rest) ← readLens total 0 rest
    rejectIf (rest.length < payload) (invalid "payload colunar truncado")
    let ending := if trailing ≠ 0 then 1 else 0
    let outLen ← okOr ((checkedAdd payload (total - 1)).bind (checkedAdd · ending))
      (invalid "saída colunar absurda")
    checkLen outLen limit
    let cells ← cutFields lens rest
    let fields := Grid.table rows cols fun r c => cells.getD (c * rows + r) []
    let lines := (List.range rows).map fun r =>
      [delim].intercalate ((List.range cols).map fun c => fields.getD (r * cols + c) [])
    .ok ([newline].intercalate lines ++ if trailing ≠ 0 then [newline] else [])
  | _ => .error (invalid "cabeçalho colunar inválido")

/-! ## What a successful layout knows -/

structure Uniform (delim : UInt8) (cols : Nat) (lines : List Bytes) : Prop where
  filled : lines ≠ []
  fields : ∀ line ∈ lines, (line.splitOn delim).length = cols
  small : lines.length * cols ≤ maxFields

theorem length_le_of_csvDetect (data : Bytes) (found : UInt8 × Nat)
    (detected : csvDetect data = some found) : 64 ≤ data.length := by
  by_contra short
  simp [csvDetect, Nat.lt_of_not_le short] at detected

theorem csvApply_eq_some (data out : Bytes) (success : csvApply data = some out) :
    ∃ delim cols, csvDetect data = some (delim, cols) ∧
      Uniform delim cols (splitLines data).1 ∧
      out = csvLayout delim cols (splitLines data).1 (splitLines data).2 := by
  unfold csvApply at success
  cases detected : csvDetect data with
  | none => simp [detected] at success
  | some found =>
      obtain ⟨delim, cols⟩ := found
      simp only [detected, checkedMul, Option.bind_eq_bind, Option.bind_some] at success
      split at success
      · simp only [Option.bind_some] at success
        split at success
        · simp at success
        · rename_i small
          split at success
          · simp at success
          · rename_i all
            simp only [Option.some.injEq] at success
            refine ⟨delim, cols, rfl, ⟨?_, ?_, Nat.le_of_not_lt small⟩, success.symm⟩
            · simp [splitLines, List.splitOn]
            · simpa using all
      · simp at success

/-! ## Reading a layout back -/

theorem getVarint_putVarint (value : Nat) (rest : Bytes) (fits : value < 2 ^ 64) :
    getVarint (putVarint value ++ rest) = .ok (value, rest) := by
  have read := Leb128.decode_encode (invalid "varint truncado") (invalid "varint fora de faixa")
    value 0 0 rest (by omega) (by omega) (by omega)
  simp only [pow_zero, Nat.mul_one, Nat.zero_add] at read
  exact read

theorem readLens_layout (cells : List Bytes) (payload : Nat) (rest : Bytes)
    (fits : payload + (cells.map List.length).sum < 2 ^ 64) :
    readLens cells.length payload
      (cells.flatMap (fun field => putVarint field.length) ++ rest) =
      .ok (cells.map List.length, payload + (cells.map List.length).sum, rest) := by
  induction cells generalizing payload with
  | nil => rfl
  | cons cell cells ih =>
      simp only [List.map_cons, List.sum_cons] at fits
      have added : checkedAdd payload cell.length = some (payload + cell.length) := by
        rw [checkedAdd, if_pos (by omega)]
      have tail := ih (payload + cell.length) (by omega)
      rw [List.length_cons, List.flatMap_cons, List.append_assoc, readLens,
        getVarint_putVarint cell.length _ (by omega), ok_bind]
      simp only [added, okOr, ok_bind, tail, List.map_cons, List.sum_cons, Nat.add_assoc]

theorem cutFields_flatten (cells : List Bytes) :
    cutFields (cells.map List.length) cells.flatten = .ok cells := by
  induction cells with
  | nil => rfl
  | cons cell cells ih =>
      rw [List.map_cons, List.flatten_cons, cutFields, if_neg (by simp),
        List.drop_left' rfl, ih, ok_bind, List.take_left' rfl]

theorem lines_restored (delim : UInt8) (cols : Nat) (lines : List Bytes)
    (uniform : Uniform delim cols lines) :
    ((List.range lines.length).map fun r => [delim].intercalate ((List.range cols).map fun c =>
      (lines.map fun line => line.splitOn delim).flatten.getD (r * cols + c) [])) = lines := by
  have rows := Grid.rows_of_flatten (lines.map fun line => line.splitOn delim) cols [] (by
    intro row member
    obtain ⟨line, inLines, rfl⟩ := List.mem_map.mp member
    exact uniform.fields line inLines)
  rw [List.length_map] at rows
  calc _ = ((List.range lines.length).map fun r => (List.range cols).map fun c =>
        (lines.map fun line => line.splitOn delim).flatten.getD (r * cols + c) []).map
          [delim].intercalate := by rw [List.map_map]; rfl
    _ = (lines.map fun line => line.splitOn delim).map [delim].intercalate := by rw [rows]
    _ = lines := by
      rw [List.map_map]
      conv_rhs => rw [← List.map_id lines]
      apply List.map_congr_left
      intro line _
      exact List.intercalate_splitOn delim

theorem splitLines_restored (data : Bytes) :
    [newline].intercalate (splitLines data).1 ++
      (if (splitLines data).2 then [newline] else []) = data := by
  simp only [splitLines, List.intercalate_splitOn]
  by_cases trailing : data.getLast? = some newline
  · obtain ⟨body, rfl⟩ := List.getLast?_eq_some_iff.mp trailing
    simp
  · simp [trailing]

/-! ## The length of the output -/

theorem length_intercalate (separator : UInt8) (pieces : List Bytes) :
    ([separator].intercalate pieces).length =
      (pieces.map List.length).sum + (pieces.length - 1) := by
  induction pieces with
  | nil => rfl
  | cons first rest ih =>
      cases rest with
      | nil => simp [List.intercalate]
      | cons second rest =>
          simp only [List.intercalate, List.intersperse_cons_cons, List.flatten_cons,
            List.length_append, List.length_cons, List.length_nil, List.map_cons,
            List.sum_cons] at ih ⊢
          omega

theorem length_csvCells (delim : UInt8) (cols : Nat) (lines : List Bytes) :
    (csvCells delim cols lines).length = lines.length * cols := by
  rw [csvCells, Grid.length_table, Nat.mul_comm]

theorem length_fields (delim : UInt8) (cols : Nat) (lines : List Bytes)
    (uniform : Uniform delim cols lines) :
    (lines.map fun line => line.splitOn delim).flatten.length = lines.length * cols := by
  have size := Grid.length_flatten_of_uniform (lines.map fun line => line.splitOn delim) cols (by
    intro row member
    obtain ⟨line, inLines, rfl⟩ := List.mem_map.mp member
    exact uniform.fields line inLines)
  rwa [List.length_map] at size

/-- Column by column or line by line, the fields have the same total. -/
theorem sum_map_csvCells (measure : Bytes → Nat) (delim : UInt8) (cols : Nat)
    (lines : List Bytes) (uniform : Uniform delim cols lines) :
    ((csvCells delim cols lines).map measure).sum =
      ((lines.map fun line => line.splitOn delim).flatten.map measure).sum := by
  let fields := (lines.map fun line => line.splitOn delim).flatten
  rw [csvCells, Grid.map_table, Grid.sum_table_transpose lines.length cols
    (fun r c => measure (fields.getD (r * cols + c) [])), ← Grid.map_table lines.length cols
    (fun r c => fields.getD (r * cols + c) []) measure,
    Grid.table_getD lines.length cols fields [] (length_fields delim cols lines uniform)]

theorem sum_csvCells (delim : UInt8) (cols : Nat) (lines : List Bytes)
    (uniform : Uniform delim cols lines) :
    ((csvCells delim cols lines).map List.length).sum + lines.length * (cols - 1) =
      (lines.map List.length).sum := by
  have perLine : ∀ lines : List Bytes,
      (∀ line ∈ lines, (line.splitOn delim).length = cols) →
      ((lines.map fun line => line.splitOn delim).flatten.map List.length).sum +
        lines.length * (cols - 1) = (lines.map List.length).sum := by
    intro lines all
    induction lines with
    | nil => simp
    | cons line lines ih =>
        have tail := ih (fun line member => all line (by simp [member]))
        have count := all line (by simp)
        have size := length_intercalate delim (line.splitOn delim)
        rw [List.intercalate_splitOn, count] at size
        simp only [List.map_cons, List.flatten_cons, List.map_append, List.sum_append,
          List.sum_cons, List.length_cons, Nat.succ_mul]
        omega
  rw [sum_map_csvCells List.length delim cols lines uniform]
  exact perLine lines uniform.fields

theorem Uniform.cols_pos {delim : UInt8} {cols : Nat} {lines : List Bytes}
    (uniform : Uniform delim cols lines) : 0 < cols := by
  obtain ⟨line, member⟩ := List.exists_mem_of_ne_nil lines uniform.filled
  rw [← uniform.fields line member]
  exact List.length_pos_iff.mpr (by simp [List.splitOn])

/-- The figure `csv_invert` computes before it allocates is the length of its output. -/
theorem outLen_eq (data : Bytes) (delim : UInt8) (cols : Nat)
    (uniform : Uniform delim cols (splitLines data).1) :
    ((csvCells delim cols (splitLines data).1).map List.length).sum +
      ((splitLines data).1.length * cols - 1) + (if (splitLines data).2 then 1 else 0) =
      data.length := by
  have cells := sum_csvCells delim cols (splitLines data).1 uniform
  have body := length_intercalate newline (splitLines data).1
  have whole := congrArg List.length (splitLines_restored data)
  rw [List.length_append, body] at whole
  have rows : 0 < (splitLines data).1.length := List.length_pos_iff.mpr uniform.filled
  have positive := uniform.cols_pos
  have product : (splitLines data).1.length * cols =
      (splitLines data).1.length * (cols - 1) + (splitLines data).1.length := by
    conv_lhs => rw [← Nat.sub_add_cancel positive]
    ring
  have ending : (if (splitLines data).2 then [newline] else []).length =
      if (splitLines data).2 then 1 else 0 := by
    split <;> rfl
  omega

/-! ## Round trip and growth -/

theorem length_lens_ge (cells : List Bytes) :
    cells.length ≤ (cells.flatMap fun field => putVarint field.length).length := by
  induction cells with
  | nil => simp
  | cons cell cells ih =>
      have first := Leb128.length_encode_pos cell.length
      simp only [List.flatMap_cons, List.length_append, List.length_cons, putVarint] at ih ⊢
      omega

theorem csvInvert_csvLayout (delim : UInt8) (cols limit size : Nat) (lines : List Bytes)
    (trailing : Bool) (uniform : Uniform delim cols lines)
    (outLen : ((csvCells delim cols lines).map List.length).sum + (lines.length * cols - 1) +
      (if trailing then 1 else 0) = size)
    (fits : (csvLayout delim cols lines trailing).length < 2 ^ 64) :
    csvInvert (csvLayout delim cols lines trailing) limit =
      if size ≤ limit then
        .ok ([newline].intercalate lines ++ if trailing then [newline] else [])
      else .error (tooLarge limit) := by
  have count := length_csvCells delim cols lines
  have rowsPositive : 0 < lines.length := List.length_pos_iff.mpr uniform.filled
  have colsPositive := uniform.cols_pos
  have product : lines.length * cols ≤ 32 * 1024 * 1024 := uniform.small
  have rowsLe := Nat.le_mul_of_pos_right lines.length colsPositive
  have colsLe := Nat.le_mul_of_pos_left cols rowsPositive
  have lens := length_lens_ge (csvCells delim cols lines)
  have restored := lines_restored delim cols lines uniform
  have fields : (Grid.table lines.length cols fun r c =>
      (csvCells delim cols lines).getD (c * lines.length + r) []) =
      (lines.map fun line => line.splitOn delim).flatten := by
    rw [csvCells, Grid.table_transpose lines.length cols
      (fun r c => (lines.map fun line => line.splitOn delim).flatten.getD (r * cols + c) []),
      Grid.table_getD _ _ _ _ (length_fields delim cols lines uniform)]
  rw [csvLayout] at fits ⊢
  generalize csvCells delim cols lines = cells at *
  simp only [List.length_cons, List.length_append, List.length_flatten] at fits
  have sizeFits : size < 2 ^ 64 := by
    have : (if trailing then 1 else 0) ≤ 1 := by split <;> omega
    omega
  have total : checkedMul lines.length cols = some cells.length := by
    rw [checkedMul, if_pos (by omega), count]
  have payload : (checkedAdd (cells.map List.length).sum (cells.length - 1)).bind
      (checkedAdd · (if trailing then 1 else 0)) = some size := by
    rw [count, checkedAdd, if_pos (by omega), Option.bind_some, checkedAdd,
      if_pos (by omega), outLen]
  have header : ¬ ((csvMagic :: delim :: (if trailing then 1 else 0) ::
      (putVarint lines.length ++ (putVarint cols ++
        (cells.flatMap (fun field => putVarint field.length) ++ cells.flatten)))).length < 5 ∨
      csvMagic ≠ csvMagic) := by
    have first := Leb128.length_encode_pos lines.length
    have second := Leb128.length_encode_pos cols
    simp only [List.length_cons, List.length_append, putVarint, ne_eq, not_true_eq_false,
      or_false]
    omega
  have known : ¬ (maxFields < cells.length ∨
      (cells.flatMap (fun field => putVarint field.length) ++ cells.flatten).length <
        cells.length) := by
    rw [List.length_append, maxFields]
    omega
  have bytes := readLens_layout cells 0 cells.flatten (by omega)
  rw [Nat.zero_add] at bytes
  have present : ¬ cells.flatten.length < (cells.map List.length).sum := by
    rw [List.length_flatten]
    omega
  have marker : ((if trailing then 1 else 0 : UInt8) ≠ 0) ↔ trailing = true := by
    cases trailing <;> decide
  rw [csvInvert, rejectIf_of_not header, ok_bind, getVarint_putVarint _ _ (by omega), ok_bind]
  simp only [getVarint_putVarint cols _ (by omega), ok_bind]
  rw [rejectIf_of_not (by omega), ok_bind, total, okOr, ok_bind, rejectIf_of_not known,
    ok_bind, bytes, ok_bind]
  simp only [marker]
  rw [rejectIf_of_not present, ok_bind, payload, okOr, ok_bind]
  by_cases within : size ≤ limit
  · rw [checkLen_of_le within, ok_bind, cutFields_flatten, ok_bind, fields, restored,
      if_pos within]
  · rw [checkLen_of_lt (by omega), error_bind, if_neg within]

theorem csvInvert_csvApply (data out : Bytes) (limit : Nat) (success : csvApply data = some out)
    (fits : out.length < 2 ^ 64) :
    csvInvert out limit = if data.length ≤ limit then .ok data else .error (tooLarge limit) := by
  obtain ⟨delim, cols, _, uniform, rfl⟩ := csvApply_eq_some data out success
  rw [csvInvert_csvLayout delim cols limit data.length _ _ uniform
    (outLen_eq data delim cols uniform) fits, splitLines_restored]

theorem length_lens_le (cells : List Bytes) :
    (cells.flatMap fun field => putVarint field.length).length ≤
      cells.length + (cells.map List.length).sum / 128 := by
  induction cells with
  | nil => simp
  | cons cell cells ih =>
      have first : (putVarint cell.length).length ≤ 1 + cell.length / 128 :=
        Leb128.length_encode_le_succ cell.length
      simp only [List.flatMap_cons, List.length_append, List.length_cons, List.map_cons,
        List.sum_cons]
      omega

theorem length_csvApply_le (data out : Bytes) (success : csvApply data = some out) :
    64 ≤ data.length ∧ out.length ≤ data.length + data.length / 128 + 12 := by
  obtain ⟨delim, cols, detected, uniform, rfl⟩ := csvApply_eq_some data out success
  refine ⟨length_le_of_csvDetect data _ detected, ?_⟩
  have outLen := outLen_eq data delim cols uniform
  have lens := length_lens_le (csvCells delim cols (splitLines data).1)
  have count := length_csvCells delim cols (splitLines data).1
  have rowsPositive : 0 < (splitLines data).1.length := List.length_pos_iff.mpr uniform.filled
  have product : (splitLines data).1.length * cols ≤ 32 * 1024 * 1024 := uniform.small
  have rowsLe := Nat.le_mul_of_pos_right (splitLines data).1.length uniform.cols_pos
  have colsLe := Nat.le_mul_of_pos_left cols rowsPositive
  have rowsSize : (putVarint (splitLines data).1.length).length ≤ 4 :=
    Leb128.length_encode_le 4 _ (by omega) (by omega)
  have colsSize : (putVarint cols).length ≤ 4 :=
    Leb128.length_encode_le 4 _ (by omega) (by omega)
  have filled : 0 < (csvCells delim cols (splitLines data).1).length := by
    rw [count]
    exact Nat.mul_pos rowsPositive uniform.cols_pos
  simp only [csvLayout, List.length_cons, List.length_append, List.length_flatten]
  omega

end Syntra

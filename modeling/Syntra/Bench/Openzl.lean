import Mathlib.Tactic.Linarith
import Mathlib.Tactic.Ring
import Syntra.Bench.PlanoBloco
import Syntra.Lib.Slices

/-!
# The transforms emulated

`t_delta`, `t_split` and `t_csv` write the bytes that the engine writes, and their inverses
give back what the engine would store.  An exception and `None` are both `none`.
-/

set_option autoImplicit false

namespace Syntra

namespace Bench

open Fallible Numpy

/-! ## Numbers -/

def mascara (w : Nat) : Nat := (1 <<< (8 * w)) - 1

def tDelta (dados : Bytes) (w : Nat) : Bytes :=
  let n := dados.length / w
  let a := frombuffer w n dados
  -- `&` with the mask leaves the remainder, also of a negative difference.
  let d := a.take 1 ++ (List.range' 1 (n - 1)).map fun i =>
    (((a.getD i 0 : Int) - a.getD (i - 1) 0) % (mascara w + 1)).toNat
  tobytes w d ++ dados.drop (n * w)

def somas (w : Nat) : Nat → List Nat → List Nat
  | _, [] => []
  | acc, x :: d => ((acc + x) &&& mascara w) :: somas w ((acc + x) &&& mascara w) d

def tDeltaInv (dados : Bytes) (w : Nat) : Bytes :=
  let n := dados.length / w
  tobytes w (somas w 0 (frombuffer w n dados)) ++ dados.drop (n * w)

def tSplit (dados : Bytes) (w : Nat) : Bytes :=
  let n := dados.length / w
  (List.range w).flatMap (fun p => Slices.get dados p (n * w) w) ++ dados.drop (n * w)

def planos (dados : Bytes) (w n : Nat) : Nat → Nat → Bytes → Option Bytes
  | 0, _, saida => some saida
  | k + 1, p, saida =>
    (Slices.assign saida p (n * w) w ((dados.drop (p * n)).take n)).bind
      (planos dados w n k (p + 1))

def tSplitInv (dados : Bytes) (w : Nat) : Option Bytes :=
  let n := dados.length / w
  (planos dados w n w 0 (List.replicate dados.length 0)).map fun saida =>
    saida.take (n * w) ++ dados.drop (n * w)

/-! ## Tables -/

def varint (v : Nat) : Bytes := Leb128.encode v

def tCsv (dados : Bytes) (delim : UInt8) : Option Bytes :=
  let final := dados.getLast? = some newline
  let corpo := if final then dados.dropLast else dados
  let linhas := (corpo.splitOn newline).map fun l => l.splitOn delim
  let cols := (linhas.headD []).length
  if cols < 2 ∨ linhas.length < 4 ∨ linhas.any (fun l => l.length ≠ cols) then none
  else
    let colunas := (List.range cols).map fun c => linhas.map fun l => l.getD c []
    some (0x43 :: delim :: (if final then 1 else 0) ::
      (varint linhas.length ++ (varint cols ++
        (colunas.flatMap (fun c => c.flatMap fun f => varint f.length) ++
          colunas.flatMap fun c => c.flatten))))

def ler : Nat → Nat → Bytes → Option (Nat × Bytes)
  | _, _, [] => none
  | v, sh, b :: rest =>
    let v := v ||| ((b &&& 0x7f).toNat <<< sh)
    if b < 0x80 then some (v, rest) else ler v (sh + 7) rest

def lerTamanhos : Nat → Bytes → Option (List Nat × Bytes)
  | 0, rest => some ([], rest)
  | n + 1, rest =>
    (ler 0 0 rest).bind fun (t, rest) =>
      (lerTamanhos n rest).map fun (tamanhos, rest) => (t :: tamanhos, rest)

/-- A slice past the end is short. -/
def campos : List Nat → Bytes → List Bytes
  | [], _ => []
  | t :: tamanhos, rest => rest.take t :: campos tamanhos (rest.drop t)

def tCsvInv : Bytes → Option Bytes
  | _ :: delim :: final :: rest =>
    (ler 0 0 rest).bind fun (linhasN, rest) =>
    (ler 0 0 rest).bind fun (cols, rest) =>
    (lerTamanhos (linhasN * cols) rest).map fun (tamanhos, rest) =>
      let cs := campos tamanhos rest
      let linhas := (List.range linhasN).map fun r =>
        [delim].intercalate ((List.range cols).map fun c => cs.getD (c * linhasN + r) [])
      [newline].intercalate linhas ++ if final ≠ 0 then [newline] else []
  | _ => none

/-! ## Chains -/

inductive Etapa where
  | csv
  | delta (w : Nat)
  | split (w : Nat)
  deriving DecidableEq

namespace Etapa

/-- The delimiter is the default one, the comma. -/
def direta : Etapa → Bytes → Option Bytes
  | csv, x => tCsv x 0x2c
  | delta w, x => some (tDelta x w)
  | split w, x => some (tSplit x w)

def inversa : Etapa → Bytes → Option Bytes
  | csv, x => tCsvInv x
  | delta w, x => some (tDeltaInv x w)
  | split w, x => tSplitInv x w

def diretas : List Etapa → Bytes → Option Bytes
  | [], x => some x
  | etapa :: cadeia, x => (etapa.direta x).bind (diretas cadeia)

/-- The last stage is undone first. -/
def inversas : List Etapa → Bytes → Option Bytes
  | [], rec => some rec
  | etapa :: cadeia, rec => (inversas cadeia rec).bind etapa.inversa

end Etapa

inductive Alvo where
  | csv
  | numerico (largura : Nat)

structure Candidata where
  rotulo : String
  tipo : String
  nivel : Nat
  cadeia : List Etapa

def cadeiasTransformadas : Alvo → List Candidata
  | .csv =>
    [⟨"zstd-19", "zstd", 19, []⟩, ⟨"zstd-19+csv", "zstd", 19, [.csv]⟩,
      ⟨"zstd-22+csv", "zstd", 22, [.csv]⟩, ⟨"zstd-19+csv>delta1", "zstd", 19, [.csv, .delta 1]⟩,
      ⟨"xz-9e+csv", "xz", 9, [.csv]⟩]
  | .numerico w =>
    [⟨"zstd-19", "zstd", 19, []⟩, ⟨"zstd-19+split", "zstd", 19, [.split w]⟩,
      ⟨"zstd-19+delta", "zstd", 19, [.delta w]⟩,
      ⟨"zstd-19+delta>split", "zstd", 19, [.delta w, .split w]⟩,
      ⟨"xz-9e+split", "xz", 9, [.split w]⟩,
      ⟨"xz-9e+delta>split", "xz", 9, [.delta w, .split w]⟩]

/-- The libraries that compress and decompress. -/
structure Compressores where
  comprimir : String → Nat → Bytes → Bytes
  descomprimir : String → Bytes → Bytes

inductive Medida where
  | inaplicavel
  | aplicavel (bytesComp : Nat) (bitExato : Bool)
  deriving DecidableEq

/-- The entry of one candidate in `cmd_transformadas`. -/
def medirCandidata (C : Compressores) (sha : Bytes → String) (dados : Bytes)
    (candidata : Candidata) : Option Medida :=
  match Etapa.diretas candidata.cadeia dados with
  | none => some .inaplicavel
  | some x =>
    let comp := C.comprimir candidata.tipo candidata.nivel x
    (Etapa.inversas candidata.cadeia (C.descomprimir candidata.tipo comp)).map fun rec =>
      .aplicavel comp.length (sha rec == sha dados)

/-! ## Differences -/

theorem mascara_succ (w : Nat) : mascara w + 1 = 256 ^ w := by
  have positive : 0 < 1 <<< (8 * w) := by
    rw [Nat.one_shiftLeft]
    exact Nat.two_pow_pos _
  rw [mascara, Nat.sub_add_cancel positive, Nat.one_shiftLeft, pow_mul]
  norm_num

theorem and_mascara (x w : Nat) : x &&& mascara w = x % 256 ^ w := by
  rw [mascara, Nat.one_shiftLeft, Nat.and_two_pow_sub_one_eq_mod, pow_mul]
  norm_num

theorem int_sub_mod (a b m : Nat) (positive : 0 < m) :
    (((a : Int) - b) % m).toNat = (a + (m - b % m)) % m := by
  have below : b % m ≤ m := Nat.le_of_lt (Nat.mod_lt b positive)
  have whole : ((a : Int) - b) % m = ((a + (m - b % m) : Nat) : Int) % m := by
    have digits : (b : Int) = (b % m : Nat) + m * (b / m : Nat) := by
      exact_mod_cast (Nat.mod_add_div b m).symm
    have shifted : (a : Int) - b = ((a + (m - b % m) : Nat) : Int) + m * (-(b / m : Nat) - 1) := by
      rw [Nat.cast_add, Nat.cast_sub below]
      linarith [digits]
    rw [shifted, Int.add_mul_emod_self_left]
  rw [whole, ← Int.natCast_mod, Int.toNat_natCast]

theorem differences_eq (w : Nat) (a : List Nat) :
    (List.range' 1 (a.length - 1)).map (fun i =>
      (((a.getD i 0 : Int) - a.getD (i - 1) 0) % (mascara w + 1)).toNat) =
      subtract w (a.drop 1) a.dropLast := by
  have positive : 0 < 256 ^ w := Nat.pow_pos (by decide)
  have modulus : ((mascara w : Int) + 1) = ((256 ^ w : Nat) : Int) := by
    exact_mod_cast mascara_succ w
  apply List.ext_getElem
  · simp [subtract]
  · intro i inLeft inRight
    rw [List.length_map, List.length_range'] at inLeft
    simp only [List.getElem_map, List.getElem_range', Nat.one_mul, subtract, List.getElem_zipWith,
      List.getElem_drop, List.getElem_dropLast, modulus, int_sub_mod _ _ _ positive]
    have here : a.getD (1 + i) 0 = a[1 + i] := by
      rw [List.getD_eq_getElem?_getD, List.getElem?_eq_getElem (by omega), Option.getD_some]
    have before : a.getD (1 + i - 1) 0 = a[i] := by
      rw [Nat.add_sub_cancel_left, List.getD_eq_getElem?_getD,
        List.getElem?_eq_getElem (by omega), Option.getD_some]
    rw [here, before]

theorem length_frombuffer (w n : Nat) (dados : Bytes) : (frombuffer w n dados).length = n := by
  rw [frombuffer, List.length_map, List.length_range]

theorem tDelta_eq (dados : Bytes) (w : Nat) (narrow : w ≤ 8) :
    tDelta dados w = Syntra.deltaApply dados w := by
  rw [← bench_deltaApply_eq dados w narrow, tDelta, deltaApply]
  dsimp only
  have differences := differences_eq w (frombuffer w (dados.length / w) dados)
  rw [length_frombuffer] at differences
  rw [differences]
  cases words : dados.length / w with
  | zero => simp [frombuffer, subtract, tobytes]
  | succ n =>
      rw [if_neg (Nat.succ_ne_zero n), frombuffer_succ]
      rfl

theorem somas_eq (w acc : Nat) (d : List Nat) : somas w acc d = cumsumFrom w acc d := by
  induction d generalizing acc with
  | nil => rfl
  | cons x d ih =>
      rw [somas, ih, and_mascara, cumsumFrom_cons]
      congr 1
      exact cumsumFrom_congr (Nat.mod_mod _ _) d

theorem tDeltaInv_eq (dados : Bytes) (w : Nat) (narrow : w ≤ 8) :
    tDeltaInv dados w = Syntra.deltaInvert dados w := by
  rw [← bench_deltaInvert_eq dados w narrow, tDeltaInv, deltaInvert, somas_eq, cumsumFrom_zero]
  dsimp only
  split
  · rename_i none_
    simp [none_, frombuffer, cumsum, tobytes]
  · rfl

/-! ## Planes -/

theorem tSplit_eq (dados : Bytes) (w : Nat) : tSplit dados w = byteSplitApply dados w := by
  rw [tSplit, byteSplitApply, Grid.table]
  congr 1
  apply List.flatMap_congr
  intro p member
  exact Slices.get_rows _ 0 (List.mem_range.mp member) (Nat.div_mul_le_self _ _)

structure Woven (dados : Bytes) (w n k : Nat) (saida : Bytes) : Prop where
  length : saida.length = dados.length
  placed : ∀ i < n, ∀ p < k, saida[i * w + p]? = dados[p * n + i]?

section Planes

variable {dados saida : Bytes} {w n : Nat}

theorem Woven.plane {p : Nat} (woven : Woven dados w n p saida) (inside : p < w)
    (whole : n * w ≤ dados.length) :
    ∃ next, Slices.assign saida p (n * w) w ((dados.drop (p * n)).take n) = some next ∧
      Woven dados w n (p + 1) next := by
  have source : p * n + n ≤ dados.length := by
    have rows : (p + 1) * n ≤ w * n := Nat.mul_le_mul_right n inside
    rw [Nat.succ_mul] at rows
    rw [Nat.mul_comm n] at whole
    omega
  have values : ((dados.drop (p * n)).take n).length = n := by
    rw [List.length_take, List.length_drop]
    omega
  have targets : Slices.places p (min (n * w) saida.length) w =
      (List.range n).map fun i => p + i * w := by
    rw [woven.length, Nat.min_eq_left whole, Slices.places_rows n inside]
  have once := Slices.nodup_places p (min (n * w) saida.length) (Nat.zero_lt_of_lt inside)
  have room : ∀ j ∈ Slices.places p (min (n * w) saida.length) w, j < saida.length := by
    intro j member
    rw [targets] at member
    obtain ⟨i, inRows, rfl⟩ := List.mem_map.mp member
    have cell := Grid.cell_inside (List.mem_range.mp inRows) inside
    rw [woven.length]
    omega
  refine ⟨_, by rw [Slices.assign, if_pos (by rw [targets, values]; simp)], ?_, ?_⟩
  · rw [Slices.length_write, woven.length]
  · intro i inRows q before
    rcases Nat.lt_succ_iff_lt_or_eq.mp before with earlier | rfl
    · have apart : i * w + q ∉ Slices.places p (min (n * w) saida.length) w := by
        rw [targets, List.mem_map]
        intro same
        obtain ⟨j, -, same⟩ := same
        have remainders := congrArg (· % w) same
        simp only [Nat.add_mul_mod_self_right, Nat.mul_add_mod',
          Nat.mod_eq_of_lt (earlier.trans inside), Nat.mod_eq_of_lt inside] at remainders
        omega
      rw [Slices.getElem?_write_of_notMem _ apart, woven.placed i inRows q earlier]
    · have value : dados[q * n + i]? = some (dados.getD (q * n + i) 0) := by
        rw [List.getD_eq_getElem?_getD, List.getElem?_eq_getElem (by omega), Option.getD_some]
      rw [value, Nat.add_comm (i * w)]
      refine Slices.getElem?_write once room (n := i) ?_ ?_
      · rw [targets, List.getElem?_map, List.getElem?_range inRows]
        rfl
      · rw [List.getElem?_take_of_lt inRows, List.getElem?_drop, value]

theorem Woven.planos {k p : Nat} (woven : Woven dados w n p saida) (last : p + k = w)
    (whole : n * w ≤ dados.length) :
    ∃ out, planos dados w n k p saida = some out ∧ Woven dados w n w out := by
  induction k generalizing p saida with
  | zero =>
      rw [Nat.add_zero] at last
      subst last
      exact ⟨saida, rfl, woven⟩
  | succ k ih =>
      obtain ⟨next, assigned, after⟩ := woven.plane (by omega) whole
      obtain ⟨out, rest, done⟩ := ih after (by omega)
      exact ⟨out, by rw [Bench.planos, assigned, Option.bind_some, rest], done⟩

end Planes

theorem tSplitInv_eq (dados : Bytes) (w : Nat) :
    tSplitInv dados w = some (byteSplitInvert dados w) := by
  have whole : dados.length / w * w ≤ dados.length := Nat.div_mul_le_self _ _
  have start : Woven dados w (dados.length / w) 0 (List.replicate dados.length 0) :=
    ⟨List.length_replicate, fun i _ p before => absurd before (Nat.not_lt_zero p)⟩
  obtain ⟨out, written, woven⟩ := start.planos (Nat.zero_add w) whole
  have filled : (out.take (dados.length / w * w)).length = dados.length / w * w := by
    rw [List.length_take, woven.length, Nat.min_eq_left whole]
  have table := Grid.table_getD (dados.length / w) w _ 0 filled
  rw [tSplitInv, written, Option.map_some, byteSplitInvert, ← table]
  congr 2
  apply Grid.table_congr
  intro i inRows p inPlanes
  rw [List.getD_eq_getElem?_getD, List.getElem?_take_of_lt (Grid.cell_inside inRows inPlanes),
    woven.placed i inRows p inPlanes, List.getD_eq_getElem?_getD]

/-! ## Numbers of tables -/

theorem ler_varint (v sh value : Nat) (rest : Bytes) (below : v < 2 ^ sh) :
    ler v sh (varint value ++ rest) = some (v + value * 2 ^ sh, rest) := by
  have place : ∀ digit, v ||| (digit <<< sh) = v + digit * 2 ^ sh := by
    intro digit
    rw [Nat.shiftLeft_eq, Nat.or_comm, Nat.mul_comm, ← Nat.two_pow_add_eq_or_of_lt below,
      Nat.add_comm]
  induction value using Nat.strongRecOn generalizing sh v with
  | ind value ih =>
    by_cases small : value < 128
    · have last : UInt8.ofNat value < 0x80 := by
        rw [UInt8.lt_iff_toNat_lt, UInt8.toNat_ofNat']
        show value % 256 < 128
        omega
      rw [varint, Leb128.encode_of_lt value small, List.singleton_append, ler]
      simp only [Leb128.final_low value small, place, last, if_true]
    · have large : 128 ≤ value := Nat.le_of_not_lt small
      have more : ¬ Leb128.continued value < 0x80 := by
        intro low
        apply Leb128.continued_high value
        have bits : ∀ byte : Fin 128, UInt8.ofNat byte.val &&& 0x80 = 0 := by decide
        have byte := bits ⟨(Leb128.continued value).toNat, UInt8.lt_iff_toNat_lt.mp low⟩
        rwa [UInt8.ofNat_toNat] at byte
      have nextBelow : v + value % 128 * 2 ^ sh < 2 ^ (sh + 7) := by
        have bound : value % 128 * 2 ^ sh ≤ 127 * 2 ^ sh := Nat.mul_le_mul_right _ (by omega)
        rw [pow_add]
        omega
      have digits : value = value % 128 + 128 * (value / 128) := (Nat.mod_add_div value 128).symm
      have tail := ih (value / 128) (by omega) (v + value % 128 * 2 ^ sh) (sh + 7) nextBelow
        (fun digit => by
          rw [Nat.shiftLeft_eq, Nat.or_comm, Nat.mul_comm,
            ← Nat.two_pow_add_eq_or_of_lt nextBelow, Nat.add_comm])
      rw [varint] at tail ⊢
      rw [Leb128.encode_of_le value large, List.cons_append, ler]
      simp only [Leb128.continued_low, place, more, if_false]
      rw [tail]
      congr 2
      conv_rhs => rw [digits]
      ring

theorem lerTamanhos_varints (fields : List Bytes) (rest : Bytes) :
    lerTamanhos fields.length ((fields.flatMap fun f => varint f.length) ++ rest) =
      some (fields.map List.length, rest) := by
  induction fields with
  | nil => rfl
  | cons f fields ih =>
      have first := ler_varint 0 0 f.length
        ((fields.flatMap fun f => varint f.length) ++ rest) (by decide)
      rw [pow_zero, Nat.mul_one, Nat.zero_add] at first
      rw [List.length_cons, List.flatMap_cons, List.append_assoc, lerTamanhos, first,
        Option.bind_some]
      dsimp only
      rw [ih]
      rfl

theorem campos_flatten (fields : List Bytes) :
    campos (fields.map List.length) fields.flatten = fields := by
  induction fields with
  | nil => rfl
  | cons f fields ih =>
      rw [List.map_cons, List.flatten_cons, campos, List.take_left' rfl, List.drop_left' rfl, ih]

/-! ## Columns -/

/-- Lines that all have `cols` fields. -/
def Uniforme (delim : UInt8) (cols : Nat) (linhas : List Bytes) : Prop :=
  ∀ linha ∈ linhas, (linha.splitOn delim).length = cols

section Columns

variable {delim : UInt8} {cols : Nat} {linhas : List Bytes}

theorem Uniforme.rows (uniforme : Uniforme delim cols linhas) :
    ((List.range linhas.length).map fun r => (List.range cols).map fun c =>
      (linhas.map fun l => l.splitOn delim).flatten.getD (r * cols + c) []) =
      linhas.map fun l => l.splitOn delim := by
  have rows := Grid.rows_of_flatten (linhas.map fun l => l.splitOn delim) cols [] (by
    intro row member
    obtain ⟨linha, present, rfl⟩ := List.mem_map.mp member
    exact uniforme linha present)
  rwa [List.length_map] at rows

/-- The tuples of `zip`, one after the other, are the cells of the engine. -/
theorem Uniforme.colunas (uniforme : Uniforme delim cols linhas) :
    ((List.range cols).map fun c =>
      (linhas.map fun l => l.splitOn delim).map fun l => l.getD c []).flatten =
      csvCells delim cols linhas := by
  rw [csvCells, Grid.table, ← List.flatMap_def]
  apply List.flatMap_congr
  intro c member
  conv_lhs => rw [← uniforme.rows, List.map_map]
  apply List.map_congr_left
  intro r _
  rw [Function.comp_apply, List.getD_eq_getElem?_getD, List.getElem?_map,
    List.getElem?_range (List.mem_range.mp member)]
  rfl

theorem Uniforme.restored (uniforme : Uniforme delim cols linhas) :
    ((List.range linhas.length).map fun r => [delim].intercalate ((List.range cols).map fun c =>
      (csvCells delim cols linhas).getD (c * linhas.length + r) [])) = linhas := by
  have cells : ∀ r ∈ List.range linhas.length, ∀ c ∈ List.range cols,
      (csvCells delim cols linhas).getD (c * linhas.length + r) [] =
        (linhas.map fun l => l.splitOn delim).flatten.getD (r * cols + c) [] := by
    intro r inRows c inCols
    exact Grid.getD_table _ _ _ c r [] (List.mem_range.mp inCols) (List.mem_range.mp inRows)
  calc _ = (List.range linhas.length).map (fun r => [delim].intercalate
        ((List.range cols).map fun c =>
          (linhas.map fun l => l.splitOn delim).flatten.getD (r * cols + c) [])) := by
        apply List.map_congr_left
        intro r inRows
        rw [List.map_congr_left (cells r inRows)]
    _ = ((List.range linhas.length).map fun r => (List.range cols).map fun c =>
          (linhas.map fun l => l.splitOn delim).flatten.getD (r * cols + c) []).map
          [delim].intercalate := by rw [List.map_map]; rfl
    _ = (linhas.map fun l => l.splitOn delim).map [delim].intercalate := by rw [uniforme.rows]
    _ = linhas := by
        rw [List.map_map]
        conv_rhs => rw [← List.map_id linhas]
        apply List.map_congr_left
        intro linha _
        exact List.intercalate_splitOn delim

end Columns

/-! ## Tables -/

theorem flatMap_flatMap {α β : Type} (lists : List (List α)) (f : α → List β) :
    lists.flatMap (fun list => list.flatMap f) = lists.flatten.flatMap f := by
  rw [← List.flatMap_id, List.flatMap_assoc]
  rfl

theorem flatMap_flatten {α : Type} (lists : List (List (List α))) :
    lists.flatMap (fun list => list.flatten) = lists.flatten.flatten := by
  rw [List.flatten_flatten]
  rfl

theorem tCsv_eq_some {dados out : Bytes} {delim : UInt8} :
    tCsv dados delim = some out ↔
      ∃ cols, 2 ≤ cols ∧ 4 ≤ (splitLines dados).1.length ∧
        Uniforme delim cols (splitLines dados).1 ∧
        out = csvLayout delim cols (splitLines dados).1 (splitLines dados).2 := by
  have lines : (splitLines dados).1 =
      (if dados.getLast? = some newline then dados.dropLast else dados).splitOn newline := by
    simp only [splitLines]
  have trailing : (splitLines dados).2 = decide (dados.getLast? = some newline) := rfl
  have filled : (splitLines dados).1 ≠ [] := by simp [splitLines, List.splitOn]
  obtain ⟨first, others, shape⟩ := List.exists_cons_of_ne_nil filled
  have head : (((splitLines dados).1.map fun l => l.splitOn delim).headD []).length =
      (first.splitOn delim).length := by rw [shape]; rfl
  have uniform_iff : (((splitLines dados).1.map fun l => l.splitOn delim).any fun l =>
      decide (l.length ≠ (first.splitOn delim).length)) = false ↔
      Uniforme delim (first.splitOn delim).length (splitLines dados).1 := by
    rw [List.any_eq_false]
    simp [Uniforme]
  have laid : ∀ cols, Uniforme delim cols (splitLines dados).1 →
      (0x43 :: delim :: (if dados.getLast? = some newline then 1 else 0) ::
        (varint (splitLines dados).1.length ++ (varint cols ++
          (((List.range cols).map fun c => ((splitLines dados).1.map fun l =>
            l.splitOn delim).map fun l => l.getD c []).flatMap
              (fun c => c.flatMap fun f => varint f.length) ++
            ((List.range cols).map fun c => ((splitLines dados).1.map fun l =>
              l.splitOn delim).map fun l => l.getD c []).flatMap fun c => c.flatten))) : Bytes) =
      csvLayout delim cols (splitLines dados).1 (splitLines dados).2 := by
    intro cols uniforme
    rw [flatMap_flatMap, flatMap_flatten, uniforme.colunas, csvLayout, trailing]
    simp only [decide_eq_true_eq]
    rfl
  rw [tCsv]
  simp only [← lines, List.length_map, head]
  constructor
  · intro success
    split at success
    · cases success
    · rename_i accepted
      push Not at accepted
      obtain ⟨two, four, same⟩ := accepted
      have uniforme := uniform_iff.mp (by simpa using same)
      rw [laid _ uniforme] at success
      exact ⟨_, two, four, uniforme, (Option.some.inj success).symm⟩
  · intro expected
    obtain ⟨cols, two, four, uniforme, rfl⟩ := expected
    have width : (first.splitOn delim).length = cols :=
      uniforme first (by rw [shape]; exact List.mem_cons_self)
    have same := uniform_iff.mpr (width ▸ uniforme)
    rw [width] at same ⊢
    have accepted : ¬ (cols < 2 ∨ (splitLines dados).1.length < 4 ∨
        (((splitLines dados).1.map fun l => l.splitOn delim).any fun l =>
          decide (l.length ≠ cols)) = true) := by
      rw [same]
      simp only [Bool.false_eq_true, or_false]
      omega
    rw [if_neg accepted, laid cols uniforme]

theorem tCsvInv_csvLayout {delim : UInt8} {cols : Nat} {linhas : List Bytes}
    (uniforme : Uniforme delim cols linhas) (final : Bool) :
    tCsvInv (csvLayout delim cols linhas final) =
      some ([newline].intercalate linhas ++ if final then [newline] else []) := by
  have count := length_csvCells delim cols linhas
  have restored := uniforme.restored
  have number : ∀ value rest, ler 0 0 (varint value ++ rest) = some (value, rest) := by
    intro value rest
    have read := ler_varint 0 0 value rest (by decide)
    rwa [pow_zero, Nat.mul_one, Nat.zero_add] at read
  have marker : ((if final then 1 else 0 : UInt8) ≠ 0) ↔ final = true := by
    cases final <;> decide
  rw [csvLayout]
  generalize csvCells delim cols linhas = cells at *
  have lengths := lerTamanhos_varints cells cells.flatten
  rw [count] at lengths
  have rows : ler 0 0 (putVarint linhas.length ++ (putVarint cols ++
      (cells.flatMap (fun f => putVarint f.length) ++ cells.flatten))) = some (linhas.length, _) :=
    number linhas.length _
  have columns : ler 0 0 (putVarint cols ++
      (cells.flatMap (fun f => putVarint f.length) ++ cells.flatten)) = some (cols, _) :=
    number cols _
  rw [tCsvInv, rows, Option.bind_some]
  dsimp only
  rw [columns, Option.bind_some]
  dsimp only
  rw [show (cells.flatMap fun f => putVarint f.length) = cells.flatMap fun f => varint f.length
    from rfl, lengths, Option.map_some]
  simp only [campos_flatten, restored, marker]

theorem tCsvInv_tCsv {dados out : Bytes} {delim : UInt8} (written : tCsv dados delim = some out) :
    tCsvInv out = some dados := by
  obtain ⟨cols, -, -, uniforme, rfl⟩ := tCsv_eq_some.mp written
  rw [tCsvInv_csvLayout uniforme, splitLines_restored]

theorem csvRows_eq {delim : UInt8} {cols rows counted : Nat} {lines : List Bytes}
    (found : csvRows delim cols lines counted = some rows) : rows = counted + lines.length := by
  induction lines generalizing counted with
  | nil =>
      cases found
      rfl
  | cons line lines ih =>
      rw [csvRows] at found
      split at found
      · cases found
      · split at found
        · cases found
        · rw [ih found, List.length_cons]
          omega

theorem csvDetect_large {dados : Bytes} {delim : UInt8} {cols : Nat}
    (detected : csvDetect dados = some (delim, cols)) :
    2 ≤ cols ∧ 4 ≤ (splitLines dados).1.length := by
  simp only [csvDetect, Option.bind_eq_bind, Option.bind_none, Option.ite_none_left_eq_some,
    Option.bind_eq_some_iff, Option.some.injEq, Nat.not_lt] at detected
  obtain ⟨-, found, -, shape, -, wide, rows, counted, tall, same⟩ := detected
  rw [Prod.mk.injEq] at same
  have many := csvRows_eq counted
  rw [Nat.zero_add] at many
  rw [← same.2, ← many]
  exact ⟨wide, tall⟩

/-- Where the engine lays a table out, the emulation writes the same bytes when it is given
the delimiter that the engine found. -/
theorem tCsv_of_csvApply {dados out : Bytes} {delim : UInt8} {cols : Nat}
    (detected : csvDetect dados = some (delim, cols)) (applied : csvApply dados = some out) :
    tCsv dados delim = some out := by
  obtain ⟨delim', cols', same, uniform, rfl⟩ := csvApply_eq_some dados out applied
  rw [detected] at same
  cases same
  obtain ⟨two, four⟩ := csvDetect_large detected
  exact tCsv_eq_some.mpr ⟨cols, two, four, uniform.fields, rfl⟩

/-! ## Chains of the engine -/

def Etapa.step : Etapa → TransformStep
  | csv => Syntra.step .csvColumnar 1 0
  | delta w => Syntra.step .delta w 0
  | split w => Syntra.step .byteSplit w 0

def Etapa.Listed : Etapa → Prop
  | csv => True
  | delta w | split w => w ∈ widths

def Alvo.Listed : Alvo → Prop
  | csv => True
  | numerico w => w ∈ widths

theorem Alvo.Listed.etapas {alvo : Alvo} (listed : alvo.Listed) :
    ∀ candidata ∈ cadeiasTransformadas alvo, ∀ etapa ∈ candidata.cadeia, etapa.Listed := by
  cases alvo with
  | csv => simp [cadeiasTransformadas, Etapa.Listed, widths]
  | numerico w =>
      have width : w ∈ widths := listed
      simp [cadeiasTransformadas, Etapa.Listed, width]

namespace Etapa

theorem inversa_direta {etapa : Etapa} (listed : etapa.Listed) {x y : Bytes}
    (forward : etapa.direta x = some y) : etapa.inversa y = some x := by
  cases etapa with
  | csv => exact tCsvInv_tCsv forward
  | delta w =>
      have narrow := width_le_eight listed
      cases forward
      rw [inversa, tDelta_eq x w narrow, tDeltaInv_eq _ w narrow,
        deltaInvert_deltaApply x w narrow]
  | split w =>
      cases forward
      rw [inversa, tSplit_eq, tSplitInv_eq, byteSplitInvert_byteSplitApply]

theorem inversas_diretas {cadeia : List Etapa} (listed : ∀ etapa ∈ cadeia, etapa.Listed)
    {x y : Bytes} (forward : diretas cadeia x = some y) : inversas cadeia y = some x := by
  induction cadeia generalizing x with
  | nil =>
      cases forward
      rfl
  | cons etapa cadeia ih =>
      obtain ⟨staged, first, rest⟩ := Option.bind_eq_some_iff.mp forward
      have tail := ih (fun other member => listed other (List.mem_cons_of_mem _ member)) rest
      rw [inversas, tail, Option.bind_some]
      exact inversa_direta (listed etapa List.mem_cons_self) first

theorem direta_of_apply {etapa : Etapa} {x y : Bytes} (applied : apply x etapa.step = .ok y)
    (comma : etapa = csv → ∃ cols, csvDetect x = some (0x2c, cols)) :
    etapa.direta x = some y := by
  obtain ⟨transform, found, same⟩ := apply_eq_ok x y etapa.step applied
  cases etapa with
  | csv =>
      cases found
      obtain ⟨cols, detected⟩ := comma rfl
      exact tCsv_of_csvApply detected same
  | delta w =>
      cases found
      obtain ⟨width, rfl⟩ := same
      exact congrArg some (tDelta_eq x w (width_le_eight width))
  | split w =>
      cases found
      obtain ⟨-, rfl⟩ := same
      exact congrArg some (tSplit_eq x w)

theorem diretas_of_applyChain {cadeia : List Etapa} (once : csv ∉ cadeia.tail) {x y : Bytes}
    {recorded : List TransformStep}
    (comma : cadeia.head? = some csv → ∃ cols, csvDetect x = some (0x2c, cols))
    (applied : applyChain x (cadeia.map Etapa.step) = .ok (y, recorded)) :
    diretas cadeia x = some y := by
  induction cadeia generalizing x recorded with
  | nil =>
      cases applied
      rfl
  | cons etapa cadeia ih =>
      obtain ⟨staged, tail, first, rest, -⟩ := applyChain_cons_eq_ok.mp applied
      have forward := direta_of_apply first fun same => comma (by rw [same]; rfl)
      rw [diretas, forward, Option.bind_some]
      refine ih (fun member => once (List.mem_of_mem_tail member)) (fun head => ?_) rest
      exact absurd (List.mem_of_mem_head? head) once

theorem widthOf_step {w : Nat} (listed : w ∈ widths) (transform : Transform) :
    widthOf (Syntra.step transform w 0) = .ok w := by
  have width : ¬ (Syntra.step transform w 0).width ∉ widths := not_not.mpr listed
  rw [widthOf, rejectIf_of_not width]
  rfl

theorem apply_numeric {etapa : Etapa} (listed : etapa.Listed) (numeric : etapa ≠ csv)
    (x : Bytes) : ∃ y, apply x etapa.step = .ok y := by
  cases etapa with
  | csv => exact absurd rfl numeric
  | delta w =>
      refine ⟨Syntra.deltaApply x w, ?_⟩
      show (widthOf (Syntra.step .delta w 0) >>= fun width =>
        Except.ok (Syntra.deltaApply x width)) = _
      rw [widthOf_step listed]
      rfl
  | split w =>
      refine ⟨byteSplitApply x w, ?_⟩
      show (widthOf (Syntra.step .byteSplit w 0) >>= fun width =>
        Except.ok (byteSplitApply x width)) = _
      rw [widthOf_step listed]
      rfl

theorem applyChain_numeric {cadeia : List Etapa} (listed : ∀ etapa ∈ cadeia, etapa.Listed)
    (numeric : csv ∉ cadeia) (x : Bytes) :
    ∃ y recorded, applyChain x (cadeia.map Etapa.step) = .ok (y, recorded) := by
  induction cadeia generalizing x with
  | nil => exact ⟨x, [], rfl⟩
  | cons etapa cadeia ih =>
      obtain ⟨staged, applied⟩ := apply_numeric (listed etapa List.mem_cons_self)
        (fun same => numeric (same ▸ List.mem_cons_self)) x
      obtain ⟨y, recorded, rest⟩ := ih
        (fun other member => listed other (List.mem_cons_of_mem _ member))
        (fun member => numeric (List.mem_cons_of_mem _ member)) staged
      exact ⟨y, _, applyChain_cons_eq_ok.mpr ⟨staged, recorded, applied, rest, rfl⟩⟩

end Etapa

theorem cadeia_shape {alvo : Alvo} {candidata : Candidata}
    (offered : candidata ∈ cadeiasTransformadas alvo) : .csv ∉ candidata.cadeia.tail := by
  cases alvo with
  | csv =>
      simp only [cadeiasTransformadas, List.mem_cons, List.not_mem_nil, or_false] at offered
      rcases offered with rfl | rfl | rfl | rfl | rfl <;> simp
  | numerico w =>
      simp only [cadeiasTransformadas, List.mem_cons, List.not_mem_nil, or_false] at offered
      rcases offered with rfl | rfl | rfl | rfl | rfl | rfl <;> simp

/-! ## The emulation is faithful -/

/-- Where the compressors lose nothing, no candidate is ever reported as inexact. -/
theorem emulation_exact (C : Compressores) (sha : Bytes → String)
    (lossless : ∀ tipo nivel x, C.descomprimir tipo (C.comprimir tipo nivel x) = x)
    {alvo : Alvo} (listed : alvo.Listed) {candidata : Candidata}
    (offered : candidata ∈ cadeiasTransformadas alvo) (dados : Bytes) :
    medirCandidata C sha dados candidata = some .inaplicavel ∨
      ∃ n, medirCandidata C sha dados candidata = some (.aplicavel n true) := by
  rw [medirCandidata]
  cases forward : Etapa.diretas candidata.cadeia dados with
  | none => exact Or.inl rfl
  | some x =>
      have back := Etapa.inversas_diretas (listed.etapas candidata offered) forward
      refine Or.inr ⟨(C.comprimir candidata.tipo candidata.nivel x).length, ?_⟩
      dsimp only
      rw [lossless, back, Option.map_some, beq_self_eq_true]

def armazena : Compressores := { comprimir := fun _ _ x => x, descomprimir := fun _ x => x }

theorem emulation_exact_numeric :
    medirCandidata armazena (fun x => toString x) [1, 2, 4, 2, 5]
        ⟨"zstd-19+delta>split", "zstd", 19, [.delta 2, .split 2]⟩ = some .inaplicavel ∨
      ∃ n, medirCandidata armazena (fun x => toString x) [1, 2, 4, 2, 5]
        ⟨"zstd-19+delta>split", "zstd", 19, [.delta 2, .split 2]⟩ = some (.aplicavel n true) :=
  emulation_exact armazena (fun x => toString x) (fun _ _ _ => rfl)
    (show (Alvo.numerico 2).Listed by simp [Alvo.Listed, widths])
    (by simp [cadeiasTransformadas]) [1, 2, 4, 2, 5]

/-- The emulation writes what the engine writes, unless the engine finds no table. -/
theorem emulation_matches {alvo : Alvo} (listed : alvo.Listed) {candidata : Candidata}
    (offered : candidata ∈ cadeiasTransformadas alvo) (dados : Bytes) :
    (candidata.cadeia.head? = some .csv ∧ csvApply dados = none) ∨
      ∃ x recorded, applyChain dados (candidata.cadeia.map Etapa.step) = .ok (x, recorded) ∧
        ((candidata.cadeia.head? = some .csv → ∃ cols, csvDetect dados = some (0x2c, cols)) →
          Etapa.diretas candidata.cadeia dados = some x) := by
  have once := cadeia_shape offered
  have widths := listed.etapas candidata offered
  have agree := fun {y recorded} (applied : applyChain dados (candidata.cadeia.map Etapa.step) =
    .ok (y, recorded)) comma => Etapa.diretas_of_applyChain once comma applied
  generalize candidata.cadeia = cadeia at *
  by_cases head : cadeia.head? = some .csv
  · obtain ⟨rest, rfl⟩ := List.head?_eq_some_iff.mp head
    cases laid : csvApply dados with
    | none => exact Or.inl ⟨rfl, rfl⟩
    | some staged =>
        have first : apply dados Etapa.csv.step = .ok staged := by
          show okOr (csvApply dados) _ = _
          rw [laid]
          rfl
        obtain ⟨x, recorded, others⟩ := Etapa.applyChain_numeric
          (fun etapa member => widths etapa (List.mem_cons_of_mem _ member)) once staged
        have applied := applyChain_cons_eq_ok.mpr ⟨staged, recorded, first, others, rfl⟩
        exact Or.inr ⟨x, _, applied, agree applied⟩
  · have numeric : .csv ∉ cadeia := by
      intro member
      cases cadeia with
      | nil => cases member
      | cons etapa rest =>
          rcases List.mem_cons.mp member with same | later
          · exact head (same ▸ rfl)
          · exact once later
    obtain ⟨x, recorded, applied⟩ := Etapa.applyChain_numeric widths numeric dados
    exact Or.inr ⟨x, recorded, applied, agree applied⟩

def tabela : Bytes := (List.replicate 16 [97, 44, 98, 10]).flatten

theorem emulation_matches_tabela :
    ∃ x recorded, applyChain tabela [Etapa.csv.step, (Etapa.delta 1).step] = .ok (x, recorded) ∧
      Etapa.diretas [.csv, .delta 1] tabela = some x := by
  have offered : (⟨"zstd-19+csv>delta1", "zstd", 19, [.csv, .delta 1]⟩ : Candidata) ∈
      cadeiasTransformadas .csv := by simp [cadeiasTransformadas]
  have detected : csvDetect tabela = some (0x2c, 2) := by decide
  have laid : (csvApply tabela).isSome := by decide
  rcases emulation_matches (show Alvo.csv.Listed from trivial) offered tabela with table | same
  · rw [table.2] at laid
    cases laid
  · obtain ⟨x, recorded, applied, agrees⟩ := same
    exact ⟨x, recorded, applied, agrees fun _ => ⟨2, detected⟩⟩

example : Etapa.diretas [.delta 2, .split 2] [1, 2, 4, 2, 5] = some [1, 3, 2, 0, 5] := by decide

end Bench

end Syntra

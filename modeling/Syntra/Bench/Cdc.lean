import Syntra.Lib.Machine
import Syntra.Lib.Tiling
import Syntra.Proto

/-!
# Content-defined chunks

`fastcdc_cortar`: from each cut a fingerprint starts anew, and the next cut is the
first place past `minimo` where it vanishes under a mask, a strict one up to
`normal` and a loose one after it.  Reading outside the buffer is a panic.
-/

set_option autoImplicit false

namespace Syntra.Bench

open Fallible Machine Tiling

structure Cdc where
  minimo : Nat
  normal : Nat
  maximo : Nat
  mascaraS : UInt64
  mascaraL : UInt64
  gear : UInt8 → UInt64

/-- How a scanning loop ends: at a cut, or with the fingerprint of what it went over. -/
inductive Scanned where
  | achou (len : Nat)
  | segue (i : Nat) (fp : UInt64)
  deriving Repr, DecidableEq

/-- `for (; i < stop; i++)` over the bytes from `pos` on. -/
def scan (gear : UInt8 → UInt64) (mascara : UInt64) (buf : Bytes) (pos stop i : Nat)
    (fp : UInt64) : Run Empty Scanned :=
  if i < stop then do
    let byte ← index buf (pos + i)
    let fp := (fp <<< 1) + gear byte
    if fp &&& mascara = 0 then .ok (.achou (i + 1))
    else scan gear mascara buf pos stop (i + 1) fp
  else .ok (.segue i fp)
termination_by stop - i

def tamanho (c : Cdc) (buf : Bytes) (pos : Nat) : Run Empty Nat :=
  let resto := buf.length - pos
  if resto ≤ c.minimo then .ok resto
  else
    let lim := min resto c.maximo
    let nor := min c.normal lim
    scan c.gear c.mascaraS buf pos nor c.minimo 0 >>= fun
      | .achou len => .ok len
      | .segue i fp =>
        scan c.gear c.mascaraL buf pos lim i fp >>= fun
          | .achou len => .ok len
          | .segue _ _ => .ok lim

/-- The outer loop, with what was written to `offs` and `tams`; `none` is the return of -1. -/
def cortar (c : Cdc) (buf : Bytes) (cap pos : Nat) (chunks : List (Nat × Nat)) :
    Run Empty (Option (List (Nat × Nat))) :=
  if pos < buf.length then do
    let len ← tamanho c buf pos
    if cap ≤ chunks.length then .ok none
    else cortar c buf cap (pos + len) (chunks ++ [(pos, len)])
  else .ok (some chunks)
termination_by cap - chunks.length
decreasing_by
  rw [List.length_append, List.length_singleton]
  omega

def fastcdcCortar (c : Cdc) (buf : Bytes) (cap : Nat) : Run Empty (Option (List (Nat × Nat))) :=
  cortar c buf cap 0 []

/-! ## One chunk -/

/-- The parameters that the bench passes. -/
structure Cdc.Valid (c : Cdc) : Prop where
  positive : 0 < c.minimo
  wider : c.minimo < c.maximo
  low : c.minimo ≤ c.normal
  high : c.normal ≤ c.maximo

/-- A loop from `i` ends at a cut after it or goes to its end. -/
inductive Scanned.Within (i stop : Nat) : Scanned → Prop
  | achou {len : Nat} (after : i < len) (inside : len ≤ stop) : Within i stop (.achou len)
  | segue (fp : UInt64) : Within i stop (.segue (max i stop) fp)

theorem scan_within (gear : UInt8 → UInt64) (mascara : UInt64) (buf : Bytes) (pos stop : Nat)
    (inside : pos + stop ≤ buf.length) (i : Nat) (fp : UInt64) :
    ∃ ended, scan gear mascara buf pos stop i fp = .ok ended ∧ ended.Within i stop := by
  induction left : stop - i generalizing i fp with
  | zero =>
      have past : ¬ i < stop := by omega
      refine ⟨.segue i fp, by rw [scan, if_neg past], ?_⟩
      have own : Scanned.Within i stop (.segue (max i stop) fp) := Scanned.Within.segue fp
      rwa [Nat.max_eq_left (by omega)] at own
  | succ n ih =>
      have before : i < stop := by omega
      have there := List.getElem?_eq_getElem (show pos + i < buf.length by omega)
      rw [scan, if_pos before, index_eq there, ok_bind]
      dsimp only
      split
      · exact ⟨_, rfl, Scanned.Within.achou (Nat.lt_succ_self i) before⟩
      · obtain ⟨ended, run, within⟩ := ih (i + 1) _ (by omega)
        refine ⟨ended, run, ?_⟩
        cases within with
        | achou after inside => exact Scanned.Within.achou (by omega) inside
        | segue fp =>
            have same : max (i + 1) stop = max i stop := by omega
            rw [same]
            exact Scanned.Within.segue fp

theorem scan_drop (gear : UInt8 → UInt64) (mascara : UInt64) (buf : Bytes) (pos stop i : Nat)
    (fp : UInt64) :
    scan gear mascara buf pos stop i fp = scan gear mascara (buf.drop pos) 0 stop i fp := by
  induction left : stop - i generalizing i fp with
  | zero =>
      have past : ¬ i < stop := by omega
      rw [scan, scan, if_neg past, if_neg past]
  | succ n ih =>
      have before : i < stop := by omega
      have same : (index buf (pos + i) : Run Empty UInt8) = index (buf.drop pos) (0 + i) := by
        rw [index, index, List.getElem?_drop, Nat.zero_add]
      rw [scan, scan, if_pos before, if_pos before, same]
      congr 1
      funext byte
      dsimp only
      rw [ih (i + 1) _ (by omega)]

theorem tamanho_drop (c : Cdc) (buf : Bytes) (pos : Nat) :
    tamanho c buf pos = tamanho c (buf.drop pos) 0 := by
  rw [tamanho, tamanho, List.length_drop, Nat.sub_zero]
  simp only [scan_drop _ _ buf pos]

theorem tamanho_within {c : Cdc} (valid : c.Valid) {buf : Bytes} {pos : Nat}
    (inside : pos < buf.length) :
    ∃ len, tamanho c buf pos = .ok len ∧ 0 < len ∧ pos + len ≤ buf.length ∧ len ≤ c.maximo ∧
      (c.minimo < len ∨ pos + len = buf.length) := by
  obtain ⟨positive, wider, low, high⟩ := valid
  rw [tamanho]
  dsimp only
  by_cases short : buf.length - pos ≤ c.minimo
  · rw [if_pos short]
    exact ⟨_, rfl, by omega, by omega, by omega, Or.inr (by omega)⟩
  · rw [if_neg short]
    have bounded : ∀ len, c.minimo < len → len ≤ min (buf.length - pos) c.maximo →
        0 < len ∧ pos + len ≤ buf.length ∧ len ≤ c.maximo ∧
          (c.minimo < len ∨ pos + len = buf.length) := by
      intro len after before
      exact ⟨by omega, by omega, by omega, Or.inl after⟩
    obtain ⟨first, run, within⟩ := scan_within c.gear c.mascaraS buf pos
      (min c.normal (min (buf.length - pos) c.maximo)) (by omega) c.minimo 0
    rw [run, ok_bind]
    cases within with
    | achou after before => exact ⟨_, rfl, bounded _ after (by omega)⟩
    | segue fp =>
        obtain ⟨second, run, within⟩ := scan_within c.gear c.mascaraL buf pos
          (min (buf.length - pos) c.maximo) (by omega)
          (max c.minimo (min c.normal (min (buf.length - pos) c.maximo))) fp
        dsimp only
        rw [run, ok_bind]
        cases within with
        | achou after before => exact ⟨_, rfl, bounded _ (by omega) before⟩
        | segue fp => exact ⟨_, rfl, bounded _ (by omega) (Nat.le_refl _)⟩

/-! ## All chunks -/

inductive Chunks (c : Cdc) (buf : Bytes) : (pos : Nat) → List (Nat × Nat) → Prop
  | ended {pos : Nat} (past : buf.length ≤ pos) : Chunks c buf pos []
  | chunk {pos len : Nat} {later : List (Nat × Nat)} (inside : pos < buf.length)
      (cut : tamanho c buf pos = .ok len) (rest : Chunks c buf (pos + len) later) :
      Chunks c buf pos ((pos, len) :: later)

theorem cortar_chunks {c : Cdc} {buf : Bytes} {cap pos : Nat} {chunks whole : List (Nat × Nat)}
    (run : cortar c buf cap pos chunks = .ok (some whole)) :
    ∃ later, whole = chunks ++ later ∧ Chunks c buf pos later := by
  induction left : cap - chunks.length using Nat.strongRecOn generalizing pos chunks with
  | ind left ih =>
      subst left
      rw [cortar] at run
      split at run
      · rename_i inside
        obtain ⟨len, cut, run⟩ := bind_eq_ok.mp run
        split at run
        · cases run
        · rename_i room
          obtain ⟨later, rfl, rest⟩ := ih _ (by
            rw [List.length_append, List.length_singleton]
            omega) run rfl
          exact ⟨(pos, len) :: later, List.append_assoc _ _ _, Chunks.chunk inside cut rest⟩
      · rename_i past
        cases run
        exact ⟨[], (List.append_nil _).symm, Chunks.ended (Nat.le_of_not_lt past)⟩

/-- The arrays are large enough: before the last chunk each one took more than `minimo`. -/
theorem cortar_returns {c : Cdc} (valid : c.Valid) {buf : Bytes} {cap pos : Nat}
    {chunks : List (Nat × Nat)} (enough : buf.length / c.minimo < cap)
    (taken : chunks.length * c.minimo ≤ pos ∨ pos = buf.length) :
    ∃ whole, cortar c buf cap pos chunks = .ok (some whole) := by
  induction left : buf.length - pos using Nat.strongRecOn generalizing pos chunks with
  | ind left ih =>
      subst left
      rw [cortar]
      by_cases inside : pos < buf.length
      · obtain ⟨len, cut, moved, within, -, long⟩ := tamanho_within valid inside
        have counted : chunks.length * c.minimo ≤ pos := taken.resolve_right (by omega)
        have room : ¬ cap ≤ chunks.length := by
          have few : chunks.length ≤ buf.length / c.minimo :=
            (Nat.le_div_iff_mul_le valid.positive).mpr (by omega)
          omega
        rw [if_pos inside, cut, ok_bind, if_neg room]
        apply ih (buf.length - (pos + len)) (by omega) _ rfl
        rw [List.length_append, List.length_singleton, Nat.add_mul, Nat.one_mul]
        omega
      · rw [if_neg inside]
        exact ⟨chunks, rfl⟩

theorem Chunks.tiles {c : Cdc} (valid : c.Valid) {buf : Bytes} {pos : Nat}
    {chunks : List (Nat × Nat)} (cut : Chunks c buf pos chunks) (within : pos ≤ buf.length) :
    Tiles pos buf.length chunks ∧ (∀ chunk ∈ chunks, chunk.2 ≤ c.maximo) ∧
      ∀ chunk ∈ chunks.dropLast, c.minimo < chunk.2 := by
  induction cut with
  | @ended pos past =>
      obtain rfl : pos = buf.length := by omega
      exact ⟨Tiles.nil _, fun _ none_ => absurd none_ List.not_mem_nil,
        fun _ none_ => absurd none_ List.not_mem_nil⟩
  | @chunk pos len later inside cut rest ih =>
      obtain ⟨len', same, moved, within', short, long⟩ := tamanho_within valid inside
      rw [cut] at same
      cases same
      obtain ⟨tiles, small, large⟩ := ih within'
      refine ⟨Tiles.cons len tiles, List.forall_mem_cons.mpr ⟨short, small⟩, ?_⟩
      cases rest with
      | ended past => exact fun _ none_ => absurd none_ List.not_mem_nil
      | chunk inside' cut' rest' =>
          rw [List.dropLast_cons_cons]
          exact List.forall_mem_cons.mpr ⟨long.resolve_right (by omega), large⟩

/-! ## Chunks after a cut -/

def relative (start : Nat) (chunk : Nat × Nat) : Nat × Nat := (chunk.1 - start, chunk.2)

/-- The same bytes to the end are cut in the same way, by induction on one of the runs. -/
theorem Chunks.relative_eq {c : Cdc} {buf buf' : Bytes} {pos pos' start start' : Nat}
    {chunks chunks' : List (Nat × Nat)} (cut : Chunks c buf pos chunks)
    (cut' : Chunks c buf' pos' chunks') (same : buf.drop pos = buf'.drop pos')
    (aligned : pos - start = pos' - start') (after : start ≤ pos) (after' : start' ≤ pos') :
    chunks.map (relative start) = chunks'.map (relative start') := by
  have lengths := congrArg List.length same
  rw [List.length_drop, List.length_drop] at lengths
  induction cut generalizing pos' chunks' with
  | ended past =>
      cases cut' with
      | ended past' => rfl
      | chunk inside' => omega
  | @chunk pos len later inside taken rest ih =>
      cases cut' with
      | ended past' => omega
      | @chunk _ len' later' inside' taken' rest' =>
          rw [tamanho_drop, same, ← tamanho_drop, taken'] at taken
          cases taken
          have further : buf.drop (pos + len) = buf'.drop (pos' + len) := by
            rw [← List.drop_drop, same, List.drop_drop]
          have tail := ih rest' further (by omega) (by omega) (by omega) (by omega)
          rw [List.map_cons, List.map_cons, tail]
          simp only [relative, aligned]

theorem Chunks.low {c : Cdc} {buf : Bytes} {pos : Nat} {chunks : List (Nat × Nat)}
    (cut : Chunks c buf pos chunks) : ∀ chunk ∈ chunks, pos ≤ chunk.1 ∧ chunk.1 < buf.length := by
  induction cut with
  | ended past => exact fun _ none_ => absurd none_ List.not_mem_nil
  | chunk inside cut rest ih =>
      refine List.forall_mem_cons.mpr ⟨⟨Nat.le_refl _, inside⟩, ?_⟩
      intro chunk member
      exact ⟨Nat.le_of_add_right_le (ih chunk member).1, (ih chunk member).2⟩

/-- A place where the buffer is cut, its end included. -/
def IsCut (buf : Bytes) (chunks : List (Nat × Nat)) (start : Nat) : Prop :=
  start = buf.length ∨ ∃ len, (start, len) ∈ chunks

/-- The chunks from `start` on, by their distance from it. -/
def after (chunks : List (Nat × Nat)) (start : Nat) : List (Nat × Nat) :=
  (chunks.filter fun chunk => start ≤ chunk.1).map (relative start)

theorem Chunks.from_cut {c : Cdc} (valid : c.Valid) {buf : Bytes} {pos start : Nat}
    {chunks : List (Nat × Nat)} (cut : Chunks c buf pos chunks) (isCut : IsCut buf chunks start) :
    Chunks c buf start (chunks.filter fun chunk => start ≤ chunk.1) := by
  induction cut with
  | ended past =>
      rcases isCut with rfl | ⟨len, impossible⟩
      · exact Chunks.ended (Nat.le_refl _)
      · cases impossible
  | @chunk pos len later inside taken rest ih =>
      obtain ⟨len', same, moved, -⟩ := tamanho_within valid inside
      rw [taken] at same
      cases same
      by_cases here : start = pos
      · subst here
        have all : later.filter (fun chunk => start ≤ chunk.1) = later := by
          apply List.filter_eq_self.mpr
          intro chunk member
          exact decide_eq_true (Nat.le_of_add_right_le (rest.low chunk member).1)
        rw [List.filter_cons_of_pos (by simp), all]
        exact Chunks.chunk inside taken rest
      · have later_ : IsCut buf later start := by
          rcases isCut with ended | ⟨len, member⟩
          · exact Or.inl ended
          · rcases List.mem_cons.mp member with own | other
            · exact absurd (congrArg Prod.fst own) here
            · exact Or.inr ⟨len, other⟩
        have past : ¬ start ≤ pos := by
          rcases later_ with rfl | ⟨len, member⟩
          · omega
          · have low := (rest.low _ member).1
            dsimp only at low
            omega
        rw [List.filter_cons_of_neg (by simpa using past)]
        exact ih later_

/-- Whatever the buffer and the masks, the arrays are never too small, the chunks fill the
buffer, and what is cut after a cut depends only on what is after it. -/
theorem fastcdc_tiles_and_resynchronises (c : Cdc) (valid : c.Valid) :
    (∀ buf : Bytes, ∃ chunks,
      fastcdcCortar c buf (buf.length / c.minimo + 2) = .ok (some chunks) ∧
        Tiles 0 buf.length chunks ∧ (∀ chunk ∈ chunks, chunk.2 ≤ c.maximo) ∧
        ∀ chunk ∈ chunks.dropLast, c.minimo < chunk.2) ∧
      ∀ (before before' suffix : Bytes) (cap cap' : Nat) (chunks chunks' : List (Nat × Nat)),
        fastcdcCortar c (before ++ suffix) cap = .ok (some chunks) →
        fastcdcCortar c (before' ++ suffix) cap' = .ok (some chunks') →
        IsCut (before ++ suffix) chunks before.length →
        IsCut (before' ++ suffix) chunks' before'.length →
        after chunks before.length = after chunks' before'.length := by
  constructor
  · intro buf
    have enough : buf.length / c.minimo < buf.length / c.minimo + 2 := by omega
    have returns : ∃ whole, cortar c buf (buf.length / c.minimo + 2) 0 [] = .ok (some whole) :=
      cortar_returns valid enough (Or.inl (by simp))
    obtain ⟨whole, run⟩ := returns
    obtain ⟨later, rfl, cut⟩ := cortar_chunks run
    exact ⟨_, run, cut.tiles valid (Nat.zero_le _)⟩
  · intro before before' suffix cap cap' chunks chunks' run run' isCut isCut'
    obtain ⟨later, rfl, cut⟩ := cortar_chunks run
    obtain ⟨later', rfl, cut'⟩ := cortar_chunks run'
    apply (cut.from_cut valid isCut).relative_eq (cut'.from_cut valid isCut')
    · rw [List.drop_left' rfl, List.drop_left' rfl]
    · rw [Nat.sub_self, Nat.sub_self]
    · exact Nat.le_refl _
    · exact Nat.le_refl _

def smallCdc : Cdc :=
  { minimo := 1, normal := 2, maximo := 4, mascaraS := 3, mascaraL := 1
    gear := fun byte => byte.toUInt64 }

theorem smallCdc_valid : smallCdc.Valid :=
  { positive := by decide, wider := by decide, low := by decide, high := by decide }

theorem fastcdc_tiles_and_resynchronises_small :
    (∃ chunks, fastcdcCortar smallCdc [7, 8, 1, 3, 5, 6, 9] 9 = .ok (some chunks) ∧
        Tiles 0 7 chunks) ∧
      after [(0, 2), (2, 4), (6, 1)] 2 = after [(0, 2), (2, 2), (4, 4), (8, 1)] 4 := by
  obtain ⟨tiles, again⟩ := fastcdc_tiles_and_resynchronises smallCdc smallCdc_valid
  constructor
  · obtain ⟨chunks, run, filled, -⟩ := tiles [7, 8, 1, 3, 5, 6, 9]
    exact ⟨chunks, run, filled⟩
  · exact again [7, 8] [0, 0, 0, 4] [1, 3, 5, 6, 9] 9 11 _ _ (by decide +kernel)
      (by decide +kernel) (Or.inr ⟨4, by decide⟩) (Or.inr ⟨4, by decide⟩)

end Syntra.Bench

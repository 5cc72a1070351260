import Syntra.Codec.Indexed

/-!
# Capped readers are exact at the limit

However the output of a decoder is cut into pieces, `read_capped` and `CappedSink`
take all of it when it is within the limit and refuse it when it is not, and their
buffer never grows past the limit.
-/

set_option autoImplicit false

namespace Syntra

open Fallible Machine
open Indexed (Addressable)

/-- The buffer is within its capacity, which is within the limit. -/
structure Snug (limit : Nat) (out : OutBuf) : Prop where
  roomy : out.bytes.length ≤ out.capacity
  within : out.capacity ≤ limit

variable {limit : Nat}

theorem extend_growWithin_bytes (out : OutBuf) (chunk : Bytes) (limit : Nat) :
    ((growWithin out chunk.length limit).extend chunk).bytes = out.bytes ++ chunk := by
  rw [OutBuf.extend, growWithin_bytes]

theorem Snug.grow {out : OutBuf} (snug : Snug limit out) {chunk : Bytes}
    (fits : out.bytes.length + chunk.length ≤ limit) :
    Snug limit ((growWithin out chunk.length limit).extend chunk) := by
  obtain ⟨roomy, within⟩ := snug
  have grown : out.bytes.length + chunk.length ≤ (growWithin out chunk.length limit).capacity ∧
      (growWithin out chunk.length limit).capacity ≤ limit := by
    unfold growWithin
    split
    · omega
    · dsimp only
      omega
  refine { roomy := ?_, within := grown.2 }
  rw [extend_growWithin_bytes, List.length_append]
  exact grown.1

theorem snug_initialCapacity (expectedLen : Option Nat) (limit payloadLen : Nat) :
    Snug limit (OutBuf.withCapacity (initialCapacity expectedLen limit payloadLen)) := by
  refine { roomy := Nat.zero_le _, within := ?_ }
  show min (min _ limit) _ ≤ limit
  omega

/-! ## Reading -/

def Unfailing (pieces : List Piece) : Prop := ∀ failure, Piece.failed failure ∉ pieces

/-- The whole run, by induction on the pieces. -/
theorem readCapped_unfailing {pieces : List Piece} (unfailing : Unfailing pieces) {out : OutBuf}
    (snug : Snug limit out) :
    (out.bytes.length + (delivered pieces).length ≤ limit → ∃ final,
        readCapped limit pieces out = .ok final ∧ final.bytes = out.bytes ++ delivered pieces ∧
          Snug limit final) ∧
      (limit < out.bytes.length + (delivered pieces).length →
        readCapped limit pieces out = .error (tooLarge limit)) := by
  induction pieces generalizing out with
  | nil =>
      have within := snug.roomy.trans snug.within
      refine ⟨fun _ => ⟨out, rfl, (List.append_nil _).symm, snug⟩, ?_⟩
      intro large
      exact absurd large (Nat.not_lt_of_le within)
  | cons piece pieces ih =>
      have rest : Unfailing pieces := fun failure there =>
        unfailing failure (List.mem_cons_of_mem _ there)
      cases piece with
      | bytes chunk =>
          rw [readCapped, delivered]
          by_cases ended : chunk.isEmpty = true
          · have within := snug.roomy.trans snug.within
            rw [if_pos ended, if_pos ended]
            refine ⟨fun _ => ⟨out, rfl, (List.append_nil _).symm, snug⟩, ?_⟩
            intro large
            exact absurd large (Nat.not_lt_of_le within)
          rw [if_neg ended, if_neg ended, List.length_append, ← Nat.add_assoc]
          by_cases exceeded : limit < out.bytes.length + chunk.length
          · rw [if_pos exceeded]
            refine ⟨fun fits => ?_, fun _ => rfl⟩
            omega
          · rw [if_neg exceeded]
            have later := ih rest (snug.grow (Nat.le_of_not_lt exceeded))
            simp only [extend_growWithin_bytes, List.length_append, List.append_assoc] at later
            exact later
      | interrupted => exact ih rest snug
      | failed failure => exact absurd List.mem_cons_self (unfailing failure)

theorem delivered_take_le (pieces : List Piece) (k : Nat) :
    (delivered (pieces.take k)).length ≤ (delivered pieces).length := by
  induction pieces generalizing k with
  | nil => rw [List.take_nil]
  | cons piece pieces ih =>
      cases k with
      | zero => exact Nat.zero_le _
      | succ k =>
          have later := ih k
          rw [List.take_succ_cons]
          cases piece with
          | bytes chunk =>
              rw [delivered, delivered]
              split
              · exact Nat.le_refl _
              · rw [List.length_append, List.length_append]
                omega
          | interrupted => exact later
          | failed failure => exact Nat.le_refl _

theorem Unfailing.take {pieces : List Piece} (unfailing : Unfailing pieces) (k : Nat) :
    Unfailing (pieces.take k) := fun failure there => unfailing failure (List.mem_of_mem_take there)

/-! ## Writing to a sink -/

theorem sinkWrites_total (chunks : List Bytes) {out : OutBuf} (snug : Snug limit out) :
    (out.bytes.length + chunks.flatten.length ≤ limit → ∃ final,
        sinkWrites limit chunks out = some final ∧ final.bytes = out.bytes ++ chunks.flatten ∧
          Snug limit final) ∧
      (limit < out.bytes.length + chunks.flatten.length → sinkWrites limit chunks out = none) := by
  induction chunks generalizing out with
  | nil =>
      have within := snug.roomy.trans snug.within
      refine ⟨fun _ => ⟨out, rfl, (List.append_nil _).symm, snug⟩, ?_⟩
      intro large
      exact absurd large (Nat.not_lt_of_le within)
  | cons chunk chunks ih =>
      rw [sinkWrites, List.flatten_cons, List.length_append, ← Nat.add_assoc]
      by_cases exceeded : limit < out.bytes.length + chunk.length
      · rw [if_pos exceeded]
        refine ⟨fun fits => ?_, fun _ => rfl⟩
        omega
      · rw [if_neg exceeded]
        have later := ih (snug.grow (Nat.le_of_not_lt exceeded))
        simp only [extend_growWithin_bytes, List.length_append, List.append_assoc] at later
        exact later

theorem flatten_take_le (chunks : List Bytes) (k : Nat) :
    (chunks.take k).flatten.length ≤ chunks.flatten.length := by
  conv_rhs => rw [← List.take_append_drop k chunks, List.flatten_append, List.length_append]
  exact Nat.le_add_right _ _

/-! ## Both of them -/

/-- What a capped reader does with an output, given how it can end. -/
structure ExactAt (limit : Nat) (whole : Bytes) (ends : OutBuf → Prop) (refuses : Prop)
    (visits : OutBuf → Prop) : Prop where
  finishes : (∃ out, ends out ∧ out.bytes = whole) ↔ whole.length ≤ limit
  refuses : refuses ↔ limit < whole.length
  bounded : ∀ out, visits out → out.bytes.length ≤ limit ∧ out.capacity ≤ limit

theorem ExactAt.of_total {whole : Bytes} {ends visits : OutBuf → Prop} {refuses : Prop}
    (exclusive : ∀ out, ends out → ¬ refuses)
    (finish : whole.length ≤ limit → ∃ out, ends out ∧ out.bytes = whole)
    (refuse : limit < whole.length → refuses)
    (bounded : ∀ out, visits out → out.bytes.length ≤ limit ∧ out.capacity ≤ limit) :
    ExactAt limit whole ends refuses visits := by
  refine { finishes := ⟨?_, finish⟩, refuses := ⟨?_, refuse⟩, bounded }
  · rintro ⟨out, ended, -⟩
    by_contra large
    exact exclusive out ended (refuse (Nat.lt_of_not_le large))
  · intro refused
    by_contra within
    obtain ⟨out, ended, -⟩ := finish (Nat.le_of_not_lt within)
    exact exclusive out ended refused

theorem readCapped_exactAt {pieces : List Piece} (unfailing : Unfailing pieces)
    (addressable : Addressable limit (delivered pieces).length) {capacity : Nat}
    (within : capacity ≤ limit) :
    ExactAt limit (delivered pieces)
      (fun out => Indexed.readCapped limit pieces (.withCapacity capacity) = .ok out)
      (Indexed.readCapped limit pieces (.withCapacity capacity) = fails (tooLarge limit))
      (fun out => ∃ k, Indexed.readCapped limit (pieces.take k) (.withCapacity capacity) =
        .ok out) := by
  have snug : Snug limit (OutBuf.withCapacity capacity) := ⟨Nat.zero_le _, within⟩
  have start : (OutBuf.withCapacity capacity).bytes.length = 0 := rfl
  have model : ∀ k, Indexed.readCapped limit (pieces.take k) (.withCapacity capacity) =
      lift (readCapped limit (pieces.take k) (.withCapacity capacity)) := by
    intro k
    apply Indexed.readCapped_eq _ _ _ (Indexed.roomy_withCapacity capacity)
    have fewer := delivered_take_le pieces k
    unfold Addressable at addressable ⊢
    omega
  have whole := model pieces.length
  rw [List.take_length] at whole
  obtain ⟨finish, refuse⟩ := readCapped_unfailing unfailing snug
  rw [start, Nat.zero_add] at finish refuse
  apply ExactAt.of_total
  · intro out ended refused
    rw [ended] at refused
    cases refused
  · intro fits
    obtain ⟨final, run, bytes, -⟩ := finish fits
    refine ⟨final, ?_, bytes⟩
    rw [whole, run]
    rfl
  · intro large
    rw [whole, refuse large]
    rfl
  · rintro out ⟨k, run⟩
    obtain ⟨finish, refuse⟩ := readCapped_unfailing (unfailing.take k) snug
    rw [model k] at run
    by_cases fits : (OutBuf.withCapacity capacity).bytes.length +
        (delivered (pieces.take k)).length ≤ limit
    · obtain ⟨final, read, -, kept⟩ := finish fits
      rw [read] at run
      cases run
      exact ⟨kept.roomy.trans kept.within, kept.within⟩
    · rw [refuse (Nat.lt_of_not_le fits)] at run
      cases run

theorem sinkWrites_exactAt {chunks : List Bytes}
    (addressable : Addressable limit chunks.flatten.length) {capacity : Nat}
    (within : capacity ≤ limit) :
    ExactAt limit chunks.flatten
      (fun out => Indexed.sinkWrites limit chunks (.withCapacity capacity) = .ok (some out))
      (Indexed.sinkWrites limit chunks (.withCapacity capacity) = .ok none)
      (fun out => ∃ k, Indexed.sinkWrites limit (chunks.take k) (.withCapacity capacity) =
        .ok (some out)) := by
  have snug : Snug limit (OutBuf.withCapacity capacity) := ⟨Nat.zero_le _, within⟩
  have start : (OutBuf.withCapacity capacity).bytes.length = 0 := rfl
  have model : ∀ k, Indexed.sinkWrites limit (chunks.take k) (.withCapacity capacity) =
      .ok (sinkWrites limit (chunks.take k) (.withCapacity capacity)) := by
    intro k
    apply Indexed.sinkWrites_eq _ _ _ (Indexed.roomy_withCapacity capacity)
    have fewer := flatten_take_le chunks k
    unfold Addressable at addressable ⊢
    omega
  have whole := model chunks.length
  rw [List.take_length] at whole
  obtain ⟨finish, refuse⟩ := sinkWrites_total chunks snug
  rw [start, Nat.zero_add] at finish refuse
  apply ExactAt.of_total
  · intro out ended refused
    rw [ended] at refused
    cases refused
  · intro fits
    obtain ⟨final, run, bytes, -⟩ := finish fits
    refine ⟨final, ?_, bytes⟩
    rw [whole, run]
  · intro large
    rw [whole, refuse large]
  · rintro out ⟨k, run⟩
    obtain ⟨finish, refuse⟩ := sinkWrites_total (chunks.take k) snug
    rw [model k] at run
    by_cases fits : (OutBuf.withCapacity capacity).bytes.length +
        (chunks.take k).flatten.length ≤ limit
    · obtain ⟨final, written, -, kept⟩ := finish fits
      rw [written] at run
      cases run
      exact ⟨kept.roomy.trans kept.within, kept.within⟩
    · rw [refuse (Nat.lt_of_not_le fits)] at run
      cases run

/-- Both readers, however their input is cut, with a buffer that starts at the initial
capacity.  A vector that held more than a limit near the largest word could not exist. -/
theorem capped_exact (limit payloadLen : Nat) (expectedLen : Option Nat) :
    (∀ pieces : List Piece, Unfailing pieces → Addressable limit (delivered pieces).length →
      ExactAt limit (delivered pieces)
        (fun out => Indexed.readCapped limit pieces
          (.withCapacity (initialCapacity expectedLen limit payloadLen)) = .ok out)
        (Indexed.readCapped limit pieces
          (.withCapacity (initialCapacity expectedLen limit payloadLen)) = fails (tooLarge limit))
        (fun out => ∃ k, Indexed.readCapped limit (pieces.take k)
          (.withCapacity (initialCapacity expectedLen limit payloadLen)) = .ok out)) ∧
      ∀ chunks : List Bytes, Addressable limit chunks.flatten.length →
        ExactAt limit chunks.flatten
          (fun out => Indexed.sinkWrites limit chunks
            (.withCapacity (initialCapacity expectedLen limit payloadLen)) = .ok (some out))
          (Indexed.sinkWrites limit chunks
            (.withCapacity (initialCapacity expectedLen limit payloadLen)) = .ok none)
          (fun out => ∃ k, Indexed.sinkWrites limit (chunks.take k)
            (.withCapacity (initialCapacity expectedLen limit payloadLen)) = .ok (some out)) := by
  have within := (snug_initialCapacity expectedLen limit payloadLen).within
  exact ⟨fun _ unfailing addressable => readCapped_exactAt unfailing addressable within,
    fun _ addressable => sinkWrites_exactAt addressable within⟩

/-- Four bytes under limits of four and three, from a reader that is interrupted once. -/
def fourPieces : List Piece := [.bytes [1, 2, 3], .interrupted, .bytes [4]]

theorem fourPieces_unfailing : Unfailing fourPieces := by
  intro failure
  simp [fourPieces]

theorem capped_exact_fourPieces :
    (∃ out, Indexed.readCapped 4 fourPieces (.withCapacity (initialCapacity none 4 2)) = .ok out ∧
      out.bytes = [1, 2, 3, 4]) ∧
    Indexed.readCapped 3 fourPieces (.withCapacity (initialCapacity none 3 2)) =
      fails (tooLarge 3) ∧
    Indexed.sinkWrites 3 [[1, 2, 3], [4]] (.withCapacity (initialCapacity none 3 2)) =
      .ok none := by
  refine ⟨?_, ?_, ?_⟩
  · exact ((capped_exact 4 2 none).1 fourPieces fourPieces_unfailing
      (Or.inl (by decide))).finishes.mpr (by decide)
  · exact ((capped_exact 3 2 none).1 fourPieces fourPieces_unfailing
      (Or.inl (by decide))).refuses.mpr (by decide)
  · exact ((capped_exact 3 2 none).2 [[1, 2, 3], [4]] (Or.inl (by decide))).refuses.mpr (by decide)

end Syntra

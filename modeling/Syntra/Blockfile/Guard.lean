import Syntra.Blockfile.Reopened
import Syntra.Blockfile.Scan

/-!
# What the scan guards

The decoder that runs after the scan takes every encoding that the wire format
allows.  Where both succeed they went over the same fields, so the scan counted
as many plans, names and transforms as the decoder builds.
-/

set_option autoImplicit false

namespace Syntra.Blockfile

open Fallible Protobuf
open Scan (Within)

/-- A plan decoded from a payload: one transform for each field with their number. -/
def PlanFrom (payload : Bytes) (plan : BlockPlanV4) : Prop :=
  ∃ fields, Parses payload fields ∧ (carried 1 fields).length = plan.transforms.length

/-- How protocol buffers are decoded: every field of a repeated message or string
adds one element, whatever fields are around it. -/
structure DecodesWire (P : Platform) : Prop where
  footer : ∀ buf footer, P.decodeFooter buf = .ok footer → ∃ fields, Parses buf fields ∧
    List.Forall₂ PlanFrom (carried 5 fields) footer.plans ∧
    List.Forall₂ (fun payload (name : String) => payload = name.toUTF8.toList)
      (carried 12 fields) footer.originalNames

/-! ## What a scan has counted -/

def Room (limits : List (Nat × Nat)) (counts : List Nat) (fields : List (Nat × Bytes)) : Prop :=
  List.Forall₂ (fun limit count => count + (carried limit.1 fields).length ≤ limit.2) limits counts

theorem countField_within {field : Nat} {limits : List (Nat × Nat)} {counts next : List Nat}
    (within : Within limits counts) (counted : countField field limits counts = .ok next) :
    Within limits next := by
  induction within generalizing next with
  | nil =>
      cases counted
      exact List.Forall₂.nil
  | @cons limit count limits counts few _ ih =>
      obtain ⟨number, max⟩ := limit
      rw [countField] at counted
      obtain ⟨allowed, counted⟩ := rejectIf_bind_eq_ok.mp counted
      obtain ⟨later, rest, equal⟩ := bind_eq_ok.mp counted
      cases equal
      refine List.Forall₂.cons ?_ (ih rest)
      dsimp only at few ⊢
      by_cases same : number = field
      · rw [if_pos same] at allowed ⊢
        exact Nat.le_of_not_lt fun exceeded => allowed ⟨same, exceeded⟩
      · rwa [if_neg same]

theorem countField_room {field : Nat} {limits : List (Nat × Nat)} {counts next : List Nat}
    {fields : List (Nat × Bytes)} (within : Within limits counts)
    (counted : countField field limits counts = .ok next) (room : Room limits next fields)
    (payload : Bytes) : Room limits counts ((field, payload) :: fields) := by
  induction within generalizing next with
  | nil => exact List.Forall₂.nil
  | @cons limit count limits counts _ _ ih =>
      obtain ⟨number, max⟩ := limit
      rw [countField] at counted
      obtain ⟨-, counted⟩ := rejectIf_bind_eq_ok.mp counted
      obtain ⟨later, rest, equal⟩ := bind_eq_ok.mp counted
      cases equal
      obtain ⟨few, room⟩ := List.forall₂_cons.mp room
      refine List.Forall₂.cons ?_ (ih rest room)
      dsimp only at few ⊢
      rw [carried_cons]
      by_cases same : number = field
      · rw [if_pos same] at few
        rw [if_pos same.symm, List.length_cons]
        omega
      · rw [if_neg same] at few
        rwa [if_neg (Ne.symm same)]

/-- What a scan accepts, by induction on how the decoder reads it. -/
theorem scanLoop_room {limits : List (Nat × Nat)} {onLen : Nat → Bytes → Except String Unit}
    {counts : List Nat} {buf : Bytes} {fields : List (Nat × Bytes)} (parsed : Parses buf fields)
    (within : Within limits counts) (scanned : scanLoop limits onLen counts buf = .ok ()) :
    Room limits counts fields ∧ ∀ field ∈ fields, onLen field.1 field.2 = .ok () := by
  induction parsed generalizing counts with
  | nil => exact ⟨within, fun _ none_ => absurd none_ List.not_mem_nil⟩
  | @varint number value key digits rest fields keyed read others ih =>
      obtain ⟨-, accepts⟩ := (scanLoop_key keyed (by decide)).mp scanned
      obtain ⟨_, got⟩ := wireVarint_reads read rest
      cases accepts with
      | varint value' read' later =>
          rw [got] at read'
          cases read'
          exact ih within later
  | @fixed64 number key word rest fields keyed sized others ih =>
      obtain ⟨-, accepts⟩ := (scanLoop_key keyed (by decide)).mp scanned
      obtain ⟨_, past⟩ := skip_append word rest
      cases accepts with
      | fixed64 left skipped later =>
          rw [sized] at past
          rw [past] at skipped
          cases skipped
          exact ih within later
  | @delimited number key digits payload rest fields keyed sized others ih =>
      obtain ⟨-, accepts⟩ := (scanLoop_key keyed (by decide)).mp scanned
      obtain ⟨_, got⟩ := wireVarint_reads sized (payload ++ rest)
      obtain ⟨_, past⟩ := skip_append payload rest
      cases accepts with
      | delimited len left next read skipped counted visited later =>
          rw [got] at read
          cases read
          dsimp only at skipped visited
          rw [past] at skipped
          cases skipped
          rw [List.take_left' rfl] at visited
          obtain ⟨room, visits⟩ := ih (countField_within within counted) later
          exact ⟨countField_room within counted room payload,
            List.forall_mem_cons.mpr ⟨visited, visits⟩⟩
  | @group number key inner stop rest skipped fields keyed inside closed others _ _ =>
      obtain ⟨-, accepts⟩ := (scanLoop_key keyed (by decide)).mp scanned
      cases accepts
  | @fixed32 number key word rest fields keyed sized others ih =>
      obtain ⟨-, accepts⟩ := (scanLoop_key keyed (by decide)).mp scanned
      obtain ⟨_, past⟩ := skip_append word rest
      cases accepts with
      | fixed32 left skipped later =>
          rw [sized] at past
          rw [past] at skipped
          cases skipped
          exact ih within later

theorem scanFields_room {limits : List (Nat × Nat)} {onLen : Nat → Bytes → Except String Unit}
    {buf : Bytes} {fields : List (Nat × Bytes)} (parsed : Parses buf fields)
    (scanned : scanFields buf limits onLen = .ok ()) :
    (∀ limit ∈ limits, (carried limit.1 fields).length ≤ limit.2) ∧
      ∀ field ∈ fields, onLen field.1 field.2 = .ok () := by
  obtain ⟨room, visits⟩ := scanLoop_room parsed (Scan.within_zero limits) scanned
  refine ⟨?_, visits⟩
  clear scanned
  intro limit member
  have few := List.forall₂_map_right_iff.mp room
  rw [List.forall₂_same] at few
  have within := few limit member
  rwa [Nat.zero_add] at within

theorem scanFooter_bounds {P : Platform} (decodes : DecodesWire P) {buf : Bytes}
    {footer : FooterV4} (scanned : scanFooter buf = .ok ())
    (decoded : P.decodeFooter buf = .ok footer) :
    footer.plans.length ≤ maxPlans ∧ footer.originalNames.length ≤ maxNames ∧
      ∀ plan ∈ footer.plans, plan.transforms.length ≤ maxChain := by
  obtain ⟨fields, parsed, plans, names⟩ := decodes.footer buf footer decoded
  obtain ⟨few, visits⟩ := scanFields_room parsed scanned
  refine ⟨?_, ?_, ?_⟩
  · rw [← plans.length_eq]
    exact few (5, maxPlans) (by simp)
  · rw [← names.length_eq]
    exact few (12, maxNames) (by simp)
  · intro plan member
    obtain ⟨i, inside, rfl⟩ := List.getElem_of_mem member
    have inside' : i < (carried 5 fields).length := by rwa [plans.length_eq]
    obtain ⟨fields', parsed', length⟩ : PlanFrom (carried 5 fields)[i] footer.plans[i] :=
      plans.get inside' inside
    have visited := visits _ (mem_carried.mp (List.getElem_mem inside'))
    dsimp only at visited
    rw [if_pos rfl] at visited
    rw [← length]
    exact (scanFields_room parsed' visited).1 (1, maxChain) (by simp)

/-- The scan ends without a panic on any buffer, what the decoder builds from a buffer that
passes it is within the limits, and the footers of a writer pass: whether `finish` gets to
write its footer does not depend on how its writes end. -/
theorem scan_guards (P : Platform) (decodes : DecodesWire P) (metrics : FileMetrics → Bytes) :
    (∀ buf : Bytes, buf.length < 2 ^ 64 → Scan.scanFooter buf ≠ .error .panic ∧
      (Scan.scanFooter buf = .ok () → ∀ footer, P.decodeFooter buf = .ok footer →
        footer.plans.length ≤ maxPlans ∧ footer.originalNames.length ≤ maxNames ∧
          ∀ plan ∈ footer.plans, plan.transforms.length ≤ maxChain)) ∧
      ∀ (log2 : Nat) (first second : Option Fault) (w₀ : Writer),
        Writer.new log2 first second = .ok w₀ → ∀ (calls : List Call) (info : Metadata)
        (done : Bytes × Summary),
        (w₀.steps P calls).2.finish P metrics info .none = .ok done →
        Scan.scanFooter (encodeFooter metrics ((w₀.steps P calls).2.footer P info)) = .ok () := by
  refine ⟨?_, ?_⟩
  · intro buf small
    have follows := Scan.scanFooter_follows small
    refine ⟨follows.no_panic, ?_⟩
    intro scanned footer decoded
    obtain ⟨_, model, -⟩ := follows.of_ok scanned
    exact scanFooter_bounds decodes model decoded
  · intro log2 first second w₀ made calls info done finished
    obtain ⟨file, summary⟩ := done
    obtain ⟨start, -, -⟩ := Writer.new_eq_ok P made
    obtain ⟨held, -⟩ := Writer.steps_hold start calls
    obtain ⟨names, short, -⟩ := Writer.finish_eq_ok P metrics finished
    have small : (encodeFooter metrics ((w₀.steps P calls).2.footer P info)).length < 2 ^ 64 :=
      short.trans_lt (by decide)
    rw [(Scan.scanFooter_follows small).eq_lift, held.scanFooter_eq names short]
    rfl

/-! ## The footer of one block -/

theorem planFrom_stored :
    PlanFrom (Protobuf.encode (planFields BlockPlan.stored.toProto)) BlockPlan.stored.toProto := by
  have numbered : Numbered (· < 2 ^ 29) (planFields BlockPlan.stored.toProto) := by
    unfold Numbered
    decide +kernel
  exact ⟨_, parses_encode numbered (by decide +kernel), by decide +kernel⟩

theorem decodesWire_blockPlatform : DecodesWire blockPlatform := by
  refine ⟨?_⟩
  intro buf footer decoded
  obtain ⟨rfl, rfl⟩ := decodeFooter_blockPlatform decoded
  have numbered : Numbered (· < 2 ^ 29) (footerFields noMetrics oneFooter) := by
    unfold Numbered
    decide +kernel
  have plans : carried 5 ((footerFields noMetrics oneFooter).filterMap fun field =>
      field.payload.map fun payload => (field.number, payload)) =
      [Protobuf.encode (planFields BlockPlan.stored.toProto)] := by decide +kernel
  have names : carried 12 ((footerFields noMetrics oneFooter).filterMap fun field =>
      field.payload.map fun payload => (field.number, payload)) = ["um".toUTF8.toList] := by
    decide +kernel
  refine ⟨_, parses_encode numbered (by decide +kernel), ?_, ?_⟩
  · rw [plans]
    exact List.Forall₂.cons planFrom_stored List.Forall₂.nil
  · rw [names]
    exact List.Forall₂.cons rfl List.Forall₂.nil

theorem scan_guards_one :
    Scan.scanFooter oneFooterBytes ≠ .error .panic ∧
      (oneFooter.plans.length ≤ maxPlans ∧ oneFooter.originalNames.length ≤ maxNames ∧
        ∀ plan ∈ oneFooter.plans, plan.transforms.length ≤ maxChain) ∧
      Scan.scanFooter (encodeFooter noMetrics
        ((emptyWriter.steps blockPlatform oneCalls).2.footer blockPlatform oneInfo)) = .ok () := by
  obtain ⟨guards, written⟩ := scan_guards blockPlatform decodesWire_blockPlatform noMetrics
  have passes := written 12 none none emptyWriter (by decide) oneCalls oneInfo
    (oneFile, oneSummary) (by decide +kernel)
  have same : (emptyWriter.steps blockPlatform oneCalls).2.footer blockPlatform oneInfo =
      oneFooter := by decide +kernel
  obtain ⟨safe, bounds⟩ := guards oneFooterBytes (by decide +kernel)
  refine ⟨safe, bounds ?_ oneFooter blockPlatform_decodeFooter, passes⟩
  rw [same] at passes
  exact passes

end Syntra.Blockfile

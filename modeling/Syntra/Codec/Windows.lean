import Syntra.Codec.Indexed
import Syntra.FramingCodecs

/-!
# The windows of a zstd payload

A zstd payload is a sequence of frames, some of which may only carry user data.
The check of the windows accepts it exactly when every frame that decompresses
needs at most the window that the limit allows.
-/

set_option autoImplicit false

namespace Syntra

open Fallible Machine

/-! ## Frames -/

namespace ZstdFrame

def singleSegment (descriptor : UInt8) : Bool := descriptor &&& 0x20 ≠ 0

/-- The bytes of `Dictionary_ID` under each value of its flag. -/
def dictionaryIdLen (descriptor : UInt8) : Nat := [0, 1, 2, 4].getD (descriptor &&& 3).toNat 0

/-- The bytes of `Frame_Content_Size`: flag 0 means one byte in a frame of one segment. -/
def contentSizeLen (descriptor : UInt8) : Nat :=
  if singleSegment descriptor && (descriptor >>> 6).toNat = 0 then 1
  else [0, 2, 4, 8].getD (descriptor >>> 6).toNat 0

end ZstdFrame

/-- The header of a frame field by field, and its blocks, each with a header of three bytes. -/
structure ZstdFrame where
  descriptor : UInt8
  /-- Written only when there is more than one segment. -/
  windowDescriptor : UInt8
  dictionaryId : Bytes
  contentSize : Bytes
  blocks : Bytes
  dictionaryId_length : dictionaryId.length = ZstdFrame.dictionaryIdLen descriptor
  contentSize_length : contentSize.length = ZstdFrame.contentSizeLen descriptor
  blocks_length : 3 ≤ blocks.length

namespace ZstdFrame

def encode (frame : ZstdFrame) : Bytes :=
  zstdMagic ++ (frame.descriptor ::
    ((if singleSegment frame.descriptor then [] else [frame.windowDescriptor]) ++
      (frame.dictionaryId ++ (frame.contentSize ++ frame.blocks))))

/-- A content size of two bytes counts from 256. -/
def contentSizeValue (frame : ZstdFrame) : Nat :=
  LittleEndian.ofBytes frame.contentSize + if frame.contentSize.length = 2 then 256 else 0

/-- The content of a single segment, or the window of an exponent and a mantissa. -/
def windowSize (frame : ZstdFrame) : Nat :=
  if singleSegment frame.descriptor then frame.contentSizeValue
  else
    let exponent := (frame.windowDescriptor >>> 3).toNat
    let mantissa := (frame.windowDescriptor &&& 7).toNat
    2 ^ (10 + exponent) + 2 ^ (10 + exponent) / 8 * mantissa

end ZstdFrame

inductive PayloadFrame where
  | zstd (frame : ZstdFrame)
  /-- One of sixteen magic numbers, the size and the data of the user. -/
  | skippable (kind : Fin 16) (data : Bytes)

namespace PayloadFrame

def encode : PayloadFrame → Bytes
  | .zstd frame => frame.encode
  | .skippable kind data =>
    [UInt8.ofNat (0x50 + kind.val), 0x2A, 0x4D, 0x18] ++
      (LittleEndian.toBytes 4 data.length ++ data)

def window : PayloadFrame → Option Nat
  | .zstd frame => some frame.windowSize
  | .skippable _ _ => none

end PayloadFrame

def encodeFrames (frames : List PayloadFrame) : Bytes := frames.flatMap PayloadFrame.encode

/-! ## The window of the first frame -/

theorem flag_lt_four (descriptor : UInt8) :
    (descriptor &&& 3).toNat < 4 ∧ (descriptor >>> 6).toNat < 4 := by
  constructor
  · rw [UInt8.toNat_and]
    exact Nat.lt_succ_of_le Nat.and_le_right
  · have small := descriptor.toNat_lt
    rw [UInt8.toNat_shiftRight]
    have six : (6 : UInt8).toNat % 8 = 6 := rfl
    rw [six, Nat.shiftRight_eq_div_pow]
    omega

theorem dictIdLen_eq (descriptor : UInt8) :
    Indexed.dictIdLen descriptor = ZstdFrame.dictionaryIdLen descriptor := by
  have small := (flag_lt_four descriptor).1
  unfold Indexed.dictIdLen ZstdFrame.dictionaryIdLen
  generalize (descriptor &&& 3).toNat = flag at small ⊢
  rcases flag with _ | _ | _ | _ | flag
  · rfl
  · rfl
  · rfl
  · rfl
  · omega

theorem sizeFieldLen_eq {descriptor : UInt8} (single : ZstdFrame.singleSegment descriptor = true) :
    Indexed.sizeFieldLen descriptor = ZstdFrame.contentSizeLen descriptor := by
  have small := (flag_lt_four descriptor).2
  unfold Indexed.sizeFieldLen ZstdFrame.contentSizeLen
  rw [single]
  generalize (descriptor >>> 6).toNat = flag at small ⊢
  rcases flag with _ | _ | _ | _ | flag
  · rfl
  · rfl
  · rfl
  · rfl
  · omega

theorem zstdFrameWindow_single {frame : Bytes} {descriptor : UInt8} (long : ¬ frame.length < 6)
    (magic : frame.take 4 = zstdMagic) (four : frame.getD 4 0 = descriptor)
    (flag : ¬ descriptor &&& 0x20 = 0) {raw : Bytes}
    (field : (frame.drop (5 + Indexed.dictIdLen descriptor)).take
      (Indexed.sizeFieldLen descriptor) = raw)
    (whole : raw.length = Indexed.sizeFieldLen descriptor) :
    zstdFrameWindow frame =
      some (if raw.length = 2 then LittleEndian.ofBytes raw + 256 else LittleEndian.ofBytes raw) := by
  have computed := Indexed.zstdFrameWindow_eq frame
  rw [Indexed.zstdFrameWindow, if_neg long, slice_eq (Nat.zero_le 4) (by omega), ok_bind,
    List.drop_zero, if_neg (not_not.mpr magic), index_eq (x := descriptor), ok_bind, if_neg flag,
    Indexed.zstdSizeField_eq frame (Indexed.dictIdLen_le _) (Indexed.sizeFieldLen_bounds _),
    field] at computed
  · dsimp only at computed
    rw [if_neg (by omega)] at computed
    rw [← Except.ok.inj computed, whole]
  · rw [← four, List.getD_eq_getElem?_getD, List.getElem?_eq_getElem (by omega)]
    rfl

theorem zstdFrameWindow_encode (frame : ZstdFrame) (rest : Bytes) :
    zstdFrameWindow (frame.encode ++ rest) = some frame.windowSize := by
  have sized := frame.contentSize_length
  have blocks := frame.blocks_length
  have magic : (frame.encode ++ rest).take 4 = zstdMagic := rfl
  have four : (frame.encode ++ rest).getD 4 0 = frame.descriptor := rfl
  have long : ¬ (frame.encode ++ rest).length < 6 := by
    simp only [ZstdFrame.encode, zstdMagic, List.length_append, List.length_cons, List.length_nil]
    omega
  by_cases single : ZstdFrame.singleSegment frame.descriptor = true
  · have flag : ¬ frame.descriptor &&& 0x20 = 0 := of_decide_eq_true single
    have rest_ : (frame.encode ++ rest).drop (5 + ZstdFrame.dictionaryIdLen frame.descriptor) =
        frame.contentSize ++ (frame.blocks ++ rest) := by
      rw [← frame.dictionaryId_length, ← List.drop_drop]
      show List.drop _ ((if ZstdFrame.singleSegment frame.descriptor then [] else _) ++ _ ++ rest) = _
      rw [if_pos single, List.nil_append, List.append_assoc, List.drop_left' rfl,
        List.append_assoc]
    have field : ((frame.encode ++ rest).drop
        (5 + Indexed.dictIdLen frame.descriptor)).take (Indexed.sizeFieldLen frame.descriptor) =
        frame.contentSize := by
      rw [dictIdLen_eq, sizeFieldLen_eq single, rest_, ← sized, List.take_left' rfl]
    rw [zstdFrameWindow_single long magic four flag field (by rw [sized, sizeFieldLen_eq single]),
      ZstdFrame.windowSize, if_pos single, ZstdFrame.contentSizeValue]
    split
    · rfl
    · rfl
  · have flag : frame.descriptor &&& 0x20 = 0 := by
      by_contra set
      exact single (decide_eq_true set)
    have five : (frame.encode ++ rest).getD 5 0 = frame.windowDescriptor := by
      show ((if ZstdFrame.singleSegment frame.descriptor then [] else _) ++ _ ++ rest).getD 0 0 = _
      rw [if_neg single]
      rfl
    unfold zstdFrameWindow
    rw [if_neg (not_or.mpr ⟨long, not_not.mpr magic⟩), four]
    dsimp only
    rw [if_pos flag, five, ZstdFrame.windowSize, if_neg single, Nat.one_shiftLeft]

theorem zstdFrameWindow_skippable (kind : Fin 16) (data rest : Bytes) :
    zstdFrameWindow ((PayloadFrame.skippable kind data).encode ++ rest) = none := by
  have other : ((PayloadFrame.skippable kind data).encode ++ rest).take 4 ≠ zstdMagic := by
    intro same
    have second := congrArg (fun bytes : Bytes => bytes.getD 1 0) same
    exact absurd (show (0x2A : UInt8) = 0xB5 from second) (by decide)
  unfold zstdFrameWindow
  rw [if_pos (Or.inr other)]

theorem zstdFrameWindow_frame (frame : PayloadFrame) (rest : Bytes) :
    zstdFrameWindow (frame.encode ++ rest) = frame.window := by
  cases frame with
  | zstd frame => exact zstdFrameWindow_encode frame rest
  | skippable kind data => exact zstdFrameWindow_skippable kind data rest

/-! ## All windows -/

theorem PayloadFrame.encode_ne_nil (frame : PayloadFrame) : frame.encode ≠ [] := by
  cases frame <;> exact List.cons_ne_nil _ _

/-- The library finds the end of every frame of the payload. -/
def FindsFrames (C : Codecs) (frames : List PayloadFrame) : Prop :=
  ∀ first after, (first :: after) <:+ frames →
    C.zstdFrameCompressedSize (encodeFrames (first :: after)) = .ok first.encode.length

variable {C : Codecs}

/-- By induction on the frames: a pass of the loop goes from one to the next. -/
theorem checkZstdWindows_frames {frames : List PayloadFrame} (finds : FindsFrames C frames)
    (windowLog : Nat) :
    checkZstdWindows C (encodeFrames frames) windowLog = .ok () ↔
      ∀ frame ∈ frames, ∀ window, frame.window = some window → window ≤ 2 ^ windowLog := by
  induction frames with
  | nil =>
      have empty : checkZstdWindows C (encodeFrames []) windowLog = .ok () := by
        rw [checkZstdWindows]
        exact if_pos rfl
      exact iff_of_true empty fun _ none_ => absurd none_ List.not_mem_nil
  | cons first after ih =>
      have later := ih fun first' after' suffix =>
        finds first' after' (suffix.trans (List.suffix_cons first after))
      have found := finds first after (List.suffix_refl _)
      have length := List.length_pos_iff.mpr first.encode_ne_nil
      have whole : encodeFrames (first :: after) = first.encode ++ encodeFrames after := rfl
      have more : ¬ (encodeFrames (first :: after)).isEmpty = true := by
        rw [whole, List.isEmpty_iff, List.append_eq_nil_iff]
        exact fun empty => first.encode_ne_nil empty.1
      have inside : 0 < first.encode.length ∧
          first.encode.length ≤ (encodeFrames (first :: after)).length := by
        rw [whole, List.length_append]
        omega
      rw [checkZstdWindows, if_neg more, found, List.forall_mem_cons, ← later]
      rw [whole, zstdFrameWindow_frame]
      dsimp only
      rw [Nat.one_shiftLeft, ← whole, if_pos inside, whole, List.drop_left' rfl]
      cases own : first.window with
      | none =>
          rw [if_neg (by simp)]
          constructor
          · exact fun rest => ⟨fun window impossible => (by cases impossible), rest⟩
          · exact fun both => both.2
      | some window =>
          by_cases large : 2 ^ windowLog < window
          · rw [if_pos (by simpa using large)]
            apply iff_of_false
            · intro impossible
              cases impossible
            · exact fun both => absurd (both.1 window rfl) (Nat.not_le_of_lt large)
          · rw [if_neg (by simpa using Nat.le_of_not_lt large)]
            constructor
            · rintro rest
              refine ⟨?_, rest⟩
              rintro window' same
              cases same
              exact Nat.le_of_not_lt large
            · exact fun both => both.2

/-- The least exponent from 17 to 31 whose power reaches the limit, or 31 if none does. -/
structure IsWindowLog (limit e : Nat) : Prop where
  low : 17 ≤ e
  high : e ≤ 31
  reaches : limit ≤ 2 ^ e ∨ e = 31
  least : ∀ smaller, 17 ≤ smaller → smaller < e → 2 ^ smaller < limit

theorem zstdWindowLogMax_isWindowLog (limit : Nat) : IsWindowLog limit (zstdWindowLogMax limit) := by
  unfold zstdWindowLogMax zstdWindowLogFloor zstdWindowLogCeiling
  by_cases tiny : limit ≤ 1
  · rw [if_pos tiny]
    dsimp only
    refine { low := by omega, high := by omega, reaches := Or.inl (tiny.trans (by decide)),
             least := fun smaller low below => ?_ }
    omega
  · have positive : limit - 1 ≠ 0 := by omega
    have bits : ∀ e, limit ≤ 2 ^ e ↔ Nat.log2 (limit - 1) + 1 ≤ e := by
      intro e
      have compare := Nat.log2_lt (n := limit - 1) (k := e) positive
      omega
    rw [if_neg tiny]
    generalize Nat.log2 (limit - 1) + 1 = count at bits ⊢
    dsimp only
    refine { low := by omega, high := by omega, reaches := ?_, least := ?_ }
    · rw [bits]
      omega
    · intro smaller low below
      by_contra reaches
      have enough := (bits smaller).mp (Nat.le_of_not_lt reaches)
      omega

/-- The check of the windows of any payload of frames, under any limit; it ends without a
panic on every byte string. -/
theorem zstdWindows_exact (C : Codecs) (limit : Nat) (word : limit < 2 ^ 64) :
    IsWindowLog limit (zstdWindowLogMax limit) ∧
      Indexed.zstdWindowLogMax limit = .ok (zstdWindowLogMax limit) ∧
      (∀ frames, FindsFrames C frames →
        (Indexed.checkZstdWindows C (encodeFrames frames) (zstdWindowLogMax limit) = .ok () ↔
          ∀ frame ∈ frames, ∀ window, frame.window = some window →
            window ≤ 2 ^ zstdWindowLogMax limit)) ∧
      ∀ data, Indexed.checkZstdWindows C data (zstdWindowLogMax limit) ≠ .error .panic := by
  have model := fun data =>
    Indexed.checkZstdWindows_eq C data (Indexed.zstdWindowLogMax_lt limit)
  refine ⟨zstdWindowLogMax_isWindowLog limit, Indexed.zstdWindowLogMax_eq word, ?_, ?_⟩
  · intro frames finds
    rw [← checkZstdWindows_frames finds, model]
    cases checkZstdWindows C (encodeFrames frames) (zstdWindowLogMax limit) with
    | ok _ => exact iff_of_true rfl rfl
    | error failure =>
        exact iff_of_false (fun impossible => by cases impossible)
          (fun impossible => by cases impossible)
  · intro data
    rw [model]
    cases checkZstdWindows C data (zstdWindowLogMax limit) with
    | ok _ => exact fun impossible => by cases impossible
    | error failure => exact fun impossible => by cases impossible

/-! ## Three frames -/

def helloFrame : ZstdFrame where
  descriptor := 0x20
  windowDescriptor := 0
  dictionaryId := []
  contentSize := [5]
  blocks := [0x29, 0, 0, 104, 101, 108, 108, 111]
  dictionaryId_length := rfl
  contentSize_length := rfl
  blocks_length := by decide

/-- The same block in a window of 2^18 bytes. -/
def wideFrame : ZstdFrame where
  descriptor := 0
  windowDescriptor := 0x40
  dictionaryId := []
  contentSize := []
  blocks := [0x29, 0, 0, 104, 101, 108, 108, 111]
  dictionaryId_length := rfl
  contentSize_length := rfl
  blocks_length := by decide

def skippedFrame : PayloadFrame := .skippable 0 [7]

def frameCodecs : Codecs :=
  { framingCodecs with
    zstdFrameCompressedSize := fun data =>
      if data.take 4 = skippedFrame.encode.take 4 then .ok 9 else .ok 14 }

theorem zstdWindows_exact_three :
    Indexed.checkZstdWindows frameCodecs (encodeFrames [.zstd helloFrame, skippedFrame])
        (zstdWindowLogMax 5) = .ok () ∧
      Indexed.checkZstdWindows frameCodecs (encodeFrames [skippedFrame, .zstd wideFrame])
        (zstdWindowLogMax 5) ≠ .ok () := by
  obtain ⟨-, -, exact_, -⟩ := zstdWindows_exact frameCodecs 5 (by decide)
  have small : FindsFrames frameCodecs [.zstd helloFrame, skippedFrame] := by
    intro first after suffix
    rcases List.suffix_cons_iff.mp suffix with whole | suffix
    · cases whole
      decide +kernel
    rcases List.suffix_cons_iff.mp suffix with whole | suffix
    · cases whole
      decide +kernel
    · cases List.suffix_nil.mp suffix
  have wide : FindsFrames frameCodecs [skippedFrame, .zstd wideFrame] := by
    intro first after suffix
    rcases List.suffix_cons_iff.mp suffix with whole | suffix
    · cases whole
      decide +kernel
    rcases List.suffix_cons_iff.mp suffix with whole | suffix
    · cases whole
      decide +kernel
    · cases List.suffix_nil.mp suffix
  constructor
  · apply (exact_ _ small).mpr
    intro frame member window own
    rcases List.mem_cons.mp member with rfl | member
    · cases own
      decide +kernel
    · rw [List.mem_singleton.mp member] at own
      cases own
  · intro passed
    have within := (exact_ _ wide).mp passed (.zstd wideFrame) (by simp) _ rfl
    exact absurd within (by decide +kernel)

end Syntra

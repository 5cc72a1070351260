import Syntra.Codec

/-!
# Libraries that only frame

An instance of the compression libraries: every encoder copies its input after
whatever header tells the decoder its length.
-/

set_option autoImplicit false

namespace Syntra

open Fallible

def readAll (data : Bytes) : List Piece := [.bytes data]

def framingCodecs : Codecs where
  lz4CompressPrependSize data := LittleEndian.toBytes 4 data.length ++ data
  lz4UncompressedSize data := .ok ((data.drop 4).length, data.drop 4)
  lz4Decompress body size :=
    if fits : body.length ≤ size then .ok ⟨body, fits⟩ else .error "output too small"
  zstdEncode _ _ _ data := .ok (0 :: data)
  zstdDecoder _ _ data := .ok (readAll data.tail)
  zstdFrameContentSize data := .ok (some data.tail.length)
  zstdFrameCompressedSize _ := .error ()
  brotliCompress _ _ _ data := .ok data
  brotliDecompress data := ([data], .ok ())
  xzEncode _ data := .ok data
  xzDecoder _ data := .ok (readAll data)
  bzip2Encode _ data := .ok data
  bzip2Decoder data := readAll data
  deflateEncode _ data := .ok data
  deflateDecoder data := readAll data

theorem readCapped_readAll (limit capacity : Nat) (data : Bytes) :
    (readCapped limit (readAll data) (OutBuf.withCapacity capacity) >>= fun out =>
      (.ok out.bytes : Except IoError Bytes)) =
      if data.length ≤ limit then .ok data else .error (tooLarge limit) := by
  cases data with
  | nil => rfl
  | cons b rest =>
      rw [List.length_cons]
      by_cases within : rest.length + 1 ≤ limit
      · have inside : ¬ limit < rest.length + 1 := by omega
        simp [readAll, readCapped, OutBuf.withCapacity, inside, within, OutBuf.extend,
          growWithin_bytes]
      · have outside : limit < rest.length + 1 := by omega
        simp [readAll, readCapped, OutBuf.withCapacity, outside, within]

theorem sinkWrites_single (limit capacity : Nat) (data : Bytes) :
    (data.length ≤ limit ∧
      ∃ out, sinkWrites limit [data] (OutBuf.withCapacity capacity) = some out ∧
        data = out.bytes) ∨
      (limit < data.length ∧
        sinkWrites limit [data] (OutBuf.withCapacity capacity) = none) := by
  by_cases within : data.length ≤ limit
  · refine Or.inl ⟨within, _, if_neg (by simp [OutBuf.withCapacity]; omega), ?_⟩
    simp [OutBuf.extend, growWithin_bytes, OutBuf.withCapacity]
  · exact Or.inr ⟨by omega, if_pos (by simp [OutBuf.withCapacity]; omega)⟩

theorem checkZstdWindows_framed (data : Bytes) (windowLog : Nat) :
    checkZstdWindows framingCodecs (0 :: data) windowLog = .ok () := by
  have notFrame : zstdFrameWindow (0 :: data) = none := by
    rw [zstdFrameWindow, if_pos]
    right
    simp [zstdMagic]
  rw [checkZstdWindows]
  simp [notFrame, framingCodecs]

theorem decodeLimited_framed (data payload : Bytes) (codec : Codec) (level : Int)
    (dict : Option Bytes) (expectedLen : Option Nat) (maxOut : Nat)
    (encoded : encode framingCodecs data codec level dict = .ok payload) :
    decodeLimited framingCodecs payload codec dict expectedLen maxOut =
      if data.length ≤ min maxOut maxDecompressed then .ok data
      else .error (tooLarge (min maxOut maxDecompressed)) := by
  have small : min maxOut maxDecompressed < 2 ^ 37 := by
    simp only [maxDecompressed]
    omega
  cases codec with
  | unspecified => simp [encode] at encoded
  | stored =>
      obtain rfl := Except.ok.inj encoded
      by_cases within : data.length ≤ min maxOut maxDecompressed
      · rw [decodeLimited, rejectIf_of_not (by omega), ok_bind, if_pos within]
      · rw [decodeLimited, rejectIf_of (by omega), error_bind, if_neg within]
  | lz4 =>
      obtain rfl := Except.ok.inj encoded
      have body : (framingCodecs.lz4CompressPrependSize data).drop 4 = data :=
        List.drop_left' (LittleEndian.length_toBytes 4 _)
      have size : framingCodecs.lz4UncompressedSize (framingCodecs.lz4CompressPrependSize data) =
          .ok (data.length, data) := by
        rw [← body]
        rfl
      have whole : framingCodecs.lz4Decompress data data.length = .ok ⟨data, le_refl _⟩ :=
        dif_pos (le_refl _)
      simp only [decodeLimited, size, Except.mapError, ok_bind, whole]
      by_cases within : data.length ≤ min maxOut maxDecompressed
      · have plausibleLen : ¬ saturatingAdd (saturatingMul data.length lz4MaxExpansion)
            capacityFloor < data.length := by
          simp only [saturatingAdd, saturatingMul, lz4MaxExpansion, capacityFloor]
          omega
        rw [rejectIf_of_not (by omega), ok_bind, rejectIf_of_not plausibleLen, ok_bind,
          if_pos within]
      · rw [rejectIf_of (by omega), error_bind, if_neg within]
  | zstd =>
      obtain rfl := Except.ok.inj encoded
      have declared : checkZstdContentSize framingCodecs (0 :: data)
          (min maxOut maxDecompressed) = rejectIf (min maxOut maxDecompressed < data.length)
            (tooLarge (min maxOut maxDecompressed)) := rfl
      have pieces : ∀ dict windowLog, framingCodecs.zstdDecoder dict windowLog (0 :: data) =
          .ok (readAll data) := fun _ _ => rfl
      have read := readCapped_readAll (min maxOut maxDecompressed)
        (initialCapacity expectedLen (min maxOut maxDecompressed) (0 :: data).length) data
      simp only [decodeLimited, declared, checkZstdWindows_framed, pieces, ok_bind, read]
      by_cases within : data.length ≤ min maxOut maxDecompressed
      · rw [rejectIf_of_not (by omega), ok_bind]
      · rw [rejectIf_of (by omega), error_bind, if_neg within]
  | brotli =>
      obtain rfl := Except.ok.inj encoded
      rw [decodeLimited]
      dsimp only [framingCodecs]
      rcases sinkWrites_single (min maxOut maxDecompressed) (initialCapacity expectedLen
        (min maxOut maxDecompressed) data.length) data with ⟨within, out, written, rfl⟩ | ⟨beyond, written⟩
      · rw [written, if_pos within]
        rfl
      · rw [written, if_neg (by omega)]
  | xz =>
      obtain rfl := Except.ok.inj encoded
      exact readCapped_readAll _ _ data
  | bzip2 =>
      obtain rfl := Except.ok.inj encoded
      exact readCapped_readAll _ _ data
  | deflate =>
      obtain rfl := Except.ok.inj encoded
      exact readCapped_readAll _ _ data

theorem framingCodecs_roundTrip : framingCodecs.RoundTrip where
  decodes codec level dict data payload expectedLen maxOut _ encoded fits := by
    rw [decodeLimited_framed data payload codec level dict expectedLen maxOut encoded,
      if_pos fits]
  faithful codec level dict data payload out expectedLen maxOut _ encoded decoded := by
    rw [decodeLimited_framed data payload codec level dict expectedLen maxOut encoded] at decoded
    split at decoded
    · exact (Except.ok.inj decoded).symm
    · simp at decoded

end Syntra

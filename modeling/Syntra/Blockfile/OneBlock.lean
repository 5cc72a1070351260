import Syntra.Blockfile.Footer
import Syntra.FramingPlatform

/-!
# A platform for a file of one block

BLAKE3 and the decoder of footers are tabulated for the file whose one block is
the byte 1.
-/

set_option autoImplicit false

namespace Syntra.Blockfile

/-- BLAKE3 of the single byte 2. -/
def twoHash : Digest :=
  ⟨[0xab, 0x13, 0xbe, 0xdf, 0x42, 0xe8, 0x4b, 0xae, 0x0f, 0x7c, 0x62, 0xc7, 0xdd, 0x6a, 0x8a,
    0xda, 0x57, 0x1e, 0x88, 0x29, 0xbe, 0xd6, 0xea, 0x55, 0x82, 0x17, 0xf0, 0x36, 0x1b, 0x5e,
    0x25, 0xd0], rfl⟩

/-- BLAKE3 of the footer below. -/
def footerHash : Digest :=
  ⟨[0x7b, 0xca, 0xc3, 0xb3, 0xe0, 0xa4, 0xbb, 0x41, 0xc3, 0xea, 0xed, 0x7f, 0xed, 0x69, 0xd0,
    0xbf, 0x43, 0x94, 0x68, 0x2e, 0x69, 0xf7, 0x54, 0x91, 0x0b, 0x12, 0xcc, 0xc7, 0x75, 0x40,
    0xec, 0x64], rfl⟩

def oneInfo : Metadata :=
  { originalName := "um", originalNames := ["um"], originalMime := ""
    contentClass := "binary", planReason := "", verified := true, createdAt := 7, updatedAt := 7
    fileMetrics := none }

def oneFooter : FooterV4 :=
  { headerFlags := 0, blockSizeLog2 := 12, originalSize := 1, fileHash := oneHash.val
    plans := [{ transforms := [], codec := 1, codecLevel := 0, dictionary := none }]
    blockCount := 1, storedLens := [1, 0, 0, 0], originalLens := [1, 0, 0, 0]
    planIndices := [0, 0], payloadHashes := oneHash.val.take 16
    originalName := "um", originalNames := ["um"], originalMime := ""
    contentClass := "binary", planReason := "", verified := true, createdAt := 7, updatedAt := 7
    fileMetrics := none }

def noMetrics : FileMetrics → Bytes := fun _ => []

def oneFooterBytes : Bytes := encodeFooter noMetrics oneFooter

def blockPlatform : Platform :=
  { framingPlatform with
    blake3 := fun data =>
      if data.isEmpty then emptyHash
      else if data = [1] then oneHash
      else if data = oneFooterBytes then footerHash
      else twoHash
    decodeFooter := fun bytes =>
      if bytes = oneFooterBytes then .ok oneFooter else .error "invalid wire type" }

theorem blockPlatform_decodeFooter :
    blockPlatform.decodeFooter oneFooterBytes = .ok oneFooter := if_pos rfl

theorem decodeFooter_blockPlatform {bytes : Bytes} {footer : FooterV4}
    (decoded : blockPlatform.decodeFooter bytes = .ok footer) :
    bytes = oneFooterBytes ∧ footer = oneFooter := by
  simp only [blockPlatform] at decoded
  split at decoded
  · rename_i same
    cases decoded
    exact ⟨same, rfl⟩
  · cases decoded

end Syntra.Blockfile

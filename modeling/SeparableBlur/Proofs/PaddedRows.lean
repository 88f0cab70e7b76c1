-- SUMMARY: What is read back out of padded rows: every byte of a row once, and none of the padding.
import Mathlib.Order.Bounds.Basic
import Mathlib.Tactic.NormNum
import SeparableBlur.Gpu.Renderer

/-!
# Padded rows

The rows of a buffer start `padded` bytes after each other, and `row` bytes of each
are pixels. `Unpads` says of some pixels that they are what the rows of a buffer
hold, without what stands between them. There is only one way to be that, and the
loop over the rows finds it.

So an image that was laid out in padded rows is read back as it was, whatever the
padding holds.
-/

namespace SeparableBlur.Gpu

namespace Readback

/-! ## Rows -/

/-- The pixels are those in the rows of the buffer, one row after the other. -/
structure Unpads (row padded height : Nat) (buffer pixels : ByteArray) : Prop where
  size : pixels.size = height * row
  bytes : ∀ y < height, ∀ i < row, pixels[y * row + i]? = buffer[y * padded + i]?

variable {row padded height : Nat} {buffer pixels pixels' : ByteArray}

theorem getElem?_eq_data (bytes : ByteArray) (k : Nat) : bytes[k]? = bytes.data[k]? := rfl

theorem offset_lt {y i : Nat} (hy : y < height) (hi : i < row) : y * row + i < height * row :=
  calc y * row + i < y * row + row := Nat.add_lt_add_left hi _
    _ = (y + 1) * row := (Nat.succ_mul y row).symm
    _ ≤ height * row := Nat.mul_le_mul_right row hy

theorem Unpads.unique (h : Unpads row padded height buffer pixels)
    (h' : Unpads row padded height buffer pixels') : pixels = pixels' := by
  refine ByteArray.ext (Array.ext_getElem? fun k => ?_)
  rcases Nat.lt_or_ge k (height * row) with hk | hk
  · -- Every byte of an image is somewhere in one of its rows.
    have hrow : 0 < row := Nat.pos_of_mul_pos_left (Nat.zero_lt_of_lt hk)
    have hy : k / row < height := Nat.div_lt_of_lt_mul (Nat.mul_comm height row ▸ hk)
    have hi : k % row < row := Nat.mod_lt k hrow
    have hbyte := (h.bytes _ hy _ hi).trans (h'.bytes _ hy _ hi).symm
    rwa [Nat.div_add_mod'] at hbyte
  · rw [Array.getElem?_eq_none (h.size.le.trans hk), Array.getElem?_eq_none (h'.size.le.trans hk)]

/-! ## The loop over the rows -/

/-- The pixels of the first `n` rows. -/
def firstRows (row padded : Nat) (buffer : ByteArray) (n : Nat) : ByteArray :=
  (List.range n).foldl
    (fun pixels y => pixels ++ buffer.extract (y * padded) (y * padded + row)) ByteArray.empty

theorem unpadRows_eq_firstRows :
    unpadRows row padded buffer = firstRows row padded buffer (buffer.size / padded) := rfl

theorem firstRows_succ (n : Nat) :
    firstRows row padded buffer (n + 1) =
      firstRows row padded buffer n ++ buffer.extract (n * padded) (n * padded + row) := by
  rw [firstRows, List.range_succ, List.foldl_append]
  rfl

/-- One more row, which the buffer has in full. -/
theorem Unpads.succ {n : Nat} (h : Unpads row padded n buffer pixels)
    (hrow : n * padded + row ≤ buffer.size) :
    Unpads row padded (n + 1) buffer
      (pixels ++ buffer.extract (n * padded) (n * padded + row)) where
  size := by
    rw [ByteArray.size_append, ByteArray.size_extract, h.size, Nat.min_eq_left hrow,
      Nat.add_sub_cancel_left, Nat.succ_mul]
  bytes y hy i hi := by
    have hsize : pixels.data.size = n * row := h.size
    simp only [getElem?_eq_data, ByteArray.data_append, ByteArray.data_extract]
    rcases Nat.lt_succ_iff_lt_or_eq.1 hy with hy | rfl
    · rw [Array.getElem?_append_left (hsize ▸ offset_lt hy hi)]
      exact h.bytes y hy i hi
    · have hbuffer : y * padded + row ≤ buffer.data.size := hrow
      have hlast : i < min (y * padded + row) buffer.data.size - y * padded := by omega
      rw [Array.getElem?_append_right (hsize ▸ Nat.le_add_right _ _), hsize,
        Nat.add_sub_cancel_left, Array.getElem?_extract, if_pos hlast]

theorem firstRows_unpads (hrow : row ≤ padded) {n : Nat} (hsize : n * padded ≤ buffer.size) :
    Unpads row padded n buffer (firstRows row padded buffer n) := by
  induction n with
  | zero => exact ⟨(Nat.zero_mul row).symm, nofun⟩
  | succ n ih =>
    rw [Nat.succ_mul] at hsize
    rw [firstRows_succ]
    exact (ih (by omega)).succ (by omega)

/-- The loop goes over all rows of the buffer and nothing else. -/
theorem unpadRows_unpads (hrow : row ≤ padded) (hpadded : 0 < padded)
    (hsize : buffer.size = height * padded) :
    Unpads row padded height buffer (unpadRows row padded buffer) := by
  have hrows : buffer.size / padded = height := by rw [hsize, Nat.mul_div_cancel _ hpadded]
  rw [unpadRows_eq_firstRows, hrows]
  exact firstRows_unpads hrow hsize.ge

/-! ## Laying rows out -/

/-- An image in padded rows, with `filler` between them. -/
def padRows (row padded height : Nat) (filler : Nat → UInt8) (image : ByteArray) : ByteArray :=
  ⟨.ofFn fun k : Fin (height * padded) =>
    if k % padded < row then image.data.getD (k / padded * row + k % padded) 0 else filler k⟩

theorem size_padRows (row padded height : Nat) (filler : Nat → UInt8) (image : ByteArray) :
    (padRows row padded height filler image).size = height * padded :=
  Array.size_ofFn

theorem padRows_unpads (hrow : row ≤ padded) (filler : Nat → UInt8) {image : ByteArray}
    (hsize : image.size = height * row) :
    Unpads row padded height (padRows row padded height filler image) image := by
  refine ⟨hsize, fun y hy i hi => ?_⟩
  have hi' : i < padded := hi.trans_le hrow
  have hmod : (y * padded + i) % padded = i := Nat.mul_add_mod_of_lt hi'
  have hdiv : (y * padded + i) / padded = y := by
    rw [Nat.mul_comm, Nat.mul_add_div (Nat.zero_lt_of_lt hi'), Nat.div_eq_of_lt hi', Nat.add_zero]
  have hbyte : y * row + i < image.data.size := (offset_lt hy hi).trans_eq hsize.symm
  simp only [getElem?_eq_data, padRows, Array.getElem?_ofFn, dif_pos (offset_lt hy hi'), hmod, hdiv,
    if_pos hi]
  rw [Array.getElem?_eq_getElem hbyte, Array.getD_eq_getD_getElem?,
    Array.getElem?_eq_getElem hbyte, Option.getD_some]

/-! ## Lengths -/

variable {size : Size}

theorem rowBytes_toNat (h : 4 * size.width.toNat + 255 < 2 ^ 32) :
    (rowBytes size).toNat = 4 * size.width.toNat := by
  have hfour : (4 : UInt32).toNat = 4 := rfl
  rw [rowBytes, UInt32.toNat_mul, hfour, Nat.mod_eq_of_lt (by omega), Nat.mul_comm]

/-- The row is filled up to the alignment. -/
theorem paddedRowBytes_toNat (h : 4 * size.width.toNat + 255 < 2 ^ 32) :
    (paddedRowBytes size).toNat = (4 * size.width.toNat + 255) / 256 * 256 := by
  have halign : rowAlignment.toNat = 256 := rfl
  have hrow := rowBytes_toNat h
  have hrest : (rowBytes size % rowAlignment).toNat = 4 * size.width.toNat % 256 := by
    rw [UInt32.toNat_mod, hrow, halign]
  unfold paddedRowBytes
  dsimp only
  split
  case isTrue hzero =>
    rw [hzero, UInt32.toNat_zero] at hrest
    omega
  case isFalse hzero =>
    have hnonzero : 4 * size.width.toNat % 256 ≠ 0 := by
      rw [← hrest]
      exact fun h => hzero (UInt32.toNat_inj.1 h)
    have hle : rowBytes size % rowAlignment ≤ rowAlignment := by
      rw [UInt32.le_iff_toNat_le, hrest, halign]
      omega
    rw [UInt32.toNat_add, UInt32.toNat_sub_of_le _ _ hle, hrow, hrest, halign]
    omega

/-- Rows are as close to each other as the alignment allows. -/
theorem paddedRowBytes_isLeast (h : 4 * size.width.toNat + 255 < 2 ^ 32) :
    IsLeast {n | 256 ∣ n ∧ 4 * size.width.toNat ≤ n} (paddedRowBytes size).toNat := by
  rw [paddedRowBytes_toNat h]
  refine ⟨⟨Nat.dvd_mul_left _ _, by omega⟩, ?_⟩
  rintro n ⟨⟨k, rfl⟩, hn⟩
  omega

/-- The buffer has room for its rows and nothing else. -/
theorem bufferBytes_toNat (size : Size) :
    (bufferBytes size).toNat = size.height.toNat * (paddedRowBytes size).toNat := by
  have hwidth := (paddedRowBytes size).toNat_lt
  have hheight := size.height.toNat_lt
  have hfits : (paddedRowBytes size).toNat * size.height.toNat < 2 ^ 64 :=
    (Nat.mul_lt_mul'' hwidth hheight).trans_eq (Nat.pow_add 2 32 32).symm
  rw [bufferBytes, UInt64.toNat_mul, UInt32.toNat_toUInt64, UInt32.toNat_toUInt64,
    Nat.mod_eq_of_lt hfits, Nat.mul_comm]

theorem pixels_unpads (hwidth : 0 < size.width.toNat) (h : 4 * size.width.toNat + 255 < 2 ^ 32)
    (hsize : buffer.size = size.height.toNat * (paddedRowBytes size).toNat) :
    Unpads (4 * size.width.toNat) (paddedRowBytes size).toNat size.height.toNat buffer
      (Readback.pixels size buffer) := by
  have hle := (paddedRowBytes_isLeast h).1.2
  unfold Readback.pixels
  rw [rowBytes_toNat h]
  exact unpadRows_unpads hle (by omega) hsize

end Readback

open Readback

namespace Host

/-- The rows of the buffer start at the least multiple of the alignment that leaves room for a row,
    and the buffer ends after the padding of the last. What is read back are the bytes of all rows,
    one after the other, so an image is read back as it was laid out. The texture is one that the
    device can have, and the distance between the longest rows that it can have fits into a 32-bit
    word. -/
theorem readPixels_unpads {texture : Texture} {maxDimension : UInt32}
    (hlimit : maxDimension.toNat ≤ 2 ^ 30 - 64) (hformat : texture.format.isRgba8 = true)
    (hwidth : 0 < texture.size.width) (hwithin : texture.size.width ≤ maxDimension) :
    let w := texture.size.width.toNat
    let h := texture.size.height.toNat
    let padded := (paddedRowBytes texture.size).toNat
    IsLeast {n | 256 ∣ n ∧ 4 * w ≤ n} padded ∧
    (bufferBytes texture.size).toNat = padded * h ∧
    (∀ copied : Texture → ByteArray, (copied texture).size = padded * h →
      ∃ pixels, readPixels texture copied = .ok pixels ∧ pixels.size = 4 * w * h ∧
        ∀ y < h, ∀ i < 4 * w, pixels[y * (4 * w) + i]? = (copied texture)[y * padded + i]?) ∧
    ∀ (image : ByteArray) (filler : Nat → UInt8), image.size = 4 * w * h →
      readPixels texture (fun _ => padRows (4 * w) padded h filler image) = .ok image := by
  intro w h padded
  have hfits : 4 * w + 255 < 2 ^ 32 := by
    have hle : w ≤ maxDimension.toNat := UInt32.le_iff_toNat_le.1 hwithin
    omega
  have hleast := paddedRowBytes_isLeast hfits
  have hpositive : 0 < w := UInt32.lt_iff_toNat_lt.1 hwidth
  have hread (copied : Texture → ByteArray) :
      readPixels texture copied = .ok (Readback.pixels texture.size (copied texture)) :=
    if_pos hformat
  refine ⟨hleast, ?_, fun copied hsize => ⟨_, hread copied, ?_⟩, fun image filler himage => ?_⟩
  · rw [bufferBytes_toNat, Nat.mul_comm]
  · have hpixels := pixels_unpads hpositive hfits (hsize.trans (Nat.mul_comm padded h))
    exact ⟨hpixels.size.trans (Nat.mul_comm _ _), hpixels.bytes⟩
  · have hlaid := padRows_unpads hleast.1.2 filler (himage.trans (Nat.mul_comm _ _))
    have hpixels := pixels_unpads hpositive hfits (size_padRows (4 * w) padded h filler image)
    rw [hread]
    exact congrArg _ (hpixels.unique hlaid)

/-- A texture whose rows are one pixel longer than the alignment. -/
def longRows : Texture := ⟨1, ⟨65, 2⟩, .rgba8Unorm, .upload⟩

theorem readPixels_unpads_of_longRows :
    (8192 : UInt32).toNat ≤ 2 ^ 30 - 64 ∧ longRows.format.isRgba8 = true ∧
      0 < longRows.size.width ∧ longRows.size.width ≤ 8192 ∧
      (paddedRowBytes longRows.size).toNat = 512 ∧
      ∀ (image : ByteArray) (filler : Nat → UInt8), image.size = 520 →
        readPixels longRows (fun _ => padRows 260 512 2 filler image) = .ok image :=
  have hlimit : (8192 : UInt32).toNat ≤ 2 ^ 30 - 64 := by decide
  have hwithin : longRows.size.width ≤ 8192 := by decide
  ⟨hlimit, rfl, by decide, hwithin, rfl,
    (readPixels_unpads hlimit rfl (by decide) hwithin).2.2.2⟩

end Host

end SeparableBlur.Gpu

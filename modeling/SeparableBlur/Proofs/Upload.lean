-- SUMMARY: Uploads: data of a wrong length is refused, unless the length of the image is too large for a word.
import Mathlib.Tactic.NormNum
import Mathlib.Tactic.Ring
import SeparableBlur.Gpu.Renderer
import SeparableBlur.Proofs.Calls

/-!
# Uploads

An upload compares the length of its data with the length of an image of the given
size, which is computed in a 64-bit word. Two dimensions of 32 bits and four bytes a
pixel may need two bits more. For an image that large the word holds what is left of
the length after it has wrapped around, and data of that length is let through.
-/

namespace SeparableBlur.Gpu

open Host (upload uploadBytes importTexture)

/-- The number of bytes of an image with four bytes a pixel. -/
def imageBytes (size : Size) : Nat := 4 * size.width.toNat * size.height.toNat

theorem uploadBytes_toNat (size : Size) : (uploadBytes size).toNat = imageBytes size % 2 ^ 64 := by
  have hfour : (4 : UInt64).toNat = 4 := rfl
  simp only [uploadBytes, imageBytes, UInt64.toNat_mul, UInt32.toNat_toUInt64, hfour,
    Nat.mod_mul_mod]
  congr 1
  ring

/-- The length is exact where it fits into the word. -/
theorem uploadBytes_toNat_eq_iff (size : Size) :
    (uploadBytes size).toNat = imageBytes size ↔ imageBytes size < 2 ^ 64 := by
  rw [uploadBytes_toNat]
  exact Nat.mod_eq_iff_lt (by norm_num)

/-- The upload is refused for the length of its data, and nothing is done. -/
def RefusesLength (size : Size) (pixels : ByteArray) : Prop :=
  ∀ s, (upload size pixels).runFrom s =
    (.error (.subpassFailed "Upload" (.wrongLength (uploadBytes size) size pixels.size)), s)

/-- The upload makes a texture, whatever came before. -/
def Uploads (size : Size) (pixels : ByteArray) : Prop :=
  ∀ s, ∃ texture, ((upload size pixels).runFrom s).1 = .ok texture

theorem RefusesLength.not_uploads {size : Size} {pixels : ByteArray}
    (h : RefusesLength size pixels) : ¬Uploads size pixels := by
  intro huploads
  let host : Host := (Host.create {} {} {} 8192).1
  obtain ⟨texture, hrun⟩ := huploads ⟨host, []⟩
  rw [h ⟨host, []⟩] at hrun
  cases hrun

section

variable {size : Size} (hsize : size.isEmpty = false) {pixels : ByteArray}
include hsize

theorem refusesLength (h : pixels.size ≠ imageBytes size % 2 ^ 64) : RefusesLength size pixels := by
  intro s
  unfold upload
  rw [if_neg (by simp [hsize]), if_pos (by rwa [uploadBytes_toNat])]
  rfl

theorem uploads (h : pixels.size = imageBytes size % 2 ^ 64) : Uploads size pixels := by
  intro s
  unfold upload
  rw [if_neg (by simp [hsize]), if_neg (by simp [uploadBytes_toNat, h])]
  exact ⟨_, rfl⟩

end

/-- The length of an image is computed exactly where it fits into the word. All data of
    another length, up to the `longest` that there is, is refused before a texture is made
    in that case, and besides only where what the word holds is longer than all data. -/
theorem upload_refuses_iff {size : Size} (hsize : size.isEmpty = false) (longest : Nat) :
    ((uploadBytes size).toNat = imageBytes size ↔ imageBytes size < 2 ^ 64) ∧
      ((∀ pixels : ByteArray, pixels.size ≤ longest → pixels.size ≠ imageBytes size →
          RefusesLength size pixels) ↔
        imageBytes size < 2 ^ 64 ∨ longest < imageBytes size % 2 ^ 64) := by
  refine ⟨uploadBytes_toNat_eq_iff size, ?_, ?_⟩
  · intro hrefuses
    by_contra hlarge
    obtain ⟨hwraps, hshort⟩ := not_or.1 hlarge
    -- Data as long as what is left of the length is let through.
    let pixels : ByteArray := ⟨.replicate (imageBytes size % 2 ^ 64) 0⟩
    have hpixels : pixels.size = imageBytes size % 2 ^ 64 := Array.size_replicate
    have hwrong : pixels.size ≠ imageBytes size := by
      rw [hpixels]
      exact fun h => hwraps ((Nat.mod_eq_iff_lt (by norm_num)).1 h)
    have hrefused := hrefuses pixels (hpixels.trans_le (Nat.not_lt.1 hshort)) hwrong
    exact hrefused.not_uploads (uploads hsize hpixels)
  · rintro (hfits | hlonger) pixels hpixels hwrong
    · exact refusesLength hsize (by rwa [Nat.mod_eq_of_lt hfits])
    · exact refusesLength hsize (hpixels.trans_lt hlonger).ne

/-- The largest square whose length fits, with all the data that a process can address. -/
theorem upload_refuses_of_largest_square :
    (⟨2147483647, 2147483647⟩ : Size).isEmpty = false ∧
      imageBytes ⟨2147483647, 2147483647⟩ < 2 ^ 64 ∧
      ∀ pixels : ByteArray, pixels.size ≤ 2 ^ 63 - 1 →
        pixels.size ≠ imageBytes ⟨2147483647, 2147483647⟩ →
        RefusesLength ⟨2147483647, 2147483647⟩ pixels :=
  have hfits : imageBytes ⟨2147483647, 2147483647⟩ < 2 ^ 64 := by decide
  ⟨rfl, hfits, (upload_refuses_iff rfl (2 ^ 63 - 1)).2.2 (.inl hfits)⟩

/-- One pixel more on each side, and no data at all is let through for an image of `2 ^ 64`
    bytes. For the largest square of all, a length that has wrapped around is announced. -/
theorem upload_accepts_nothing_for_square :
    (⟨2147483648, 2147483648⟩ : Size).isEmpty = false ∧
      ByteArray.empty.size ≠ imageBytes ⟨2147483648, 2147483648⟩ ∧
      Uploads ⟨2147483648, 2147483648⟩ .empty ∧
      ¬RefusesLength ⟨2147483648, 2147483648⟩ .empty ∧
      imageBytes ⟨4294967295, 4294967295⟩ = 73786976260478468100 ∧
      (uploadBytes ⟨4294967295, 4294967295⟩).toNat = 18446744039349813252 := by
  have huploads : Uploads ⟨2147483648, 2147483648⟩ .empty := uploads rfl rfl
  exact ⟨rfl, by decide, huploads, fun h => h.not_uploads huploads, rfl, rfl⟩

end SeparableBlur.Gpu

-- SUMMARY: Sigma and radius are converted to each other and back within the rounding of 32-bit numbers.
import SeparableBlur.Proofs.SigmaModel

/-!
# From sigma to radius and back

Without rounding the two conversions undo each other, above half a unit of sigma
and above a radius of zero. Each of them rounds twice, and what four roundings
come to stays below a millionth of the number, or of one if that is more.

Two kinds of input need care. Just above half a unit the difference is small, but
it does not vanish. A tiny radius does vanish in the sum: it comes back as zero,
from which it is not far.
-/

namespace SeparableBlur

open Format (single)

namespace Kernel

/-- The number differs from `x` by a millionth of `x` at most, or of one if that is more. -/
def IsNear (a : Binary32) (x : Rat) : Prop :=
  ∃ t, a.toRat? = some t ∧ |t - x| ≤ 1 / 10 ^ 6 * max 1 x

variable {sigma distance : Binary32} {s r : Rat}

/-! ## One conversion -/

/-- The radius is `√3` times what the sigma is above half a unit, but for two roundings. It is not
    rounded to zero. -/
theorem radius_close (h : sigma.toRat? = some s) (hhalf : 1 / 2 < s) (hs : s ≤ 10 ^ 38) :
    ∃ r, (radius sigma).toRat? = some r ∧ 0 < r ∧
      |r - (s - 1 / 2) * (14529495 / 8388608)| ≤ 21 / 10 ^ 8 * s := by
  have hlt : pixelSigma < sigma := (Binary.lt_iff_of_toRat? pixelSigma_toRat? h).2 hhalf
  obtain ⟨d, hd, e⟩ := Binary32.sub_rounded s h pixelSigma_toRat? (by
    rw [abs_le]; constructor <;> linarith) (by linarith)
  have ld := e.lower
  have ud := e.upper
  obtain ⟨r, hr, e'⟩ := Binary32.mul_rounded (1.733 * s) hd radiusPerSigma_toRat? (by
    rw [abs_le]; constructor <;> linarith) (by linarith)
  have lr := e'.lower
  have ur := e'.upper
  refine ⟨r, by simp only [radius, if_pos hlt, hr], ?_, ?_⟩
  · -- The difference is at least the smallest magnitude, and so is the product.
    have hpos : 0 < sigma - pixelSigma := (Binary.sub_pos_iff (by decide)).2 hlt
    have hd0 : 0 < d := (Binary.lt_iff_of_toRat? zero_toRat? hd).1 hpos
    have hunit := Binary.unit_le_of_toRat? hd hd0
    rw [Format.single_unit] at hunit
    have hgrid : single.nearest (1 / 2 ^ 149) = 1 / 2 ^ 149 := by decide +kernel
    exact lt_of_lt_of_le (by norm_num) (e'.ge hgrid (by linarith))
  · rw [abs_le]
    constructor <;> linarith

/-- The sigma is half a unit more than the radius divided by `√3`, but for two roundings. -/
theorem sigmaOfRadius_close (h : distance.toRat? = some r) (hpos : 0 < r) (hr : r ≤ 2 * 10 ^ 38) :
    ∃ s, (sigmaOfRadius distance).toRat? = some s ∧
      |s - (r / (14529495 / 8388608) + 1 / 2)| ≤ 7 / 10 ^ 8 * r + 4 / 10 ^ 8 := by
  have hlt : 0 < distance := (Binary.lt_iff_of_toRat? zero_toRat? h).2 hpos
  obtain ⟨q, hq, e⟩ := Binary32.div_rounded (0.5774 * r) h radiusPerSigma_toRat? (by norm_num) (by
    rw [abs_le]; constructor <;> linarith) (by linarith)
  have lq := e.lower
  have uq := e.upper
  obtain ⟨s, hs, e'⟩ := Binary32.add_rounded (0.5775 * r + 0.51) hq pixelSigma_toRat? (by
    rw [abs_le]; constructor <;> linarith) (by linarith)
  have ls := e'.lower
  have us := e'.upper
  refine ⟨s, by simp only [sigmaOfRadius, if_pos hlt, hs], ?_⟩
  rw [abs_le]
  constructor <;> linarith

/-- A radius of zero comes back as it was. -/
theorem radius_sigmaOfRadius_zero (h : distance.toRat? = some 0) :
    radius (sigmaOfRadius distance) = 0 := by
  have hzero : ¬0 < distance := by simp [Binary.lt_iff_of_toRat? zero_toRat? h]
  rw [sigmaOfRadius, if_neg hzero]
  decide +kernel

/-! ## There and back -/

/-- A sigma above half a unit comes back from its radius. -/
theorem sigmaOfRadius_radius (h : sigma.toRat? = some s) (hhalf : 1 / 2 < s) (hs : s ≤ 10 ^ 38) :
    IsNear (sigmaOfRadius (radius sigma)) s := by
  obtain ⟨r, hr, hpos, hclose⟩ := radius_close h hhalf hs
  rw [abs_le] at hclose
  obtain ⟨t, ht, hclose'⟩ := sigmaOfRadius_close hr hpos (by linarith)
  rw [abs_le] at hclose'
  have hone := le_max_left 1 s
  have hmax := le_max_right 1 s
  refine ⟨t, ht, ?_⟩
  rw [abs_le]
  constructor <;> linarith

/-- A radius comes back from its sigma. -/
theorem radius_sigmaOfRadius (h : distance.toRat? = some r) (hr0 : 0 ≤ r) (hr : r ≤ 10 ^ 38) :
    IsNear (radius (sigmaOfRadius distance)) r := by
  have hone := le_max_left 1 r
  have hmax := le_max_right 1 r
  rcases hr0.eq_or_lt with rfl | hpos
  case inl =>
    refine ⟨0, by rw [radius_sigmaOfRadius_zero h, zero_toRat?], ?_⟩
    rw [sub_zero, abs_zero]
    linarith
  case inr =>
    obtain ⟨s, hs, hclose⟩ := sigmaOfRadius_close h hpos (by linarith)
    rw [abs_le] at hclose
    rcases lt_or_ge (1 / 2) s with hhalf | hhalf
    · obtain ⟨t, ht, -, hclose'⟩ := radius_close hs hhalf (by linarith)
      rw [abs_le] at hclose'
      refine ⟨t, ht, ?_⟩
      rw [abs_le]
      constructor <;> linarith
    · -- The radius was too small to be seen next to half a unit.
      have hlow : ¬pixelSigma < sigmaOfRadius distance := by
        rw [Binary.lt_iff_of_toRat? pixelSigma_toRat? hs]
        exact hhalf.not_gt
      refine ⟨0, by simp only [radius, if_neg hlow, zero_toRat?], ?_⟩
      rw [abs_le]
      constructor <;> linarith

/-- Every sigma above half a unit comes back from its radius, and every radius from its sigma, up to
    a number far beyond those that blurs are made of. -/
theorem conversions_return :
    (∀ (sigma : Binary32) (s : Rat), sigma.toRat? = some s → 1 / 2 < s → s ≤ 10 ^ 38 →
      IsNear (sigmaOfRadius (radius sigma)) s) ∧
    ∀ (distance : Binary32) (r : Rat), distance.toRat? = some r → 0 ≤ r → r ≤ 10 ^ 38 →
      IsNear (radius (sigmaOfRadius distance)) r :=
  ⟨fun _ _ => sigmaOfRadius_radius, fun _ _ => radius_sigmaOfRadius⟩

/-- A sigma that is no power of two, and a radius that vanishes next to half a unit. -/
theorem conversions_return_of_vanishing :
    let sigma : Binary32 := Scalar.ofRat 7.25
    let distance : Binary32 := Scalar.ofRat (1 / 2 ^ 30)
    IsNear (sigmaOfRadius (radius sigma)) 7.25 ∧
      radius (sigmaOfRadius distance) = 0 ∧
      IsNear (radius (sigmaOfRadius distance)) (1 / 2 ^ 30) := by
  intro sigma distance
  have hsigma : sigma.toRat? = some 7.25 := by decide +kernel
  have hdistance : distance.toRat? = some (1 / 2 ^ 30) := by decide +kernel
  refine ⟨conversions_return.1 sigma 7.25 hsigma (by norm_num) (by norm_num), by decide +kernel, ?_⟩
  exact conversions_return.2 distance (1 / 2 ^ 30) hdistance (by norm_num) (by norm_num)

end Kernel

end SeparableBlur

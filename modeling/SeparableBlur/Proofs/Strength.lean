-- SUMMARY: A stronger blur never has a smaller radius, a narrower gutter or a higher resolution, as 32-bit computations.
import SeparableBlur.Proofs.SigmaModel

/-!
# Stronger blurs

The radius grows with the sigma and the resolution falls, over all numbers and up to
the infinite ends. Each formula has a seam where one branch meets the other. Below
it the value is constant, and what comes above it was rounded, but never to the
other side of that constant. On each branch the operations are monotone, and
rounding keeps what is in order in order.
-/

namespace SeparableBlur

open Format (single single_nearest_one)

namespace Kernel

variable {sigma s t : Binary32}

/-! ## The radius -/

theorem radius_of_pixelSigma_lt (h : pixelSigma < sigma) :
    radius sigma = (sigma - pixelSigma) * radiusPerSigma := if_pos h

theorem radius_of_not_lt (h : ¬pixelSigma < sigma) : radius sigma = 0 := if_neg h

theorem zero_le_radius (sigma : Binary32) : 0 ≤ radius sigma := by
  by_cases h : pixelSigma < sigma
  · have hdiff : 0 ≤ sigma - pixelSigma := Binary.le_of_lt ((Binary.sub_pos_iff (by decide)).2 h)
    have hzero : (0 : Binary32) * radiusPerSigma = 0 := by decide +kernel
    have hmul := Binary.mul_le_mul_of_pos hdiff radiusPerSigma_toRat? (by norm_num)
    rwa [hzero, ← radius_of_pixelSigma_lt h] at hmul
  · rw [radius_of_not_lt h]
    decide +kernel

/-- A stronger blur has no smaller radius. -/
theorem radius_le_radius (h : s ≤ t) : radius s ≤ radius t := by
  by_cases hs : pixelSigma < s
  · rw [radius_of_pixelSigma_lt hs, radius_of_pixelSigma_lt (Binary.lt_of_lt_of_le hs h)]
    refine Binary.mul_le_mul_of_pos ?_ radiusPerSigma_toRat? (by norm_num)
    exact Binary.sub_le_sub_of_toRat? h pixelSigma_toRat?
  · rw [radius_of_not_lt hs]
    exact zero_le_radius t

/-! ## The resolution -/

theorem resolution_of_le_threshold (h : sigma ≤ threshold) : resolution sigma = 1 := if_pos h

/-- Above the threshold a sigma is infinite or has a quotient. -/
theorem resolution_cases (hnumber : sigma ≠ .nan) (h : ¬sigma ≤ threshold) :
    sigma = .infinite false ∧ resolution sigma = 0 ∨
      ∃ x, sigma.toRat? = some x ∧ 4 < x ∧
        (resolution sigma).toRat? = some (single.nearest (4 / x)) := by
  cases hsigma : sigma with
  | nan => exact absurd hsigma hnumber
  | infinite negative =>
    cases negative with
    | true =>
      rw [hsigma] at h
      exact absurd (by decide +kernel) h
    | false => exact .inl ⟨rfl, by decide +kernel⟩
  | finite negative code =>
    obtain ⟨x, hx⟩ : ∃ x, (.finite negative code : Binary32).toRat? = some x := ⟨_, rfl⟩
    rw [hsigma] at h
    have hx4 : 4 < x := by rwa [Binary.le_iff_of_toRat? hx threshold_toRat?, not_le] at h
    have hquotient : |4 / x| ≤ 1 := by
      rw [abs_of_pos (div_pos (by norm_num) (by linarith)), div_le_one (by linarith)]
      exact hx4.le
    have hrange : single.InRange (4 / x) := Format.single_inRange (by linarith)
    refine .inr ⟨x, hx, hx4, ?_⟩
    rw [resolution, if_neg h]
    exact Binary.toRat?_div threshold_toRat? hx (by linarith) hrange

theorem resolution_bounds (hnumber : sigma ≠ .nan) :
    0 ≤ resolution sigma ∧ resolution sigma ≤ 1 := by
  by_cases h : sigma ≤ threshold
  · rw [resolution_of_le_threshold h]
    decide +kernel
  · rcases resolution_cases hnumber h with ⟨-, hzero⟩ | ⟨x, -, hx4, hquotient⟩
    · rw [hzero]
      decide +kernel
    · rw [Binary.le_iff_of_toRat? zero_toRat? hquotient,
        Binary.le_iff_of_toRat? hquotient one_toRat?]
      have hle : 4 / x ≤ 1 := by
        rw [div_le_one (by linarith)]
        exact hx4.le
      refine ⟨single.nearest_nonneg (div_nonneg (by norm_num) (by linarith)), ?_⟩
      rw [← single_nearest_one]
      exact single.nearest_mono hle

/-- A stronger blur has no higher resolution. -/
theorem resolution_le_resolution (h : s ≤ t) : resolution t ≤ resolution s := by
  obtain ⟨hs, ht⟩ := Binary.ne_nan_of_le h
  by_cases hlow : s ≤ threshold
  · rw [resolution_of_le_threshold hlow]
    exact (resolution_bounds ht).2
  · have hhigh : ¬t ≤ threshold := fun hle => hlow (Binary.le_trans h hle)
    rcases resolution_cases ht hhigh with ⟨-, hzero⟩ | ⟨y, hy, hy4, hquotient⟩
    · rw [hzero]
      exact (resolution_bounds hs).1
    · rcases resolution_cases hs hlow with ⟨hinfinite, -⟩ | ⟨x, hx, hx4, hquotient'⟩
      · -- Nothing finite lies above the infinite end.
        obtain ⟨negative, code, rfl⟩ := Binary.exists_finite_of_toRat? hy
        rw [hinfinite] at h
        cases h
      · rw [Binary.le_iff_of_toRat? hquotient hquotient']
        rw [Binary.le_iff_of_toRat? hx hy] at h
        exact single.nearest_mono (div_le_div_of_nonneg_left (by norm_num) (by linarith) h)

/-- The stronger of two blurs has no smaller radius, no narrower gutter and no higher resolution,
    which is never above one. So the resolution that suits both axes never rises when one of the
    sigmas does, whatever the other is. -/
theorem stronger_coarser :
    (∀ s t : Binary32, s ≤ t → radius s ≤ radius t ∧
      Scalar.ceil (radius s) ≤ Scalar.ceil (radius t) ∧
      resolution t ≤ resolution s ∧ resolution s ≤ 1) ∧
    ∀ s t other : Binary32, s ≤ t →
      (⟨⟨t, other⟩⟩ : Extent Binary32).resolution ≤
        (⟨⟨s, other⟩⟩ : Extent Binary32).resolution ∧
      (⟨⟨other, t⟩⟩ : Extent Binary32).resolution ≤
        (⟨⟨other, s⟩⟩ : Extent Binary32).resolution := by
  refine ⟨fun s t h => ?_, fun s t other h => ?_⟩
  · have hradius := radius_le_radius h
    exact ⟨hradius, Binary.ceil_le_ceil hradius, resolution_le_resolution h,
      (resolution_bounds (Binary.ne_nan_of_le h).1).2⟩
  · exact Binary.minNumber_le_minNumber (resolution_le_resolution h) (resolution other)

/-- From just below the threshold to a sigma so large that the resolution vanishes, next to an axis
    whose sigma is not a number. -/
theorem stronger_coarser_of_infinite :
    let weak : Binary32 := Scalar.ofRat 3.75
    let strong : Binary32 := .infinite false
    weak ≤ strong ∧
      (radius weak ≤ radius strong ∧ Scalar.ceil (radius weak) ≤ Scalar.ceil (radius strong) ∧
        resolution strong ≤ resolution weak ∧ resolution weak ≤ 1) ∧
      (⟨⟨strong, .nan⟩⟩ : Extent Binary32).resolution ≤
        (⟨⟨weak, .nan⟩⟩ : Extent Binary32).resolution := by
  intro weak strong
  have h : weak ≤ strong := by decide +kernel
  exact ⟨h, stronger_coarser.1 weak strong h, (stronger_coarser.2 weak strong .nan h).1⟩

end Kernel

end SeparableBlur

-- SUMMARY: Bounds on the rendered sigma, its radius, its padding and its resolution, as 32-bit computations.
import SeparableBlur.Kernel
import SeparableBlur.Proofs.Line

/-!
# Bounds on the sigma model

Every request comes to a finite sigma between `0` and `92`, which is zero only where
nothing was asked for and never more than what was asked for. The radius grows no
faster than the sigma, and the resolution no slower than its inverse, which is
what keeps the product of the two bounded.

The bounds are about the rounded computation. Each proof names the value after
each rounding and adds up the errors.
-/

namespace SeparableBlur

open Format (single single_inRange abs_single_nearest_sub_le single_nearest_natCast single_nearest_one)

namespace Kernel

/-! ## Constants -/

theorem zero_toRat? : (0 : Binary32).toRat? = some 0 := by decide +kernel

theorem one_toRat? : (1 : Binary32).toRat? = some 1 := by decide +kernel

theorem maxSigma_toRat? : (maxSigma : Binary32).toRat? = some 500 := by decide +kernel

theorem threshold_toRat? : (threshold : Binary32).toRat? = some 4 := by decide +kernel

theorem pixelSigma_toRat? : (pixelSigma : Binary32).toRat? = some (1 / 2) := by decide +kernel

theorem radiusPerSigma_toRat? :
    (radiusPerSigma : Binary32).toRat? = some (14529495 / 8388608) := by decide +kernel

/-! ## The rendered sigma -/

/-- A request between zero and `maxSigma`. -/
def clamped (request : Binary32) : Binary32 :=
  Scalar.minNumber (Scalar.maxNumber request 0) maxSigma

theorem falloff_eq (request : Binary32) :
    falloff request = clamped request * falloffFactor (clamped request) := rfl

theorem clamped_toRat? {request : Binary32} {q : Rat} (h : request.toRat? = some q) :
    (clamped request).toRat? = some (min (max q 0) 500) :=
  Binary.toRat?_minNumber (Binary.toRat?_maxNumber h zero_toRat?) maxSigma_toRat?

/-- What a request is clamped to. -/
structure ClampsTo (request : Binary32) (c : Rat) : Prop where
  toRat? : (clamped request).toRat? = some c
  nonneg : 0 ≤ c
  le : c ≤ 500
  eq_zero_iff : c = 0 ↔ request = .nan ∨ request ≤ 0
  le_request : 0 < request → clamped request ≤ request

/-- A request is clamped to a number, whatever it was. -/
theorem exists_clampsTo (request : Binary32) : ∃ c, ClampsTo request c := by
  cases hreq : request with
  | nan =>
    refine ⟨0, by decide +kernel, by norm_num, by norm_num, by simp, ?_⟩
    exact fun h => absurd rfl (Binary.ne_nan_of_lt h).2
  | infinite negative =>
    cases negative with
    | false =>
      refine ⟨500, by decide +kernel, by norm_num, by norm_num, ?_, ?_⟩
      · exact iff_of_false (by norm_num) (by decide +kernel)
      · exact fun _ => by decide +kernel
    | true =>
      refine ⟨0, by decide +kernel, by norm_num, by norm_num, ?_, ?_⟩
      · exact iff_of_true rfl (by decide +kernel)
      · exact fun h => absurd h (by decide +kernel)
  | finite negative code =>
    obtain ⟨q, hq⟩ : ∃ q, (.finite negative code : Binary32).toRat? = some q := ⟨_, rfl⟩
    have hclamped := clamped_toRat? hq
    refine ⟨_, hclamped, le_min (le_max_right _ _) (by norm_num), min_le_right _ _, ?_, ?_⟩
    · rw [Binary.le_iff_of_toRat? hq zero_toRat?]
      constructor
      · intro hzero
        rcases min_choice (max q 0) 500 with hmin | hmin
        · exact .inr (max_eq_right_iff.1 (hmin.symm.trans hzero))
        · rw [hmin] at hzero
          norm_num at hzero
      · rintro (hnan | hle)
        · cases hnan
        · rw [max_eq_right hle, min_eq_left (by norm_num)]
    · rw [Binary.lt_iff_of_toRat? zero_toRat? hq]
      intro hpos
      refine (Binary.le_iff_of_toRat? hclamped hq).2 ((min_le_left _ _).trans ?_)
      rw [max_eq_left hpos.le]

/-- Requests above `maxSigma` are clamped to it. -/
theorem clamped_eq_maxSigma {request : Binary32} (h : maxSigma < request) :
    clamped request = maxSigma := by
  cases hreq : request with
  | nan => exact absurd hreq (Binary.ne_nan_of_lt h).2
  | infinite negative =>
    cases negative with
    | false => decide +kernel
    | true => exact absurd (hreq ▸ h) (by decide +kernel)
  | finite negative code =>
    obtain ⟨q, hq⟩ : ∃ q, (.finite negative code : Binary32).toRat? = some q := ⟨_, rfl⟩
    rw [hreq, Binary.lt_iff_of_toRat? maxSigma_toRat? hq] at h
    have hclamped := clamped_toRat? hq
    rw [max_eq_left (by linarith), min_eq_right h.le] at hclamped
    exact Binary.eq_of_toRat? hclamped maxSigma_toRat? (by norm_num)

/-- Requests above `maxSigma` are rendered like it. -/
theorem falloff_eq_of_maxSigma_lt {request : Binary32} (h : maxSigma < request) :
    falloff request = falloff maxSigma := by
  have hmax : clamped maxSigma = maxSigma := by decide +kernel
  rw [falloff_eq, falloff_eq, clamped_eq_maxSigma h, hmax]

/-- The constant and the linear term of the factor. -/
private theorem linear_toRat? {sigma : Binary32} {c : Rat} (h : sigma.toRat? = some c)
    (h0 : 0 ≤ c) (h500 : c ≤ 500) :
    ∃ x, (1 + -Scalar.ofRat 0.0034 * sigma).toRat? = some x ∧
      |x - (1 - 34 / 10000 * c)| ≤ 3 / 10000000 ∧ x ≤ 1 := by
  have hfactor : (-Scalar.ofRat 0.0034 : Binary32).toRat? = some (-(14602889 / 4294967296)) := by
    decide +kernel
  obtain ⟨y, hy, ey⟩ := Binary32.mul_rounded 2 hfactor h (by
    rw [abs_le]; constructor <;> linarith) (by norm_num)
  have ly := ey.lower
  have uy := ey.upper
  obtain ⟨x, hx, ex⟩ := Binary32.add_rounded 2 one_toRat? hy (by
    rw [abs_le]; constructor <;> linarith) (by norm_num)
  have lx := ex.lower
  have ux := ex.upper
  have hzero : single.nearest 0 = 0 := by simpa using single_nearest_natCast (n := 0) (by norm_num)
  have hy0 : y ≤ 0 := ey.le hzero (by linarith)
  refine ⟨x, hx, ?_, ex.le single_nearest_one (by linarith)⟩
  rw [abs_le]
  constructor <;> linarith

/-- The quadratic term. The last product multiplies the error of the one before by at most 500.
    Near zero the term is too small to be seen next to one. -/
private theorem quadratic_toRat? {sigma : Binary32} {c : Rat} (h : sigma.toRat? = some c)
    (h0 : 0 ≤ c) (h500 : c ≤ 500) :
    ∃ x, (Scalar.ofRat 0.0000034 * sigma * sigma).toRat? = some x ∧
      |x - 34 / 10000000 * c ^ 2| ≤ 2 / 10000000 ∧ (c ≤ 1 / 1000 → x ≤ 1 / 2 ^ 30) := by
  have hfactor : (Scalar.ofRat 0.0000034 : Binary32).toRat? = some (7476679 / 2199023255552) := by
    decide +kernel
  obtain ⟨y, hy, ey⟩ := Binary32.mul_rounded (1 / 500) hfactor h (by
    rw [abs_le]; constructor <;> linarith) (by norm_num)
  have hsquare : |y * c - 7476679 / 2199023255552 * c ^ 2| ≤ 1 / 10000000 := by
    have herr : |y - 7476679 / 2199023255552 * c| ≤ 1 / 5000000000 := by linarith [ey.close]
    calc |y * c - 7476679 / 2199023255552 * c ^ 2|
        = |y - 7476679 / 2199023255552 * c| * c := by
          rw [← abs_of_nonneg h0, ← abs_mul, abs_of_nonneg h0]
          ring_nf
      _ ≤ 1 / 5000000000 * 500 := mul_le_mul herr h500 h0 (by norm_num)
      _ = 1 / 10000000 := by norm_num
  rw [abs_le] at hsquare
  have hc2 : c ^ 2 ≤ 500 ^ 2 := pow_le_pow_left₀ h0 h500 2
  have hc2' : 0 ≤ c ^ 2 := sq_nonneg c
  obtain ⟨x, hx, ex⟩ := Binary32.mul_rounded 1 hy h (by
    rw [abs_le]; constructor <;> linarith) (by norm_num)
  have lx := ex.lower
  have ux := ex.upper
  have hgrid : single.nearest (1 / 2 ^ 30) = 1 / 2 ^ 30 := by decide +kernel
  refine ⟨x, hx, ?_, fun hc => ex.le hgrid ?_⟩
  · rw [abs_le]
    constructor <;> linarith
  · have hy : y ≤ 1 / 10 ^ 8 := by linarith [ey.upper]
    have : y * c ≤ 1 / 10 ^ 8 * c := mul_le_mul_of_nonneg_right hy h0
    linarith

/-- The factor is close to the parabola it is meant to be, and does not exceed one. -/
theorem falloffFactor_toRat? {sigma : Binary32} {c : Rat} (h : sigma.toRat? = some c)
    (h0 : 0 ≤ c) (h500 : c ≤ 500) :
    ∃ k, (falloffFactor sigma).toRat? = some k ∧
      |k - (1 - 34 / 10000 * c + 34 / 10000000 * c ^ 2)| ≤ 1 / 1000000 ∧ k ≤ 1 := by
  obtain ⟨x, hx, hlinear, hx1⟩ := linear_toRat? h h0 h500
  obtain ⟨y, hy, hquadratic, hysmall⟩ := quadratic_toRat? h h0 h500
  have hc2 : c ^ 2 ≤ 500 ^ 2 := pow_le_pow_left₀ h0 h500 2
  have hc2' : 0 ≤ c ^ 2 := sq_nonneg c
  rw [abs_le] at hlinear hquadratic
  obtain ⟨k, hk, ek⟩ := Binary32.add_rounded 3 hx hy (by
    rw [abs_le]; constructor <;> linarith) (by norm_num)
  have lk := ek.lower
  have uk := ek.upper
  have hclose : |k - (1 - 34 / 10000 * c + 34 / 10000000 * c ^ 2)| ≤ 1 / 1000000 := by
    rw [abs_le]
    constructor <;> linarith
  refine ⟨k, hk, hclose, ?_⟩
  rcases le_total c (1 / 1000) with hc | hc
  · -- The sum may exceed one, but by less than half a spacing.
    have hone : single.nearest (1 + 1 / 2 ^ 30) = 1 := by decide +kernel
    have hsum : x + y ≤ 1 + 1 / 2 ^ 30 := add_le_add hx1 (hysmall hc)
    rw [ek.eq, ← hone]
    exact single.nearest_mono hsum
  · have : c * c ≤ 500 * c := mul_le_mul_of_nonneg_right h500 h0
    linarith [(abs_le.1 hclose).2]

/-- The rendered sigma for a request that is clamped to `c`. The parabola's product with `c` is
    largest near `219`, where it is just below `91.7`. -/
theorem falloff_toRat?_of_clampsTo {request : Binary32} {c : Rat} (h : ClampsTo request c) :
    ∃ s, (falloff request).toRat? = some s ∧ 0 ≤ s ∧ s ≤ 9171 / 100 ∧ s ≤ c ∧ (0 < c → 0 < s) := by
  obtain ⟨hc, h0, h500, -, -⟩ := h
  obtain ⟨k, hk, hclose, hk1⟩ := falloffFactor_toRat? hc h0 h500
  rw [abs_le] at hclose
  have hk0 : 0.14 ≤ k := by linarith [sq_nonneg (c - 500)]
  have hpeak : c * (1 - 34 / 10000 * c + 34 / 10000000 * c ^ 2) ≤ 917 / 10 := by
    nlinarith [mul_nonneg (sq_nonneg (c - 219)) (show 0 ≤ 562 - c by linarith)]
  have hprod : c * k ≤ 91701 / 1000 := by
    linarith [mul_le_mul_of_nonneg_left hclose.2 h0]
  have hprod0 : 0 ≤ c * k := mul_nonneg h0 (by linarith)
  obtain ⟨s, hs, e⟩ := Binary32.mul_rounded 92 hc hk (by
    rw [abs_of_nonneg hprod0]; linarith) (by norm_num)
  refine ⟨s, hs, e.nonneg hprod0, by linarith [e.upper], ?_, ?_⟩
  · exact e.le (Binary.nearest_of_toRat? hc) (mul_le_of_le_one_right h0 hk1)
  · -- The factor of a small request is near one, so not even the smallest is rounded to zero.
    intro hpos
    have hunit := Binary.unit_le_of_toRat? hc hpos
    rw [Format.single_unit] at hunit
    have htiny : single.nearest (7 / 10 / 2 ^ 149) = 1 / 2 ^ 149 := by decide +kernel
    have hlarge : 7 / 10 / 2 ^ 149 ≤ c * k := by
      rcases le_total c 50 with hc50 | hc50
      · have hk8 : 0.8 ≤ k := by linarith [sq_nonneg c]
        have : 1 / 2 ^ 149 * 0.8 ≤ c * k := mul_le_mul hunit hk8 (by norm_num) h0
        linarith
      · have : 50 * 0.14 ≤ c * k := mul_le_mul hc50 hk0 (by norm_num) h0
        linarith
    have : single.nearest (7 / 10 / 2 ^ 149) ≤ s := e.eq ▸ single.nearest_mono hlarge
    rw [htiny] at this
    exact lt_of_lt_of_le (by norm_num) this

/-- The rendered sigma is bounded whatever was requested. -/
theorem falloff_toRat? (request : Binary32) :
    ∃ s, (falloff request).toRat? = some s ∧ 0 ≤ s ∧ s ≤ 92 := by
  obtain ⟨c, hc⟩ := exists_clampsTo request
  obtain ⟨s, hs, h0, hle, -, -⟩ := falloff_toRat?_of_clampsTo hc
  exact ⟨s, hs, h0, by linarith⟩

/-! ## The radius -/

/-- The radius is nearly `√3` for each unit of sigma above half a unit. -/
theorem radius_toRat? {sigma : Binary32} {s : Rat} (h : sigma.toRat? = some s) (h0 : 0 ≤ s)
    (h92 : s ≤ 92) :
    ∃ r, (radius sigma).toRat? = some r ∧ 0 ≤ r ∧ r ≤ 1.7321 * s ∧ 1.732 * s - 0.8661 ≤ r ∧
      (s ≤ 9171 / 100 → r ≤ 158) := by
  simp only [radius, Binary.lt_iff_of_toRat? pixelSigma_toRat? h]
  split
  case isFalse hlow =>
    exact ⟨0, zero_toRat?, le_refl 0, by linarith, by linarith, fun _ => by norm_num⟩
  case isTrue hhigh =>
    obtain ⟨d, hd, e⟩ := Binary32.sub_rounded 92 h pixelSigma_toRat? (by
      rw [abs_le]; constructor <;> linarith) (by norm_num)
    have hd0 : 0 ≤ d := e.nonneg (by linarith)
    have ld := e.lower
    have ud := e.upper
    obtain ⟨r, hr, e'⟩ := Binary32.mul_rounded 160 hd radiusPerSigma_toRat? (by
      rw [abs_le]; constructor <;> linarith) (by norm_num)
    have lr := e'.lower
    have ur := e'.upper
    exact ⟨r, hr, e'.nonneg (by linarith), by linarith, by linarith, fun _ => by linarith⟩

/-- A radius is padded to whole pixels. -/
theorem ceil_toRat? {radius : Binary32} {r : Rat} (h : radius.toRat? = some r) (h0 : 0 ≤ r)
    (h160 : r ≤ 160) :
    ∃ n : Nat, (Scalar.ceil radius).toRat? = some (n : Rat) ∧ r ≤ n ∧ (n : Rat) < r + 1 := by
  have hle : r ≤ r.ceil := Rat.le_ceil
  have hlt : (r.ceil : Rat) < r + 1 := Rat.ceil_lt
  have hceil0 : (0 : Int) ≤ r.ceil := by
    have : (0 : Rat) ≤ r.ceil := h0.trans hle
    exact_mod_cast this
  obtain ⟨n, hn⟩ := Int.eq_ofNat_of_zero_le hceil0
  have hcast : (r.ceil : Rat) = n := by rw [hn]; simp
  rw [hcast] at hle hlt
  have hn161 : n ≤ 2 ^ 24 := by
    have : (n : Rat) < 161 := by linarith
    have : n < 161 := by exact_mod_cast this
    omega
  have hrange : single.InRange r.ceil := single_inRange (by
    rw [hcast, abs_of_nonneg (by positivity)]; linarith)
  have hvalue := Binary.toRat?_ceil h hrange
  rw [hcast, single_nearest_natCast hn161] at hvalue
  exact ⟨n, hvalue, hle, hlt⟩

/-- A small sigma has a narrow gutter. -/
theorem padding_le_of_sigma_le {sigma : Binary32} {s : Rat} (h : sigma.toRat? = some s)
    (h0 : 0 ≤ s) (hs : s ≤ 4.0001) {p : Nat}
    (hp : (Scalar.ceil (radius sigma)).toRat? = some (p : Rat)) : p ≤ 7 := by
  obtain ⟨r, hr, hr0, hupper, -, -⟩ := radius_toRat? h h0 (by linarith)
  obtain ⟨n, hn, -, hlt⟩ := ceil_toRat? hr hr0 (by linarith)
  have hpn : (p : Rat) = n := Option.some.inj (hp.symm.trans hn)
  have hp8 : p < 8 := by exact_mod_cast (by linarith : (p : Rat) < 8)
  omega

/-! ## The resolution -/

/-- The resolution brings the sigma down to the threshold, but for one rounding, and no further. -/
theorem resolution_toRat? {sigma : Binary32} {s : Rat} (h : sigma.toRat? = some s) (h0 : 0 ≤ s)
    (h92 : s ≤ 92) :
    ∃ k, (resolution sigma).toRat? = some k ∧ 1 / 25 < k ∧ k ≤ 1 ∧ k * s ≤ 4.0001 ∧
      (k = 1 ∨ 3.9999 ≤ k * s) := by
  simp only [resolution, Binary.le_iff_of_toRat? h threshold_toRat?]
  split
  case isTrue hlow =>
    exact ⟨1, one_toRat?, by norm_num, le_refl 1, by linarith, .inl rfl⟩
  case isFalse hhigh =>
    have hs : 0 < s := by linarith
    have hle : 4 / s ≤ 1 := by rw [div_le_one hs]; linarith
    have hge : 4 / 92 ≤ 4 / s := div_le_div_of_nonneg_left (by norm_num) hs h92
    obtain ⟨k, hk, e⟩ := Binary32.div_rounded 1 threshold_toRat? h hs.ne' (by
      rw [abs_le]; constructor <;> linarith) (by norm_num)
    have hback : 4 / s * s = 4 := div_mul_cancel₀ 4 hs.ne'
    have lk := mul_le_mul_of_nonneg_right e.lower h0
    have uk := mul_le_mul_of_nonneg_right e.upper h0
    exact ⟨k, hk, by linarith [e.lower], e.le single_nearest_one hle, by linarith,
      .inr (by linarith)⟩

/-! ## Without rounding -/

theorem radius_nonneg (sigma : Rat) : 0 ≤ radius sigma := by
  have hfactor : (0 : Rat) ≤ radiusPerSigma := by
    change (0 : Rat) ≤ 1.7320508
    norm_num
  simp only [radius]
  split
  case isTrue h => exact mul_nonneg (sub_nonneg.2 h.le) hfactor
  case isFalse h => exact le_refl 0

end Kernel

namespace Extent

/-- A gutter has no negative width. -/
theorem padding_nonneg (e : Extent Rat) : 0 ≤ e.padding.x ∧ 0 ≤ e.padding.y :=
  ⟨(Kernel.radius_nonneg e.sigma.x).trans Rat.le_ceil,
    (Kernel.radius_nonneg e.sigma.y).trans Rat.le_ceil⟩

/-! ## Both axes -/

/-- The resolution suits both axes, and is no lower than one of them needs. -/
theorem resolution_toRat? {e : Extent Binary32} {x y : Rat} (hx : e.sigma.x.toRat? = some x)
    (hx0 : 0 ≤ x) (hx92 : x ≤ 92) (hy : e.sigma.y.toRat? = some y) (hy0 : 0 ≤ y) (hy92 : y ≤ 92) :
    ∃ k, e.resolution.toRat? = some k ∧ 1 / 25 < k ∧ k ≤ 1 ∧ k * x ≤ 4.0001 ∧ k * y ≤ 4.0001 ∧
      (k = 1 ∨ 3.9999 ≤ k * max x y) := by
  obtain ⟨k, hk, hk25, hk1, hkx, hkmin⟩ := Kernel.resolution_toRat? hx hx0 hx92
  obtain ⟨l, hl, hl25, hl1, hly, hlmin⟩ := Kernel.resolution_toRat? hy hy0 hy92
  refine ⟨_, Binary.toRat?_minNumber hk hl, lt_min hk25 hl25, (min_le_left k l).trans hk1, ?_, ?_, ?_⟩
  · exact (mul_le_mul_of_nonneg_right (min_le_left k l) hx0).trans hkx
  · exact (mul_le_mul_of_nonneg_right (min_le_right k l) hy0).trans hly
  · rcases min_choice k l with hmin | hmin
    · rw [hmin]
      exact hkmin.imp_right fun h =>
        h.trans (mul_le_mul_of_nonneg_left (le_max_left x y) (by linarith))
    · rw [hmin]
      exact hlmin.imp_right fun h =>
        h.trans (mul_le_mul_of_nonneg_left (le_max_right x y) (by linarith))

/-- What a request comes to on one axis: numbers within fixed bounds, and a gutter of the fewest
    whole pixels that the radius fits into. -/
structure AxisBounds (request sigma radius padding : Binary32) : Prop where
  exists_sigma : ∃ s, sigma.toRat? = some s ∧ 0 ≤ s ∧ s ≤ 92
  sigma_eq_zero_iff : sigma.toRat? = some 0 ↔ request = .nan ∨ request ≤ 0
  sigma_le_request : 0 < request → sigma ≤ request
  sigma_eq_of_lt : Kernel.maxSigma < request → sigma = Kernel.falloff Kernel.maxSigma
  exists_gutter : ∃ (r : Rat) (p : Nat), radius.toRat? = some r ∧ padding.toRat? = some (p : Rat) ∧
    0 ≤ r ∧ r ≤ p ∧ (p : Rat) < r + 1 ∧ p ≤ 158

theorem axisBounds (request : Binary32) :
    AxisBounds request (Kernel.falloff request) (Kernel.radius (Kernel.falloff request))
      (Scalar.ceil (Kernel.radius (Kernel.falloff request))) := by
  obtain ⟨c, hc⟩ := Kernel.exists_clampsTo request
  obtain ⟨s, hs, hs0, hsmax, hsc, hpos⟩ := Kernel.falloff_toRat?_of_clampsTo hc
  obtain ⟨r, hr, hr0, -, -, hr158⟩ := Kernel.radius_toRat? hs hs0 (by linarith)
  have hr158 := hr158 hsmax
  obtain ⟨p, hp, hle, hlt⟩ := Kernel.ceil_toRat? hr hr0 (by linarith)
  have hp158 : p < 159 := by exact_mod_cast (by linarith : (p : Rat) < 159)
  refine ⟨⟨s, hs, hs0, by linarith⟩, ?_, ?_, Kernel.falloff_eq_of_maxSigma_lt,
    ⟨r, p, hr, hp, hr0, hle, hlt, by omega⟩⟩
  · rw [hs, Option.some_inj, ← hc.eq_zero_iff]
    constructor
    · intro h0
      by_contra hc0
      exact (hpos (lt_of_le_of_ne hc.nonneg (Ne.symm hc0))).ne' h0
    · intro h0
      exact le_antisymm (h0 ▸ hsc) hs0
  · intro hrequest
    exact Binary.le_trans ((Binary.le_iff_of_toRat? hs hc.toRat?).2 hsc) (hc.le_request hrequest)

/-- The sigma model comes to finite numbers within fixed bounds, whatever was requested. -/
theorem ofRequest_bounded (requested : Vec2 Binary32) :
    let e := ofRequest requested
    AxisBounds requested.x e.sigma.x e.radius.x e.padding.x ∧
      AxisBounds requested.y e.sigma.y e.radius.y e.padding.y ∧
      ∃ k, e.resolution.toRat? = some k ∧ 1 / 25 < k ∧ k ≤ 1 := by
  intro e
  have hx := axisBounds requested.x
  have hy := axisBounds requested.y
  obtain ⟨s, hs, hs0, hs92⟩ := hx.exists_sigma
  obtain ⟨t, ht, ht0, ht92⟩ := hy.exists_sigma
  obtain ⟨k, hk, hk25, hk1, -⟩ := resolution_toRat? (e := e) hs hs0 hs92 ht ht0 ht92
  exact ⟨hx, hy, k, hk, hk25, hk1⟩

end Extent

end SeparableBlur

-- SUMMARY: The shortest decimal of a 32-bit number is read back as that number, although it is rounded to 64 bits on the way.
import SeparableBlur.Proofs.Binary
import SeparableBlur.Proofs.Separation
import SeparableBlur.Proofs.Shortest
import SeparableBlur.Json.Number

/-!
# Reading a decimal back

A document gives a number as digits and a power of ten. They are combined in 64
bits, where the power of ten is rounded and then the product or quotient, and the
result is rounded to 32 bits. What could go wrong is that a decimal on one side
of a midpoint of the 32-bit format is carried to the other side. It does not
happen to the shortest decimal of a number. If that is further from the midpoint
than a quarter of the gap, it is too far away. Otherwise its grid is as coarse as
half the gap, and such decimals keep their distance from midpoints.
-/

namespace SeparableBlur

open Format

/-! ## Midpoints -/

theorem double_unit : double.unit = 1 / 2 ^ 1074 := by
  decide +kernel

/-- The midpoint above a code is `m` times half the gap, which is a power of two. -/
structure IsMidpoint (c m k : Nat) : Prop where
  pos : 0 < m
  lt : m < 2 ^ 25
  le : k ≤ 253
  gap_eq : single.gap c = 2 * 2 ^ ((k : Int) - 150)
  midpoint_eq : single.midpointAbove c = m * 2 ^ ((k : Int) - 150)

theorem exists_isMidpoint {c : Nat} (hc : c < single.infinityCode) :
    ∃ m k, IsMidpoint c m k := by
  obtain ⟨m, k, hcode, hm, hk⟩ := single.exists_significand c
  have hgap : single.gap c = 2 * 2 ^ ((k : Int) - 150) := by
    rw [hcode, single.gap_add hm hk, single_unit, zpow_sub₀ (by norm_num), zpow_natCast]
    norm_num
    ring
  refine ⟨2 * m + 1, k, by omega, ?_, ?_, hgap, ?_⟩
  · rw [show single.fractionBits = 23 from rfl] at hm
    omega
  · rw [hcode, show single.fractionBits = 23 from rfl,
      show single.infinityCode = 255 * 2 ^ 23 from rfl, Nat.shiftLeft_eq] at hc
    rw [show single.fractionBits = 23 from rfl] at hk
    omega
  · rw [single.midpointAbove_eq, hgap, hcode, single.magnitude_add hm.le hk, single_unit,
      zpow_sub₀ (by norm_num), zpow_natCast]
    push_cast
    norm_num
    ring

/-! ## Rounding to 64 bits next to a midpoint -/

section Rounding

variable {m k : Nat} {z : Rat}

private theorem two_zpow (k : Nat) : (2 : Rat) ^ ((k : Int) - 150) = 2 ^ (k + 924) * double.unit := by
  have hsplit : (2 : Rat) ^ 1074 = 2 ^ 924 * 2 ^ 150 := by rw [← pow_add]
  rw [double_unit, zpow_sub₀ (by norm_num), zpow_natCast, pow_add, hsplit]
  have : (2 : Rat) ^ 924 ≠ 0 := by positivity
  generalize (2 : Rat) ^ 924 = a at *
  field_simp

theorem double_nearest_midpoint (hm : m ≤ 2 ^ 25) :
    double.nearest (m * 2 ^ ((k : Int) - 150)) = m * 2 ^ ((k : Int) - 150) := by
  rw [two_zpow, ← mul_assoc]
  exact double.nearest_grid (k + 924) (hm.trans (by decide))

theorem abs_double_nearest_sub_le (hz : 0 ≤ z) (h : z < 2 ^ 25 * 2 ^ ((k : Int) - 150)) :
    |double.nearest z - z| ≤ 2 ^ ((k : Int) - 150) / 2 ^ 29 := by
  -- Half of the spacing there, which is `2 ^ (k + 896)` of the smallest magnitudes.
  have hspacing : 2 ^ (k + 896) * double.unit = 2 ^ ((k : Int) - 150) / 2 ^ 28 := by
    rw [two_zpow, show (2 : Rat) ^ (k + 924) = 2 ^ (k + 896) * 2 ^ 28 from pow_add 2 (k + 896) 28]
    generalize (2 : Rat) ^ (k + 896) = a
    ring
  have hbinade : z < 2 ^ (double.fractionBits + 1 + (k + 896)) * double.unit := by
    rw [pow_add, mul_assoc, hspacing, show double.fractionBits + 1 = 53 from rfl]
    linarith
  have := double.abs_nearest_sub_le_of_lt hz hbinade
  rw [hspacing] at this
  linarith

/-- Below a midpoint by more than half a spacing, a number is not rounded up to it. -/
theorem double_nearest_lt (hm : m < 2 ^ 25) (hz : 0 ≤ z)
    (h : z + 2 ^ ((k : Int) - 150) / 2 ^ 29 < m * 2 ^ ((k : Int) - 150)) :
    double.nearest z < m * 2 ^ ((k : Int) - 150) := by
  have hunit : (0 : Rat) < 2 ^ ((k : Int) - 150) := by positivity
  have hm' : (m : Rat) ≤ 2 ^ 25 := by exact_mod_cast hm.le
  have hbinade : z < 2 ^ 25 * 2 ^ ((k : Int) - 150) := by
    have := mul_le_mul_of_nonneg_right hm' hunit.le
    linarith
  linarith [(abs_le.1 (abs_double_nearest_sub_le hz hbinade)).2]

/-- Above a midpoint by more than half a spacing, a number is not rounded down to it. -/
theorem lt_double_nearest (hm : m < 2 ^ 25)
    (h : m * 2 ^ ((k : Int) - 150) + 2 ^ ((k : Int) - 150) / 2 ^ 29 < z) :
    m * 2 ^ ((k : Int) - 150) < double.nearest z := by
  have hunit : (0 : Rat) < 2 ^ ((k : Int) - 150) := by positivity
  rcases lt_or_ge z (2 ^ 25 * 2 ^ ((k : Int) - 150)) with hbinade | hbinade
  · have hz : 0 ≤ z := le_trans (by positivity) h.le
    linarith [(abs_le.1 (abs_double_nearest_sub_le hz hbinade)).1]
  · have hmono := double.nearest_mono hbinade
    have hgrid := double_nearest_midpoint (m := 2 ^ 25) (k := k) le_rfl
    rw [show ((2 ^ 25 : Nat) : Rat) = 2 ^ 25 by norm_num] at hgrid
    rw [hgrid] at hmono
    have hm' : (m : Rat) < 2 ^ 25 := by exact_mod_cast hm
    exact (mul_lt_mul_of_pos_right hm' hunit).trans_le hmono

end Rounding

/-! ## The rounded power of ten -/

theorem readingFactor_bounds {e : Int} (h : -45 ≤ e) (h' : e ≤ 45) :
    (1 - 1 / 2 ^ 52) * 10 ^ e ≤ readingFactor e ∧ readingFactor e ≤ (1 + 1 / 2 ^ 52) * 10 ^ e := by
  have hall : ∀ j : Nat, j < 91 →
      (1 - 1 / 2 ^ 52) * 10 ^ ((j : Int) - 45) ≤ readingFactor (j - 45) ∧
        readingFactor (j - 45) ≤ (1 + 1 / 2 ^ 52) * 10 ^ ((j : Int) - 45) := by decide +kernel
  have := hall (e + 45).toNat (by omega)
  rwa [show (((e + 45).toNat : Int) - 45) = e by omega] at this

/-- Powers of ten up to the twenty-second are exact. -/
theorem readingFactor_exact {e : Int} (h : -22 ≤ e) (h' : e ≤ 22) : readingFactor e = 10 ^ e := by
  have hall : ∀ j : Nat, j < 45 → readingFactor (j - 22) = 10 ^ ((j : Int) - 22) := by
    decide +kernel
  have := hall (e + 22).toNat (by omega)
  rwa [show (((e + 22).toNat : Int) - 22) = e by omega] at this

/-- The number that is rounded last when a decimal is read. -/
def Decimal.reading (d : Decimal) : Rat := d.digits * readingFactor d.exponent

section Shortest

variable {c m k : Nat} {d : Decimal}

theorem Decimal.toRat_nonneg (d : Decimal) : 0 ≤ d.toRat := by
  rw [Decimal.toRat]
  positivity

theorem Decimal.reading_nonneg (d : Decimal) : 0 ≤ d.reading := by
  rw [Decimal.reading, readingFactor]
  positivity

/-- The rounding of the power of ten is a small part of the number. -/
theorem abs_reading_sub_le (hd : Short c d) : |d.reading - d.toRat| ≤ d.toRat / 2 ^ 52 := by
  obtain ⟨hlow, hhigh⟩ := readingFactor_bounds hd.exponent_ge (hd.exponent_le.trans (by norm_num))
  have hdigits : (0 : Rat) ≤ d.digits := by positivity
  have hlow := mul_le_mul_of_nonneg_left hlow hdigits
  have hhigh := mul_le_mul_of_nonneg_left hhigh hdigits
  rw [Decimal.reading, Decimal.toRat, abs_le]
  constructor <;> linarith

/-- A number of few bits is no multiple of a high power of ten over a power of two. -/
private theorem lt_of_mul_pow {a b i j n : Nat} (ha : 0 < a) (ha' : a < 2 ^ 28)
    (h : a * 2 ^ i = b * 2 ^ j * 10 ^ n) : n < 23 := by
  by_contra! hn
  have hdvd : 5 ^ 23 ∣ a * 2 ^ i := by
    rw [h, show 10 = 5 * 2 from rfl, mul_pow]
    exact Dvd.dvd.mul_left (Dvd.dvd.mul_right (pow_dvd_pow 5 hn) _) _
  have hcoprime : Nat.Coprime (5 ^ 23) (2 ^ i) := Nat.Coprime.pow _ _ (by decide)
  have hle := Nat.le_of_dvd ha (hcoprime.dvd_of_dvd_mul_right hdvd)
  norm_num at hle ha'
  omega

/-- The power of ten of a midpoint with so few digits is exact. -/
theorem reading_eq_of_eq_midpoint (hd : Short c d) {c' : Nat} (hm : IsMidpoint c' m k)
    (h : d.toRat = single.midpointAbove c') : d.reading = d.toRat := by
  have hsingle : (d.digits : Rat) * 10 ^ d.exponent * 2 ^ 150 = m * 2 ^ k := by
    rw [hm.midpoint_eq, Decimal.toRat, zpow_sub₀ (by norm_num), zpow_natCast] at h
    rw [h]
    norm_num
    ring
  have hexact : readingFactor d.exponent = 10 ^ d.exponent := by
    obtain ⟨n, hn | hn⟩ := d.exponent.eq_nat_or_neg
    · have hnat : m * 2 ^ k = d.digits * 2 ^ 150 * 10 ^ n := by
        rw [hn, zpow_natCast] at hsingle
        exact_mod_cast (show (m * 2 ^ k : Rat) = d.digits * 2 ^ 150 * 10 ^ n by linarith)
      have := lt_of_mul_pow hm.pos (hm.lt.trans (by norm_num)) hnat
      exact readingFactor_exact (by omega) (by omega)
    · have hnat : d.digits * 2 ^ 150 = m * 2 ^ k * 10 ^ n := by
        rw [hn, zpow_neg, zpow_natCast] at hsingle
        have hpow : (10 : Rat) ^ n ≠ 0 := by positivity
        have : (d.digits * 2 ^ 150 : Rat) = m * 2 ^ k * 10 ^ n := by
          rw [← hsingle]
          field_simp
        exact_mod_cast this
      have := lt_of_mul_pow hd.digits_pos hd.digits_lt hnat
      exact readingFactor_exact (by omega) (by omega)
  rw [Decimal.reading, hexact, Decimal.toRat]

/-- A decimal with as coarse a grid as half the gap below a midpoint of this size. -/
private theorem comparable (hd : Short c d) {c' : Nat} (hm : IsMidpoint c' m k)
    (hcoarse : (2 : Rat) ^ ((k : Int) - 150) ≤ 10 ^ d.exponent)
    (hlt : d.toRat < 2 ^ 25 * 2 ^ ((k : Int) - 150)) : Comparable (k - 150) d.exponent where
  least := by omega
  greatest := by have := hm.le; omega
  coarse := hcoarse
  fine := by
    have hdigits : (1 : Rat) ≤ d.digits := by exact_mod_cast hd.digits_pos
    have hstep : (10 : Rat) ^ d.exponent ≤ d.toRat :=
      le_mul_of_one_le_left (by positivity) hdigits
    rw [zpow_add₀ (by norm_num), mul_comm]
    exact_mod_cast hstep.trans_lt hlt

theorem nearest_reading_lt (hd : Short c d) (hc : c < single.infinityCode)
    (hlt : d.toRat < single.midpointAbove c) :
    double.nearest d.reading < single.midpointAbove c := by
  obtain ⟨m, k, hm⟩ := exists_isMidpoint hc
  have habove := single.midpointAbove_eq c
  have herr := (abs_le.1 (abs_reading_sub_le hd)).2
  have hnonneg := d.toRat_nonneg
  have hbits : (m : Rat) < 2 ^ 25 := by exact_mod_cast hm.lt
  have hunit : (0 : Rat) < 2 ^ ((k : Int) - 150) := by positivity
  have hsize := mul_lt_mul_of_pos_right hbits hunit
  rw [hm.gap_eq, hm.midpoint_eq] at habove
  rw [hm.midpoint_eq] at hlt ⊢
  refine double_nearest_lt hm.lt d.reading_nonneg ?_
  rcases le_or_gt (d.toRat + 2 ^ ((k : Int) - 150) / 2) (m * 2 ^ ((k : Int) - 150))
    with hfar | hnear
  · -- Further away than the power of ten is off.
    linarith
  · -- The decimal is above the magnitude by more than a quarter of the gap.
    have hcoarse : (2 : Rat) ^ ((k : Int) - 150) ≤ 10 ^ d.exponent := by
      rcases hd.near.above (by linarith) with h | h
      · linarith
      · rw [hm.gap_eq] at h
        linarith
    exact (comparable hd hm hcoarse (by linarith)).reading_lt hm.pos hm.lt hlt

theorem lt_nearest_reading (hd : Short (c + 1) d) (hc : c < single.infinityCode)
    (hlt : single.midpointBelow (c + 1) < d.toRat) :
    single.midpointBelow (c + 1) < double.nearest d.reading := by
  obtain ⟨m, k, hm⟩ := exists_isMidpoint hc
  have habove := single.midpointAbove_eq c
  have hnext := single.midpointAbove_eq (c + 1)
  have hsucc := single.magnitude_succ c
  have hgap := single.gap_succ_le c
  have hle := hd.near.readsAs.bounds.2
  have herr := (abs_le.1 (abs_reading_sub_le hd)).1
  have hunit : (0 : Rat) < 2 ^ ((k : Int) - 150) := by positivity
  have hbits : (m : Rat) + 1 ≤ 2 ^ 25 := by exact_mod_cast hm.lt
  have hsize := mul_le_mul_of_nonneg_right hbits hunit.le
  rw [hm.gap_eq, hm.midpoint_eq] at habove
  rw [hm.gap_eq] at hsucc hgap
  rw [single.midpointBelow_succ, hm.midpoint_eq] at hlt ⊢
  refine lt_double_nearest hm.lt ?_
  rcases le_or_gt (m * 2 ^ ((k : Int) - 150) + 2 ^ ((k : Int) - 150) / 2 : Rat) d.toRat
    with hfar | hnear
  · linarith
  · -- The decimal is below the magnitude by more than a quarter of the gap.
    have hcoarse : (2 : Rat) ^ ((k : Int) - 150) ≤ 10 ^ d.exponent := by
      rcases hd.near.below (by linarith) with h | h
      · linarith
      · rw [Nat.add_sub_cancel, hm.gap_eq] at h
        linarith
    exact (comparable hd hm hcoarse (by linarith)).lt_reading hm.pos hm.lt hlt

/-- The shortest decimal of a positive number is read back as its code. -/
theorem code_nearest_reading (hd : Short (c + 1) d) (hc : c + 1 < single.infinityCode) :
    single.code (double.nearest d.reading) = c + 1 := by
  refine single.code_eq_of_readsAs (by decide) ?_
  obtain ⟨m, k, hm⟩ := exists_isMidpoint hc
  obtain ⟨m', k', hm'⟩ := exists_isMidpoint (show c < single.infinityCode by omega)
  have hreads := hd.near.readsAs
  rw [ReadsAs] at hreads ⊢
  split at hreads
  · next heven =>
    -- The midpoints belong to the code, and they are read exactly.
    rw [if_pos heven]
    constructor
    · rcases hreads.1.lt_or_eq with hlt | heq
      · exact (lt_nearest_reading hd (by omega) hlt).le
      · rw [single.midpointBelow_succ] at heq ⊢
        rw [reading_eq_of_eq_midpoint hd hm' heq.symm, ← heq, hm'.midpoint_eq,
          double_nearest_midpoint hm'.lt.le]
    · rcases hreads.2.lt_or_eq with hlt | heq
      · exact (nearest_reading_lt hd hc hlt).le
      · rw [reading_eq_of_eq_midpoint hd hm heq, heq, hm.midpoint_eq,
          double_nearest_midpoint hm.lt.le]
  · next hodd =>
    rw [if_neg hodd]
    exact ⟨lt_nearest_reading hd (by omega) hreads.1, nearest_reading_lt hd hc hreads.2⟩

end Shortest

/-! ## In 64 bits -/

section Scale

open Binary Json

theorem double_inRange {x : Rat} (h : |x| ≤ 2 ^ 256) : double.InRange x := by
  have hpos : (0 : Rat) < 2 ^ 256 := by positivity
  have hlarge : double.InRange (2 ^ 256) := by
    simp only [InRange, abs_of_pos hpos]
    decide +kernel
  exact hlarge.of_abs_le (by rwa [abs_of_pos hpos])

theorem Binary.round_false_eq {f : Format} {x : Rat} (hx : 0 ≤ x) (h : f.InRange x) :
    ∃ c : Fin f.infinityCode, (round false x : Binary f) = finite false c ∧
      f.magnitude c = f.nearest x := by
  rw [InRange, abs_of_nonneg hx] at h
  exact ⟨⟨f.code x, h⟩, dif_pos h, (f.nearest_of_nonneg hx).symm⟩

theorem Binary.ofRat_eq_round {f : Format} {x : Rat} (hx : 0 ≤ x) :
    (ofRat x : Binary f) = round false x := by
  rw [ofRat, Exact.abs_eq, abs_of_nonneg hx, decide_eq_false hx.not_gt]

theorem Binary.finite_mul {f : Format} (c d : Fin f.infinityCode) :
    (finite false c * finite false d : Binary f) = round false (f.magnitude c * f.magnitude d) :=
  rfl

theorem Binary.finite_div {f : Format} (c : Fin f.infinityCode) {d : Fin f.infinityCode}
    (hd : d.val ≠ 0) :
    (finite false c / finite false d : Binary f) = round false (f.magnitude c / f.magnitude d) :=
  if_neg hd

theorem ofRat_natCast {n : Nat} (h : n ≤ 2 ^ 53) :
    ∃ c, (ofRat n : Binary64) = finite false c ∧ double.magnitude c = n := by
  have hn : (n : Rat) ≤ 2 ^ 53 := by exact_mod_cast h
  have hrange : double.InRange n := double_inRange (by
    rw [abs_of_nonneg (by positivity)]
    exact hn.trans (by norm_num))
  obtain ⟨c, hc, hmag⟩ := round_false_eq (by positivity) hrange
  exact ⟨c, (ofRat_eq_round (by positivity)).trans hc, hmag.trans (double.nearest_natCast h)⟩

theorem powerOfTen_eq {n : Nat} (h : n < 46) :
    ∃ c, powerOfTen n = finite false c ∧ double.magnitude c = roundedPower n := by
  have hpow : ((10 : Rat) ^ n) ≤ 10 ^ 46 := pow_le_pow_right₀ (by norm_num) h.le
  have hrange : double.InRange (10 ^ n) := double_inRange (by
    rw [abs_of_nonneg (by positivity)]
    exact hpow.trans (by norm_num))
  obtain ⟨c, hc, hmag⟩ := round_false_eq (by positivity) hrange
  exact ⟨c, (ofRat_eq_round (by positivity)).trans hc, hmag.trans (double_nearest_pow n h)⟩

theorem readingFactor_natCast (k : Nat) : readingFactor k = roundedPower k := by
  rw [readingFactor, Int.toNat_natCast, show (-(k : Int)).toNat = 0 by omega,
    show roundedPower 0 = 1 from rfl, Nat.cast_one, div_one]

theorem readingFactor_neg (k : Nat) : readingFactor (-k) = 1 / roundedPower k := by
  rw [readingFactor, neg_neg, Int.toNat_natCast, show (-(k : Int)).toNat = 0 by omega,
    show roundedPower 0 = 1 from rfl, Nat.cast_one]

theorem reading_inRange {n : Nat} {e : Int} (hn : n ≤ 2 ^ 53) (he : -45 ≤ e) (he' : e ≤ 45) :
    double.InRange (n * readingFactor e) := by
  have hfactor := (readingFactor_bounds he he').2
  have hpow : (10 : Rat) ^ e ≤ 10 ^ (45 : Int) := zpow_le_zpow_right₀ (by norm_num) he'
  have hn' : (n : Rat) ≤ 2 ^ 53 := by exact_mod_cast hn
  have hpos : 0 ≤ readingFactor e := by
    rw [readingFactor]
    positivity
  refine double_inRange ?_
  rw [abs_of_nonneg (by positivity)]
  calc n * readingFactor e ≤ 2 ^ 53 * ((1 + 1 / 2 ^ 52) * 10 ^ (45 : Int)) := by
        refine mul_le_mul hn' (hfactor.trans ?_) hpos (by norm_num)
        exact mul_le_mul_of_nonneg_left hpow (by norm_num)
    _ ≤ 2 ^ 256 := by norm_num

/-- Scaling by a power of ten is one rounding of the reading. -/
theorem scaleUp_eq {n k : Nat} (hn : n ≤ 2 ^ 53) (hk : k < 46) :
    scaleUp (ofRat n) k = .ok (round false (n * readingFactor k)) := by
  obtain ⟨c, hc, hmag⟩ := ofRat_natCast hn
  obtain ⟨p, hp, hpow⟩ := powerOfTen_eq hk
  have hmul : (ofRat n : Binary64) * powerOfTen k = round false (n * readingFactor k) := by
    rw [hc, hp, finite_mul, hmag, hpow, readingFactor_natCast]
  have hrange := reading_inRange hn (e := k) (by omega) (by omega)
  rw [readingFactor_natCast] at hrange
  obtain ⟨r, hr, -⟩ := round_false_eq (by positivity) hrange
  rw [scaleUp, if_pos (by simp only [maxPower]; omega), hmul, readingFactor_natCast, hr]
  rfl

theorem scaleDown_eq {n k : Nat} (hn : n ≤ 2 ^ 53) (hk : k < 46) :
    scaleDown (ofRat n) k = round false (n * readingFactor (-k)) := by
  obtain ⟨c, hc, hmag⟩ := ofRat_natCast hn
  obtain ⟨p, hp, hpow⟩ := powerOfTen_eq hk
  have hp0 : p.val ≠ 0 := by
    intro h0
    have hpos := roundedPower_pos k hk
    rw [h0, magnitude_zero] at hpow
    exact hpos.ne (by exact_mod_cast hpow)
  rw [scaleDown, if_pos (by simp only [maxPower]; omega), hc, hp, finite_div c hp0, hmag, hpow,
    readingFactor_neg, mul_one_div]

end Scale

end SeparableBlur

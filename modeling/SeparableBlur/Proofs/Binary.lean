-- SUMMARY: What the operations on binary numbers come to, as rationals that are rounded once.
import SeparableBlur.Proofs.Rounding
import SeparableBlur.Scalar.Exact

/-!
# Binary numbers as rounded rationals

An operation on finite numbers is the operation on the rationals they stand for,
followed by `Format.nearest`, as long as the result is in the range of the
format. One lemma says so for each operation, and a bound on a formula is read
off them from the inside out.
-/

namespace SeparableBlur

/-- `x` is rounded to a finite value of the format. -/
def Format.InRange (f : Format) (x : Rat) : Prop := f.code |x| < f.infinityCode

theorem Format.InRange.of_abs_le {f : Format} {x y : Rat} (hy : f.InRange y) (h : |x| ≤ |y|) :
    f.InRange x :=
  (f.code_mono (abs_nonneg x) h).trans_lt hy

/-- Just below the largest magnitude of the 32-bit format. -/
theorem Format.single_inRange {x : Rat} (h : |x| ≤ 3 * 10 ^ 38) : single.InRange x := by
  have hlarge : single.InRange (3 * 10 ^ 38) := by
    simp only [InRange, abs_of_pos (show (0 : Rat) < 3 * 10 ^ 38 by norm_num)]
    decide +kernel
  exact hlarge.of_abs_le (by rwa [abs_of_pos (show (0 : Rat) < 3 * 10 ^ 38 by norm_num)])

theorem Exact.abs_eq (x : Rat) : x.abs = |x| := by
  rcases le_total 0 x with h | h
  · rw [Rat.abs_of_nonneg h, abs_of_nonneg h]
  · rw [Rat.abs_of_nonpos h, abs_of_nonpos h]

theorem toNat_ofNatClamp (n : Nat) : (UInt32.ofNatClamp n).toNat = min n (UInt32.size - 1) := by
  simp only [UInt32.ofNatClamp]
  split
  case isTrue h =>
    rw [UInt32.toNat_ofNatLT, min_eq_left (by omega)]
  case isFalse h =>
    rw [UInt32.toNat_ofNatLT, min_eq_right (by omega)]

namespace Binary

variable {f : Format} {a b : Binary f} {p q : Rat}

/-! ## Signs -/

theorem abs_eq_of_toRat? {s : Bool} {c : Fin f.infinityCode}
    (h : (finite s c : Binary f).toRat? = some p) : f.magnitude c = |p| := by
  have hc := f.magnitude_nonneg c
  obtain rfl : signed s (f.magnitude c) = p := Option.some.inj h
  cases s
  · exact (abs_of_nonneg hc).symm
  · rw [signed, if_pos rfl, abs_neg, abs_of_nonneg hc]

theorem neg_iff_of_toRat? {s : Bool} {c : Fin f.infinityCode}
    (h : (finite s c : Binary f).toRat? = some p) (hp : p ≠ 0) : s = true ↔ p < 0 := by
  have hc := f.magnitude_nonneg c
  obtain rfl : signed s (f.magnitude c) = p := Option.some.inj h
  cases s
  · exact iff_of_false nofun hc.not_gt
  · exact iff_of_true rfl (lt_of_le_of_ne (neg_nonpos.2 hc) hp)

/-- The signs of two numbers that are not zero combine as in their product. -/
private theorem xor_iff_mul_neg {s t : Bool} (hp : s = true ↔ p < 0) (hq : t = true ↔ q < 0)
    (hp0 : p ≠ 0) (hq0 : q ≠ 0) : (s ^^ t) = true ↔ p * q < 0 := by
  rw [mul_neg_iff]
  cases s <;> cases t <;> simp at hp hq <;>
    simp [hp, hq, lt_iff_le_and_ne, hp0, hp0.symm, hq0, hq0.symm]

theorem exists_finite_of_toRat? (h : a.toRat? = some p) : ∃ s c, a = finite s c := by
  cases a with
  | nan => simp [toRat?] at h
  | infinite s => simp [toRat?] at h
  | finite s c => exact ⟨s, c, rfl⟩

/-- A finite number is a magnitude or the negative of one. -/
theorem magnitude_of_toRat? (h : a.toRat? = some p) :
    ∃ c, (a = finite false c ∧ p = f.magnitude c) ∨ (a = finite true c ∧ p = -f.magnitude c) := by
  obtain ⟨s, c, rfl⟩ := exists_finite_of_toRat? h
  refine ⟨c, ?_⟩
  cases s
  · exact .inl ⟨rfl, (Option.some.inj h).symm⟩
  · exact .inr ⟨rfl, (Option.some.inj h).symm⟩

/-- A finite number is its own nearest value. -/
theorem nearest_of_toRat? (h : a.toRat? = some p) : f.nearest p = p := by
  obtain ⟨c, ⟨-, rfl⟩ | ⟨-, rfl⟩⟩ := magnitude_of_toRat? h
  · exact f.nearest_magnitude c
  · rw [f.nearest_neg, f.nearest_magnitude]

/-! ## Rounding -/

theorem toRat?_round_false {x : Rat} (hx : 0 ≤ x) (h : f.InRange x) :
    (round false x : Binary f).toRat? = some (f.nearest x) := by
  rw [Format.InRange, abs_of_nonneg hx] at h
  rw [round, dif_pos h, f.nearest_of_nonneg hx]
  rfl

theorem toRat?_round_true {x : Rat} (hx : 0 ≤ x) (h : f.InRange (-x)) :
    (round true x : Binary f).toRat? = some (f.nearest (-x)) := by
  rw [Format.InRange, abs_neg, abs_of_nonneg hx] at h
  rw [round, dif_pos h, f.nearest_neg, f.nearest_of_nonneg hx]
  rfl

/-- Rounding with the sign of `x`. A zero may have either sign. -/
theorem toRat?_round {s : Bool} {x : Rat} (hs : x ≠ 0 → (s = true ↔ x < 0)) (h : f.InRange x) :
    (round s |x| : Binary f).toRat? = some (f.nearest x) := by
  cases s with
  | false =>
    have hx : 0 ≤ x := by
      by_contra hneg
      simpa using (hs (by linarith)).2 (lt_of_not_ge hneg)
    rw [abs_of_nonneg hx]
    exact toRat?_round_false hx h
  | true =>
    have hx : x ≤ 0 := by
      rcases eq_or_ne x 0 with h0 | h0
      · exact h0.le
      · exact ((hs h0).1 rfl).le
    have hback : -|x| = x := by rw [abs_of_nonpos hx, neg_neg]
    have hround := toRat?_round_true (f := f) (abs_nonneg x) (hback.symm ▸ h)
    rwa [hback] at hround

/-! ## Constants -/

theorem toRat?_ofRat {x : Rat} (h : f.InRange x) :
    (Scalar.ofRat x : Binary f).toRat? = some (f.nearest x) := by
  change (round (decide (x < 0)) x.abs : Binary f).toRat? = _
  rw [Exact.abs_eq]
  exact toRat?_round (by simp) h

/-! ## Arithmetic -/

theorem toRat?_neg (ha : a.toRat? = some p) : (-a).toRat? = some (-p) := by
  obtain ⟨c, ⟨rfl, rfl⟩ | ⟨rfl, rfl⟩⟩ := magnitude_of_toRat? ha
  · rfl
  · rw [neg_neg]
    rfl

/-- A sum is rounded once, with the sign that the sum of the rationals has. -/
theorem exists_add_eq_round (ha : a.toRat? = some p) (hb : b.toRat? = some q) :
    ∃ s, a + b = round s |p + q| ∧ (p + q ≠ 0 → (s = true ↔ p + q < 0)) := by
  obtain ⟨s, c, rfl⟩ := exists_finite_of_toRat? ha
  obtain ⟨t, d, rfl⟩ := exists_finite_of_toRat? hb
  simp only [toRat?, Option.some.injEq] at ha hb
  refine ⟨if p + q = 0 then s && t else decide (p + q < 0), ?_, fun h0 => by simp [h0]⟩
  rw [← Exact.abs_eq, ← ha, ← hb]
  rfl

theorem toRat?_add (ha : a.toRat? = some p) (hb : b.toRat? = some q) (h : f.InRange (p + q)) :
    (a + b).toRat? = some (f.nearest (p + q)) := by
  obtain ⟨s, heq, hs⟩ := exists_add_eq_round ha hb
  rw [heq]
  exact toRat?_round hs h

theorem toRat?_sub (ha : a.toRat? = some p) (hb : b.toRat? = some q) (h : f.InRange (p - q)) :
    (a - b).toRat? = some (f.nearest (p - q)) := by
  rw [sub_eq_add_neg] at h ⊢
  exact toRat?_add ha (toRat?_neg hb) h

/-- A product is rounded once, with the sign that the product of the rationals has. -/
theorem exists_mul_eq_round (ha : a.toRat? = some p) (hb : b.toRat? = some q) :
    ∃ s, a * b = round s |p * q| ∧ (p * q ≠ 0 → (s = true ↔ p * q < 0)) := by
  obtain ⟨s, c, rfl⟩ := exists_finite_of_toRat? ha
  obtain ⟨t, d, rfl⟩ := exists_finite_of_toRat? hb
  refine ⟨s ^^ t, ?_, fun h0 => ?_⟩
  · rw [abs_mul, ← abs_eq_of_toRat? ha, ← abs_eq_of_toRat? hb]
    rfl
  · have hp := neg_iff_of_toRat? ha (left_ne_zero_of_mul h0)
    have hq := neg_iff_of_toRat? hb (right_ne_zero_of_mul h0)
    exact xor_iff_mul_neg hp hq (left_ne_zero_of_mul h0) (right_ne_zero_of_mul h0)

theorem toRat?_mul (ha : a.toRat? = some p) (hb : b.toRat? = some q) (h : f.InRange (p * q)) :
    (a * b).toRat? = some (f.nearest (p * q)) := by
  obtain ⟨s, heq, hs⟩ := exists_mul_eq_round ha hb
  rw [heq]
  exact toRat?_round hs h

theorem toRat?_div (ha : a.toRat? = some p) (hb : b.toRat? = some q) (hq0 : q ≠ 0)
    (h : f.InRange (p / q)) : (a / b).toRat? = some (f.nearest (p / q)) := by
  obtain ⟨s, c, rfl⟩ := exists_finite_of_toRat? ha
  obtain ⟨t, d, rfl⟩ := exists_finite_of_toRat? hb
  have hd : d.val ≠ 0 := by
    intro h0
    have := abs_eq_of_toRat? hb
    rw [h0, f.magnitude_zero] at this
    exact hq0 (abs_eq_zero.1 this.symm)
  change (if d.val = 0 then if c.val = 0 then .nan else .infinite (s ^^ t)
    else round (s ^^ t) (f.magnitude c / f.magnitude d) : Binary f).toRat? = _
  rw [if_neg hd, abs_eq_of_toRat? ha, abs_eq_of_toRat? hb, ← abs_div]
  refine toRat?_round (fun h0 => ?_) h
  have hp0 : p ≠ 0 := by
    rintro rfl
    simp at h0
  have hs := xor_iff_mul_neg (neg_iff_of_toRat? ha hp0) (neg_iff_of_toRat? hb hq0) hp0 hq0
  rw [hs, div_eq_mul_inv]
  rcases lt_or_gt_of_ne hq0 with hq | hq
  · simp [mul_neg_iff, hq, hq.not_gt]
  · simp [mul_neg_iff, hq, hq.not_gt]

/-! ## Integers -/

/-- The least integer above is rounded once, with the sign of the argument. -/
theorem exists_ceil_eq_round (ha : a.toRat? = some p) :
    ∃ s, Scalar.ceil a = round s |(p.ceil : Rat)| ∧
      ((p.ceil : Rat) ≠ 0 → (s = true ↔ (p.ceil : Rat) < 0)) := by
  obtain ⟨c, ⟨rfl, rfl⟩ | ⟨rfl, rfl⟩⟩ := magnitude_of_toRat? ha
  · have hceil : (0 : Rat) ≤ (f.magnitude c).ceil := (f.magnitude_nonneg c).trans Rat.le_ceil
    refine ⟨false, ?_, fun _ => iff_of_false nofun hceil.not_gt⟩
    rw [abs_of_nonneg hceil]
    rfl
  · have hneg : ((-f.magnitude c).ceil : Rat) = -(f.magnitude c).floor := by
      rw [Rat.ceil_eq_neg_floor_neg, neg_neg]
      push_cast
      rfl
    have hfloor : (0 : Rat) ≤ (f.magnitude c).floor := by
      exact_mod_cast Rat.le_floor_iff.2 (by simpa using f.magnitude_nonneg c)
    rw [hneg]
    refine ⟨true, ?_, fun h0 => iff_of_true rfl ?_⟩
    · rw [abs_neg, abs_of_nonneg hfloor]
      rfl
    · exact lt_of_le_of_ne (neg_nonpos.2 hfloor) h0

theorem toRat?_ceil (ha : a.toRat? = some p) (h : f.InRange p.ceil) :
    (Scalar.ceil a).toRat? = some (f.nearest p.ceil) := by
  obtain ⟨s, heq, hs⟩ := exists_ceil_eq_round ha
  rw [heq]
  exact toRat?_round hs h

theorem toRat?_nearestInteger (ha : a.toRat? = some p) (h : f.InRange (Exact.round p)) :
    (Scalar.round a).toRat? = some (f.nearest (Exact.round p)) := by
  obtain ⟨c, hc⟩ := magnitude_of_toRat? ha
  have hmag := f.magnitude_nonneg c
  have hfloor : (0 : Rat) ≤ (f.magnitude c + 1 / 2).floor := by
    exact_mod_cast (Rat.le_floor_iff.2 (by push_cast; linarith) : (0 : Int) ≤ _)
  rcases hc with ⟨rfl, rfl⟩ | ⟨rfl, rfl⟩
  · rw [Exact.round, if_neg hmag.not_gt] at h ⊢
    exact toRat?_round_false hfloor h
  · have hround : Exact.round (-f.magnitude c) = -((f.magnitude c + 1 / 2).floor : Rat) := by
      rcases hmag.eq_or_lt with h0 | hpos
      · rw [← h0]
        decide +kernel
      · rw [Exact.round, if_pos (by linarith), neg_neg]
    rw [hround] at h ⊢
    exact toRat?_round_true hfloor h

theorem toUInt32_of_toRat? (ha : a.toRat? = some p) :
    Scalar.toUInt32 a = .ofNatClamp p.floor.toNat := by
  obtain ⟨c, ⟨rfl, rfl⟩ | ⟨rfl, rfl⟩⟩ := magnitude_of_toRat? ha
  · rfl
  · have hfloor : (-f.magnitude c).floor ≤ 0 := by
      have h0 : -f.magnitude c ≤ ((0 : Int) : Rat) := by simpa using f.magnitude_nonneg c
      exact (Rat.floor_monotone h0).trans_eq (Rat.floor_intCast 0)
    rw [Int.toNat_of_nonpos hfloor]
    rfl

/-! ## Comparison -/

theorem lt_iff_of_toRat? (ha : a.toRat? = some p) (hb : b.toRat? = some q) : a < b ↔ p < q := by
  obtain ⟨s, c, rfl⟩ := exists_finite_of_toRat? ha
  obtain ⟨t, d, rfl⟩ := exists_finite_of_toRat? hb
  simp only [toRat?, Option.some.injEq] at ha hb
  change (decide (signed s (f.magnitude c) < signed t (f.magnitude d)) = true) ↔ _
  rw [ha, hb, decide_eq_true_eq]

theorem le_iff_of_toRat? (ha : a.toRat? = some p) (hb : b.toRat? = some q) : a ≤ b ↔ p ≤ q := by
  obtain ⟨s, c, rfl⟩ := exists_finite_of_toRat? ha
  obtain ⟨t, d, rfl⟩ := exists_finite_of_toRat? hb
  simp only [toRat?, Option.some.injEq] at ha hb
  change (decide (signed s (f.magnitude c) ≤ signed t (f.magnitude d)) = true) ↔ _
  rw [ha, hb, decide_eq_true_eq]

/-! ## The larger and the smaller of two numbers -/

theorem toRat?_maxNumber (ha : a.toRat? = some p) (hb : b.toRat? = some q) :
    (Scalar.maxNumber a b).toRat? = some (max p q) := by
  simp only [Scalar.maxNumber, le_iff_of_toRat? ha hb, le_iff_of_toRat? ha ha, le_refl, if_true]
  split
  · rw [hb, max_eq_right ‹_›]
  · rw [ha, max_eq_left (le_of_not_ge ‹_›)]

theorem toRat?_minNumber (ha : a.toRat? = some p) (hb : b.toRat? = some q) :
    (Scalar.minNumber a b).toRat? = some (min p q) := by
  simp only [Scalar.minNumber, le_iff_of_toRat? ha hb, le_iff_of_toRat? hb hb, le_refl, if_true]
  split
  · rw [ha, min_eq_left ‹_›]
  · rw [hb, min_eq_right (le_of_not_ge ‹_›)]

/-! ## Order of the operands -/

/-- Numbers that stand for the same rational are the same, but for the sign of a zero. -/
theorem eq_of_toRat? (ha : a.toRat? = some p) (hb : b.toRat? = some p) (hp : p ≠ 0) : a = b := by
  obtain ⟨s, c, rfl⟩ := exists_finite_of_toRat? ha
  obtain ⟨t, d, rfl⟩ := exists_finite_of_toRat? hb
  have hsign : s = t := by
    rw [Bool.eq_iff_iff, neg_iff_of_toRat? ha hp, neg_iff_of_toRat? hb hp]
  have hcode : f.magnitude c = f.magnitude d := by
    rw [abs_eq_of_toRat? ha, abs_eq_of_toRat? hb]
  rw [hsign, Fin.ext (f.magnitude_strictMono.injective hcode)]

theorem add_comm (a b : Binary f) : a + b = b + a := by
  change add a b = add b a
  cases a with
  | nan => cases b <;> rfl
  | infinite s =>
    cases b with
    | nan => rfl
    | infinite t => cases s <;> cases t <;> rfl
    | finite t d => rfl
  | finite s c =>
    cases b with
    | nan => rfl
    | infinite t => rfl
    | finite t d => simp only [add, Rat.add_comm (signed s (f.magnitude c)), Bool.and_comm s]

theorem minNumber_comm (ha : a.toRat? = some p) (hb : b.toRat? = some q) (hp : 0 < p)
    (hq : 0 < q) : Scalar.minNumber a b = Scalar.minNumber b a := by
  have hab := toRat?_minNumber ha hb
  have hba := toRat?_minNumber hb ha
  rw [min_comm] at hba
  exact eq_of_toRat? hab hba (lt_min hp hq).ne'

end Binary

/-! ## Errors of the 32-bit operations -/

namespace Binary32

open Format (single single_inRange abs_single_nearest_sub_le)

variable {a b : Binary32} {p q : Rat}

/-- `v` is `x` rounded once, for an `x` no larger than `bound`. -/
structure Rounded (v x bound : Rat) : Prop where
  eq : v = single.nearest x
  close : |v - x| ≤ bound / 2 ^ 24 + 1 / 2 ^ 150

private theorem rounded {x bound : Rat} (hx : |x| ≤ bound) : Rounded (single.nearest x) x bound :=
  ⟨rfl, (abs_single_nearest_sub_le x).trans (by linarith)⟩

namespace Rounded

variable {v w x y bound other : Rat}

theorem lower (h : Rounded v x bound) : x - (bound / 2 ^ 24 + 1 / 2 ^ 150) ≤ v := by
  linarith [(abs_le.1 h.close).1]

theorem upper (h : Rounded v x bound) : v ≤ x + (bound / 2 ^ 24 + 1 / 2 ^ 150) := by
  linarith [(abs_le.1 h.close).2]

theorem nonneg (h : Rounded v x bound) (hx : 0 ≤ x) : 0 ≤ v :=
  h.eq ▸ single.nearest_nonneg hx

/-- A number that is its own nearest value bounds what is rounded below it. -/
theorem le (h : Rounded v x bound) (hy : single.nearest y = y) (hxy : x ≤ y) : v ≤ y := by
  rw [h.eq, ← hy]
  exact single.nearest_mono hxy

theorem ge (h : Rounded v x bound) (hy : single.nearest y = y) (hyx : y ≤ x) : y ≤ v := by
  rw [h.eq, ← hy]
  exact single.nearest_mono hyx

end Rounded

theorem add_rounded (bound : Rat) (ha : a.toRat? = some p) (hb : b.toRat? = some q)
    (h : |p + q| ≤ bound) (hbound : bound ≤ 3 * 10 ^ 38) :
    ∃ v, (a + b).toRat? = some v ∧ Rounded v (p + q) bound :=
  ⟨_, Binary.toRat?_add ha hb (single_inRange (h.trans hbound)), rounded h⟩

theorem sub_rounded (bound : Rat) (ha : a.toRat? = some p) (hb : b.toRat? = some q)
    (h : |p - q| ≤ bound) (hbound : bound ≤ 3 * 10 ^ 38) :
    ∃ v, (a - b).toRat? = some v ∧ Rounded v (p - q) bound :=
  ⟨_, Binary.toRat?_sub ha hb (single_inRange (h.trans hbound)), rounded h⟩

theorem mul_rounded (bound : Rat) (ha : a.toRat? = some p) (hb : b.toRat? = some q)
    (h : |p * q| ≤ bound) (hbound : bound ≤ 3 * 10 ^ 38) :
    ∃ v, (a * b).toRat? = some v ∧ Rounded v (p * q) bound :=
  ⟨_, Binary.toRat?_mul ha hb (single_inRange (h.trans hbound)), rounded h⟩

theorem div_rounded (bound : Rat) (ha : a.toRat? = some p) (hb : b.toRat? = some q) (hq : q ≠ 0)
    (h : |p / q| ≤ bound) (hbound : bound ≤ 3 * 10 ^ 38) :
    ∃ v, (a / b).toRat? = some v ∧ Rounded v (p / q) bound :=
  ⟨_, Binary.toRat?_div ha hb hq (single_inRange (h.trans hbound)), rounded h⟩

end Binary32

end SeparableBlur

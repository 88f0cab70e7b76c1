-- SUMMARY: Binary numbers on a line with two infinite ends: they compare like their places, and sums are rounded to places in order.
import Mathlib.Order.WithBot
import SeparableBlur.Proofs.Binary

/-!
# The line of numbers

Infinite values take part in comparisons and sums like any other number. They are
the two ends of a line with the rationals in between, and every value but the one
that is not a number has its place there. Comparing numbers is comparing places,
and the place of a sum grows with its terms, whether they are rounded, too large
for the format, or infinite to begin with.
-/

namespace SeparableBlur

/-- The rationals between two infinite ends. -/
abbrev Line := WithBot (WithTop Rat)

namespace Format

variable (f : Format)

/-- The place of the value that `x` is rounded to. -/
def placeNearest (x : Rat) : Line :=
  if f.code |x| < f.infinityCode then ((f.nearest x : WithTop Rat) : Line)
  else if x < 0 then ⊥ else ⊤

theorem placeNearest_of_inRange {x : Rat} (h : f.InRange x) :
    f.placeNearest x = ((f.nearest x : WithTop Rat) : Line) := if_pos h

theorem placeNearest_mono {x y : Rat} (h : x ≤ y) : f.placeNearest x ≤ f.placeNearest y := by
  simp only [placeNearest]
  split_ifs with hx hy hy0 hx0 hy hy0 hy hy0
  · exact_mod_cast f.nearest_mono h
  · -- A negative number that is out of range has nothing in range below it.
    have habs : |y| ≤ |x| := abs_le_abs_of_nonpos hy0.le h
    exact absurd ((f.code_mono (abs_nonneg y) habs).trans_lt hx) hy
  · exact le_top
  · exact bot_le
  · exact bot_le
  · exact bot_le
  · have habs : |x| ≤ |y| := abs_le_abs_of_nonneg (not_lt.1 hx0) h
    exact absurd ((f.code_mono (abs_nonneg x) habs).trans_lt hy) hx
  · exact absurd (h.trans_lt hy0) hx0
  · exact le_rfl

/-- A positive number on the grid of the smallest magnitude is not rounded to zero. -/
theorem nearest_pos {n : Int} (h : 0 < n) : 0 < f.nearest (n * f.unit) := by
  have hunit := f.unit_pos
  have hone : f.nearest f.unit = f.unit := by
    simpa using f.nearest_grid (m := 1) 0 Nat.one_le_two_pow
  have hle : f.unit ≤ n * f.unit := le_mul_of_one_le_left hunit.le (by exact_mod_cast h)
  have := f.nearest_mono hle
  rw [hone] at this
  linarith

theorem inRange_zero (h : 0 < f.infinityCode) : f.InRange 0 := by
  have hcode : f.code 0 = 0 := by simpa using f.code_magnitude 0
  rwa [InRange, abs_zero, hcode]

theorem placeNearest_zero (h : 0 < f.infinityCode) : f.placeNearest 0 = 0 := by
  have hnearest : f.nearest 0 = 0 := by simpa using f.nearest_magnitude 0
  rw [f.placeNearest_of_inRange (f.inRange_zero h), hnearest]
  rfl

/-- Rounding keeps a number of that grid on its side of zero. -/
theorem placeNearest_pos_iff (h : 0 < f.infinityCode) (n : Int) :
    0 < f.placeNearest (n * f.unit) ↔ 0 < n := by
  have hunit := f.unit_pos
  constructor
  · intro hpos
    by_contra hn
    have hle : (n : Rat) * f.unit ≤ 0 :=
      mul_nonpos_of_nonpos_of_nonneg (by exact_mod_cast not_lt.1 hn) hunit.le
    have := f.placeNearest_mono hle
    rw [f.placeNearest_zero h] at this
    exact absurd hpos this.not_gt
  · intro hn
    have hpos : (0 : Rat) < n * f.unit := mul_pos (by exact_mod_cast hn) hunit
    rw [placeNearest, if_neg hpos.not_gt]
    split
    · exact_mod_cast f.nearest_pos hn
    · exact WithBot.coe_lt_coe.2 (WithTop.coe_lt_top 0)

end Format

namespace Binary

variable {f : Format} {a b c : Binary f}

/-! ## Places -/

/-- Where a number lies. What is not a number lies nowhere. -/
def place? : Binary f → Option Line
  | .nan => none
  | .infinite negative => some (if negative then ⊥ else ⊤)
  | .finite s c => some ((signed s (f.magnitude c) : WithTop Rat) : Line)

theorem place?_of_toRat? {x : Rat} (h : a.toRat? = some x) :
    a.place? = some ((x : WithTop Rat) : Line) := by
  obtain ⟨s, c, rfl⟩ := exists_finite_of_toRat? h
  exact congrArg (fun x : Rat => some ((x : WithTop Rat) : Line)) (Option.some.inj h)

theorem exists_place? (h : a ≠ .nan) : ∃ p, a.place? = some p := by
  cases a with
  | nan => exact absurd rfl h
  | infinite s => exact ⟨_, rfl⟩
  | finite s c => exact ⟨_, rfl⟩

/-! ## Comparison -/

section Comparison

variable {p q : Line} (ha : a.place? = some p) (hb : b.place? = some q)
include ha hb

theorem lt_iff_of_place? : a < b ↔ p < q := by
  change lt a b = true ↔ p < q
  rcases a with _ | s | ⟨s, c⟩ <;> rcases b with _ | t | ⟨t, d⟩ <;> cases ha <;> cases hb
  · cases s <;> cases t <;> simp [lt]
  · cases s <;> simp [lt]
  · cases t <;> simp [lt, ← WithBot.coe_top]
  · simp [lt]

theorem le_iff_of_place? : a ≤ b ↔ p ≤ q := by
  change le a b = true ↔ p ≤ q
  rcases a with _ | s | ⟨s, c⟩ <;> rcases b with _ | t | ⟨t, d⟩ <;> cases ha <;> cases hb
  · cases s <;> cases t <;> simp [le]
  · cases s <;> simp [le]
  · cases t <;> simp [le]
  · simp [le]

end Comparison

theorem ne_nan_of_lt (h : a < b) : a ≠ .nan ∧ b ≠ .nan := by
  constructor
  · rintro rfl
    cases h
  · rintro rfl
    cases a <;> cases h

theorem ne_nan_of_le (h : a ≤ b) : a ≠ .nan ∧ b ≠ .nan := by
  constructor
  · rintro rfl
    cases h
  · rintro rfl
    cases a <;> cases h

theorem exists_place?_of_lt (h : a < b) :
    ∃ p q, a.place? = some p ∧ b.place? = some q ∧ p < q := by
  obtain ⟨p, hp⟩ := exists_place? (ne_nan_of_lt h).1
  obtain ⟨q, hq⟩ := exists_place? (ne_nan_of_lt h).2
  exact ⟨p, q, hp, hq, (lt_iff_of_place? hp hq).1 h⟩

theorem exists_place?_of_le (h : a ≤ b) :
    ∃ p q, a.place? = some p ∧ b.place? = some q ∧ p ≤ q := by
  obtain ⟨p, hp⟩ := exists_place? (ne_nan_of_le h).1
  obtain ⟨q, hq⟩ := exists_place? (ne_nan_of_le h).2
  exact ⟨p, q, hp, hq, (le_iff_of_place? hp hq).1 h⟩

theorem infinite_le (h : a ≠ .nan) : infinite true ≤ a := by
  obtain ⟨p, hp⟩ := exists_place? h
  exact (le_iff_of_place? rfl hp).2 bot_le

theorem le_infinite (h : a ≠ .nan) : a ≤ infinite false := by
  obtain ⟨p, hp⟩ := exists_place? h
  exact (le_iff_of_place? hp rfl).2 le_top

protected theorem le_refl (h : a ≠ .nan) : a ≤ a := by
  obtain ⟨p, hp⟩ := exists_place? h
  exact (le_iff_of_place? hp hp).2 le_rfl

protected theorem le_of_lt (h : a < b) : a ≤ b := by
  obtain ⟨p, q, hp, hq, hpq⟩ := exists_place?_of_lt h
  exact (le_iff_of_place? hp hq).2 hpq.le

protected theorem le_trans (hab : a ≤ b) (hbc : b ≤ c) : a ≤ c := by
  obtain ⟨p, q, hp, hq, hpq⟩ := exists_place?_of_le hab
  obtain ⟨q', r, hq', hr, hqr⟩ := exists_place?_of_le hbc
  obtain rfl : q = q' := Option.some.inj (hq.symm.trans hq')
  exact (le_iff_of_place? hp hr).2 (hpq.trans hqr)

protected theorem lt_of_le_of_lt (hab : a ≤ b) (hbc : b < c) : a < c := by
  obtain ⟨p, q, hp, hq, hpq⟩ := exists_place?_of_le hab
  obtain ⟨q', r, hq', hr, hqr⟩ := exists_place?_of_lt hbc
  obtain rfl : q = q' := Option.some.inj (hq.symm.trans hq')
  exact (lt_iff_of_place? hp hr).2 (hpq.trans_lt hqr)

protected theorem lt_of_lt_of_le (hab : a < b) (hbc : b ≤ c) : a < c := by
  obtain ⟨p, q, hp, hq, hpq⟩ := exists_place?_of_lt hab
  obtain ⟨q', r, hq', hr, hqr⟩ := exists_place?_of_le hbc
  obtain rfl : q = q' := Option.some.inj (hq.symm.trans hq')
  exact (lt_iff_of_place? hp hr).2 (hpq.trans_le hqr)

theorem not_lt_of_le (hab : a ≤ b) : ¬b < a := by
  obtain ⟨p, q, hp, hq, hpq⟩ := exists_place?_of_le hab
  rw [lt_iff_of_place? hq hp]
  exact hpq.not_gt

/-! ## Rounded results -/

/-- Rounding with the sign of `x`, to infinity where `x` is out of range. -/
theorem place?_round {s : Bool} {x : Rat} (hf : 0 < f.infinityCode)
    (hs : x ≠ 0 → (s = true ↔ x < 0)) :
    (round s |x| : Binary f).place? = some (f.placeNearest x) := by
  by_cases hrange : f.InRange x
  · rw [place?_of_toRat? (toRat?_round hs hrange), f.placeNearest_of_inRange hrange]
  · have hne : x ≠ 0 := by
      rintro rfl
      exact hrange (f.inRange_zero hf)
    rw [Format.InRange] at hrange
    rw [round, dif_neg hrange, Format.placeNearest, if_neg hrange]
    simp [place?, hs hne]

theorem infinityCode_pos_of_toRat? {x : Rat} (h : a.toRat? = some x) : 0 < f.infinityCode := by
  obtain ⟨s, c, rfl⟩ := exists_finite_of_toRat? h
  exact Nat.zero_lt_of_lt c.isLt

/-- The sum of finite numbers, rounded to its place. -/
theorem place?_add {x y : Rat} (ha : a.toRat? = some x) (hb : b.toRat? = some y) :
    (a + b).place? = some (f.placeNearest (x + y)) := by
  obtain ⟨s, heq, hs⟩ := exists_add_eq_round ha hb
  rw [heq]
  exact place?_round (infinityCode_pos_of_toRat? ha) hs

/-- The product of finite numbers, rounded to its place. -/
theorem place?_mul {x y : Rat} (ha : a.toRat? = some x) (hb : b.toRat? = some y) :
    (a * b).place? = some (f.placeNearest (x * y)) := by
  obtain ⟨s, heq, hs⟩ := exists_mul_eq_round ha hb
  rw [heq]
  exact place?_round (infinityCode_pos_of_toRat? ha) hs

theorem place?_ceil {x : Rat} (ha : a.toRat? = some x) :
    (Scalar.ceil a).place? = some (f.placeNearest x.ceil) := by
  obtain ⟨s, heq, hs⟩ := exists_ceil_eq_round ha
  rw [heq]
  exact place?_round (infinityCode_pos_of_toRat? ha) hs

/-! ## Monotone maps -/

/-- An operation that leaves the infinite ends where they are is monotone if it is monotone on the
    numbers in between. -/
theorem map_le_map_of_ends {g : Binary f → Binary f} (hends : ∀ s, g (infinite s) = infinite s)
    (hfinite : ∀ {a b : Binary f} {x y : Rat}, a.toRat? = some x → b.toRat? = some y → x ≤ y →
      g a ≤ g b) (h : a ≤ b) : g a ≤ g b := by
  have hnumber : ∀ {c : Binary f}, c ≠ .nan → g c ≠ .nan := by
    intro c hc
    cases c with
    | nan => exact absurd rfl hc
    | infinite s =>
      rw [hends s]
      nofun
    | finite s d =>
      have hself : g (finite s d) ≤ g (finite s d) := hfinite rfl rfl le_rfl
      exact (ne_nan_of_le hself).1
  obtain ⟨ha, hb⟩ := ne_nan_of_le h
  cases a with
  | nan => exact absurd rfl ha
  | infinite s =>
    cases s with
    | true =>
      rw [hends]
      exact infinite_le (hnumber hb)
    | false =>
      -- Nothing but the upper end itself lies above it.
      cases b with
      | nan => exact absurd rfl hb
      | infinite t =>
        cases t with
        | true => cases h
        | false => exact Binary.le_refl (hnumber hb)
      | finite t d => cases h
  | finite s c =>
    cases b with
    | nan => exact absurd rfl hb
    | infinite t =>
      cases t with
      | true => cases h
      | false =>
        rw [hends]
        exact le_infinite (hnumber ha)
    | finite t d =>
      rw [le_iff_of_toRat? (a := finite s c) (b := finite t d) rfl rfl] at h
      exact hfinite rfl rfl h

/-! ## Sums -/

/-- A sum of numbers is a number, unless they lie at opposite ends. -/
theorem add_ne_nan (ha : a ≠ .nan) (hb : b ≠ .nan) (h : ∀ s, a = infinite s → b ≠ infinite !s) :
    a + b ≠ .nan := by
  cases a with
  | nan => exact absurd rfl ha
  | infinite s =>
    cases b with
    | nan => exact absurd rfl hb
    | infinite t =>
      have hst : s = t := by
        cases s <;> cases t <;> first | rfl | exact absurd rfl (h _ rfl)
      have hsum : (infinite s + infinite t : Binary f) = infinite s := if_pos hst
      rw [hsum]
      nofun
    | finite t d => nofun
  | finite s c =>
    cases b with
    | nan => exact absurd rfl hb
    | infinite t => nofun
    | finite t d =>
      intro hnan
      have hplace : (finite s c + finite t d : Binary f).place? = some _ := place?_add rfl rfl
      rw [hnan] at hplace
      cases hplace

/-- A sum with an infinite term is that term, if it is a number. -/
theorem infinite_add {s : Bool} (h : infinite s + a ≠ .nan) : infinite s + a = infinite s := by
  cases a with
  | nan => exact absurd rfl h
  | infinite t => cases s <;> cases t <;> first | rfl | exact absurd rfl h
  | finite t d => rfl

/-- A sum grows with its second term. -/
theorem add_le_add_of_ne_nan (h : b ≤ c) (hb : a + b ≠ .nan) (hc : a + c ≠ .nan) :
    a + b ≤ a + c := by
  cases a with
  | nan => exact absurd rfl hb
  | infinite s =>
    rw [infinite_add hb, infinite_add hc]
    exact Binary.le_refl nofun
  | finite s d =>
    refine map_le_map_of_ends (g := (finite s d + ·)) (fun _ => rfl) ?_ h
    intro b c x y hb hc hxy
    refine (le_iff_of_place? (place?_add rfl hb) (place?_add rfl hc)).2 ?_
    exact f.placeNearest_mono (by linarith)

/-! ## Monotone operations -/

theorem sub_le_sub_of_toRat? {z : Rat} (h : a ≤ b) (hc : c.toRat? = some z) : a - c ≤ b - c := by
  refine map_le_map_of_ends (g := (· - c)) (fun s => ?_) ?_ h
  · obtain ⟨t, d, rfl⟩ := exists_finite_of_toRat? hc
    rfl
  · intro a b x y ha hb hxy
    have hneg := toRat?_neg hc
    refine (le_iff_of_place? (place?_add ha hneg) (place?_add hb hneg)).2 ?_
    exact f.placeNearest_mono (by linarith)

theorem mul_le_mul_of_pos {z : Rat} (h : a ≤ b) (hc : c.toRat? = some z) (hz : 0 < z) :
    a * c ≤ b * c := by
  refine map_le_map_of_ends (g := (· * c)) (fun s => ?_) ?_ h
  · obtain ⟨t, d, rfl⟩ := exists_finite_of_toRat? hc
    have hd : d.val ≠ 0 := by
      intro h0
      have hmag := abs_eq_of_toRat? hc
      rw [h0, f.magnitude_zero, eq_comm, abs_eq_zero] at hmag
      exact hz.ne' hmag
    obtain rfl : t = false := by
      rw [← Bool.not_eq_true, neg_iff_of_toRat? hc hz.ne']
      exact hz.not_gt
    change (if d.val = 0 then .nan else .infinite (s ^^ false) : Binary f) = infinite s
    rw [if_neg hd, Bool.xor_false]
  · intro a b x y ha hb hxy
    refine (le_iff_of_place? (place?_mul ha hc) (place?_mul hb hc)).2 ?_
    exact f.placeNearest_mono (mul_le_mul_of_nonneg_right hxy hz.le)

theorem ceil_le_ceil (h : a ≤ b) : Scalar.ceil a ≤ Scalar.ceil b := by
  refine map_le_map_of_ends (g := Scalar.ceil) (fun _ => rfl) ?_ h
  intro a b x y ha hb hxy
  refine (le_iff_of_place? (place?_ceil ha) (place?_ceil hb)).2 (f.placeNearest_mono ?_)
  exact_mod_cast Rat.ceil_le_iff.2 (hxy.trans Rat.le_ceil)

theorem place?_minNumber {p q : Line} (ha : a.place? = some p) (hb : b.place? = some q) :
    (Scalar.minNumber a b).place? = some (min p q) := by
  simp only [Scalar.minNumber, le_iff_of_place? ha hb, le_iff_of_place? hb hb, le_refl, if_true]
  split
  · rw [ha, min_eq_left ‹_›]
  · rw [hb, min_eq_right (le_of_not_ge ‹_›)]

theorem minNumber_nan (a : Binary f) : Scalar.minNumber a .nan = a := by
  cases a <;> rfl

theorem nan_minNumber (h : a ≠ .nan) : Scalar.minNumber .nan a = a :=
  if_pos (Binary.le_refl h)

/-- The smaller of two numbers grows with each of them, also where the other is not a number. -/
theorem minNumber_le_minNumber (h : a ≤ b) (c : Binary f) :
    Scalar.minNumber a c ≤ Scalar.minNumber b c ∧ Scalar.minNumber c a ≤ Scalar.minNumber c b := by
  obtain ⟨p, q, hp, hq, hpq⟩ := exists_place?_of_le h
  by_cases hc : c = .nan
  · obtain ⟨ha, hb⟩ := ne_nan_of_le h
    rw [hc, minNumber_nan, minNumber_nan, nan_minNumber ha, nan_minNumber hb]
    exact ⟨h, h⟩
  · obtain ⟨r, hr⟩ := exists_place? hc
    constructor
    · exact (le_iff_of_place? (place?_minNumber hp hr) (place?_minNumber hq hr)).2
        (min_le_min_right r hpq)
    · exact (le_iff_of_place? (place?_minNumber hr hp) (place?_minNumber hr hq)).2
        (min_le_min_left r hpq)

/-! ## Terms on one side of zero -/

theorem placeNearest_of_toRat? {x : Rat} (h : a.toRat? = some x) :
    f.placeNearest x = ((x : WithTop Rat) : Line) := by
  have hnearest := nearest_of_toRat? h
  obtain ⟨s, c, rfl⟩ := exists_finite_of_toRat? h
  have hrange : f.InRange x := by
    rw [Format.InRange, ← abs_eq_of_toRat? h, f.code_magnitude]
    exact c.isLt
  rw [f.placeNearest_of_inRange hrange, hnearest]

/-- Finite numbers lie on the grid of the smallest magnitude. -/
theorem exists_mul_unit (s : Bool) (c : Fin f.infinityCode) :
    ∃ n : Int, (finite s c : Binary f).toRat? = some (n * f.unit) := by
  cases s with
  | false => exact ⟨f.multiple c, rfl⟩
  | true =>
    refine ⟨-f.multiple c, congrArg some ?_⟩
    rw [signed, if_pos rfl, Format.magnitude]
    push_cast
    ring

/-- No positive number is smaller than the smallest magnitude. -/
theorem unit_le_of_toRat? {x : Rat} (h : a.toRat? = some x) (hx : 0 < x) : f.unit ≤ x := by
  obtain ⟨s, c, rfl⟩ := exists_finite_of_toRat? h
  obtain ⟨n, hn⟩ := exists_mul_unit s c
  obtain rfl : n * f.unit = x := Option.some.inj (hn.symm.trans h)
  have hunit := f.unit_pos
  have hn0 : 0 < n := by exact_mod_cast pos_of_mul_pos_left hx hunit.le
  exact le_mul_of_one_le_left hunit.le (by exact_mod_cast hn0)

section

variable (hf : 0 < f.infinityCode)
include hf

theorem toRat?_zero : (0 : Binary f).toRat? = some 0 := by
  have hnearest : f.nearest 0 = 0 := by simpa using f.nearest_magnitude 0
  exact (toRat?_round_false le_rfl (f.inRange_zero hf)).trans (congrArg some hnearest)

/-- Adding zero does not move a number. -/
theorem place?_add_zero (h : a ≠ .nan) : (a + 0).place? = a.place? := by
  have hzero : (0 : Binary f).toRat? = some 0 := toRat?_zero hf
  cases a with
  | nan => exact absurd rfl h
  | infinite s =>
    obtain ⟨t, d, h0⟩ := exists_finite_of_toRat? hzero
    rw [h0]
    rfl
  | finite s c =>
    have hx : (finite s c : Binary f).toRat? = some (signed s (f.magnitude c)) := rfl
    rw [place?_add hx hzero, add_zero, placeNearest_of_toRat? hx, place?_of_toRat? hx]

protected theorem abs_nonneg (h : a.abs ≠ .nan) : 0 ≤ a.abs := by
  have hzero : (0 : Binary f).toRat? = some 0 := toRat?_zero hf
  cases a with
  | nan => exact absurd rfl h
  | infinite s =>
    refine le_infinite ?_
    intro h0
    rw [h0] at hzero
    cases hzero
  | finite s c => exact (le_iff_of_toRat? hzero rfl).2 (f.magnitude_nonneg c)

theorem ne_infinite_of_nonneg (h : 0 ≤ a) : a ≠ infinite true := by
  rintro rfl
  obtain ⟨t, d, h0⟩ := exists_finite_of_toRat? (toRat?_zero hf)
  rw [h0] at h
  cases h

theorem ne_infinite_of_nonpos (h : a ≤ 0) : a ≠ infinite false := by
  rintro rfl
  obtain ⟨t, d, h0⟩ := exists_finite_of_toRat? (toRat?_zero hf)
  rw [h0] at h
  cases h

/-- A number grows by what is not negative, unless that would take it back from an infinite end. -/
protected theorem le_add_of_nonneg (ha : infinite true < a) (hb : 0 ≤ b) : a ≤ a + b := by
  obtain ⟨p, hp⟩ := exists_place? (ne_nan_of_lt ha).2
  have hzero := (place?_add_zero hf (ne_nan_of_lt ha).2).trans hp
  have hle : a ≤ a + 0 := (le_iff_of_place? hp hzero).2 le_rfl
  refine Binary.le_trans hle (add_le_add_of_ne_nan hb (ne_nan_of_le hle).2 ?_)
  refine add_ne_nan (ne_nan_of_lt ha).2 (ne_nan_of_le hb).2 fun s hs => ?_
  rw [hs] at ha
  cases s with
  | false => exact ne_infinite_of_nonneg hf hb
  | true => cases ha

protected theorem neg_nonpos (h : 0 ≤ a) : -a ≤ 0 := by
  have hzero : (0 : Binary f).toRat? = some 0 := toRat?_zero hf
  cases a with
  | nan => exact absurd rfl (ne_nan_of_le h).2
  | infinite s =>
    cases s with
    | false => exact infinite_le (ne_nan_of_le h).1
    | true => exact absurd rfl (ne_infinite_of_nonneg hf h)
  | finite s c =>
    have hx : (finite s c : Binary f).toRat? = some (signed s (f.magnitude c)) := rfl
    rw [le_iff_of_toRat? hzero hx] at h
    exact (le_iff_of_toRat? (toRat?_neg hx) hzero).2 (by linarith)

/-- A number shrinks by what is not negative, unless that would take it back from an infinite
    end. -/
theorem sub_le_of_nonneg (ha : a < infinite false) (hb : 0 ≤ b) : a - b ≤ a := by
  obtain ⟨p, hp⟩ := exists_place? (ne_nan_of_lt ha).1
  have hzero := (place?_add_zero hf (ne_nan_of_lt ha).1).trans hp
  have hle : a + 0 ≤ a := (le_iff_of_place? hzero hp).2 le_rfl
  have hneg := Binary.neg_nonpos hf hb
  refine Binary.le_trans (add_le_add_of_ne_nan hneg ?_ (ne_nan_of_le hle).1) hle
  refine add_ne_nan (ne_nan_of_lt ha).1 (ne_nan_of_le hneg).1 fun s hs => ?_
  rw [hs] at ha
  cases s with
  | false => cases ha
  | true => exact ne_infinite_of_nonpos hf hneg

/-- A difference is positive exactly where the numbers are in order. Rounding does not bring it to
    zero. -/
theorem sub_pos_iff : 0 < a - b ↔ b < a := by
  have hzero : (0 : Binary f).toRat? = some 0 := toRat?_zero hf
  obtain ⟨z, d₀, h0⟩ := exists_finite_of_toRat? hzero
  cases a with
  | nan => exact iff_of_false (fun h => (ne_nan_of_lt h).2 rfl) fun h => (ne_nan_of_lt h).2 rfl
  | infinite s =>
    rw [h0]
    cases b with
    | nan => exact iff_of_false (fun h => (ne_nan_of_lt h).2 rfl) nofun
    | infinite t => cases s <;> cases t <;> exact Iff.rfl
    | finite t d => cases s <;> exact Iff.rfl
  | finite s c =>
    cases b with
    | nan => exact iff_of_false (fun h => (ne_nan_of_lt h).2 rfl) nofun
    | infinite t =>
      rw [h0]
      cases t <;> exact Iff.rfl
    | finite t d =>
      obtain ⟨m, hm⟩ := exists_mul_unit s c
      obtain ⟨n, hn⟩ := exists_mul_unit t d
      have hdiff : (finite s c - finite t d : Binary f).place? =
          some (f.placeNearest ((m - n : Int) * f.unit)) := by
        have hplace := place?_add hm (toRat?_neg hn)
        rwa [← sub_eq_add_neg, ← sub_mul, ← Int.cast_sub] at hplace
      have hplace0 : (0 : Binary f).place? = some 0 := place?_of_toRat? hzero
      have hunit := f.unit_pos
      rw [lt_iff_of_place? hplace0 hdiff, f.placeNearest_pos_iff hf, lt_iff_of_toRat? hn hm,
        mul_lt_mul_iff_left₀ hunit, Int.cast_lt, sub_pos]

end

end Binary

end SeparableBlur

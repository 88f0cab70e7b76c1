-- SUMMARY: Rounding to a binary format: the codes are ordered like their magnitudes, and the nearest value is monotone, exact on its grid, and close.
import Mathlib.Algebra.Order.Field.Basic
import Mathlib.Data.Nat.Log
import Mathlib.Data.Rat.Floor
import Mathlib.Tactic.FieldSimp
import Mathlib.Tactic.Linarith
import Mathlib.Tactic.LinearCombination
import Mathlib.Tactic.Positivity
import Mathlib.Tactic.Push
import Mathlib.Tactic.Ring
import Mathlib.Tactic.Zify
import SeparableBlur.Scalar.Binary

/-!
# Rounding to a binary format

`Format.nearest` is the value that a rational is rounded to, without regard to
the range of the format. Everything that a bound on a rounded formula needs is a
property of it: it is odd and monotone, it leaves alone what lies on its grid,
and it is off by at most half a spacing.
-/

namespace SeparableBlur

/-! ## Nearest integers -/

theorem halfEven_eq_floor_or (x : Rat) : halfEven x = x.floor ∨ halfEven x = x.floor + 1 := by
  simp only [halfEven]
  split_ifs <;> simp

theorem halfEven_intCast (n : Int) : halfEven (n : Rat) = n := by
  simp [halfEven, Rat.floor_intCast]

theorem abs_halfEven_sub_le (x : Rat) : |(halfEven x : Rat) - x| ≤ 1 / 2 := by
  have hle := Rat.floor_le x
  have hlt := Rat.lt_floor_add_one x
  push_cast at hlt
  simp only [halfEven]
  rw [abs_le]
  split_ifs <;> push_cast <;> constructor <;> linarith

theorem halfEven_mono {x y : Rat} (h : x ≤ y) : halfEven x ≤ halfEven y := by
  rcases (Rat.floor_monotone h).lt_or_eq with hlt | heq
  · have hx := halfEven_eq_floor_or x
    have hy := halfEven_eq_floor_or y
    omega
  · -- Both lie between the same integers, so the fractions are ordered like the numbers.
    simp only [halfEven, heq]
    split_ifs <;> first | omega | (exfalso; linarith)

theorem le_halfEven {n : Int} {x : Rat} (h : (n : Rat) ≤ x) : n ≤ halfEven x := by
  simpa [halfEven_intCast] using halfEven_mono h

theorem halfEven_le {n : Int} {x : Rat} (h : x ≤ (n : Rat)) : halfEven x ≤ n := by
  simpa [halfEven_intCast] using halfEven_mono h

namespace Format

variable (f : Format)

/-! ## Codes and magnitudes -/

theorem unit_pos : 0 < f.unit := by
  simp only [unit]
  positivity

theorem unit_mul_scale : f.unit * 2 ^ f.unitExponent = 1 := by
  simp only [unit]
  field_simp

/-- The codes of one spacing: `m` steps of it, after `k` doublings. -/
theorem multiple_add {m k : Nat} (hm : m ≤ 2 ^ (f.fractionBits + 1))
    (hk : k = 0 ∨ 2 ^ f.fractionBits ≤ m) :
    f.multiple (m + k <<< f.fractionBits) = m * 2 ^ k := by
  have hpos : 0 < 2 ^ f.fractionBits := by positivity
  have hdouble : 2 ^ (f.fractionBits + 1) = 2 * 2 ^ f.fractionBits := by ring
  simp only [multiple, doublings, Nat.shiftLeft_eq, Nat.shiftRight_eq_div_pow]
  rw [Nat.add_mul_div_right _ _ hpos]
  generalize 2 ^ f.fractionBits = b at *
  rcases Nat.lt_or_ge m b with hlt | hge
  · obtain rfl : k = 0 := by omega
    simp [Nat.div_eq_of_lt hlt]
  · rcases Nat.lt_or_ge m (2 * b) with hlt | hge'
    · have hq : m / b = 1 := Nat.div_eq_of_lt_le (by omega) (by omega)
      simp [hq]
    · -- The last code of a binade plus one counts in the next, at twice the spacing.
      obtain rfl : m = 2 * b := by omega
      have hq : 2 * b / b = 2 := Nat.mul_div_cancel 2 hpos
      have hk' : 2 + k - 1 = k + 1 := by omega
      rw [hq, hk', pow_succ]
      have hsub : 2 * b + k * b - (k + 1) * b = b := by
        rw [Nat.add_mul, Nat.one_mul]; omega
      rw [hsub]; ring

/-- A code is a significand and a number of doublings, of which there are none below the first
    full binade. -/
theorem exists_significand (c : Nat) : ∃ m k : Nat, c = m + k <<< f.fractionBits ∧
    m < 2 ^ (f.fractionBits + 1) ∧ (k = 0 ∨ 2 ^ f.fractionBits ≤ m) := by
  have hpos : 0 < 2 ^ f.fractionBits := by positivity
  have hdouble : 2 ^ (f.fractionBits + 1) = 2 * 2 ^ f.fractionBits := by ring
  simp only [Nat.shiftLeft_eq]
  have hdiv := Nat.div_add_mod c (2 ^ f.fractionBits)
  have hmod := Nat.mod_lt c hpos
  generalize 2 ^ f.fractionBits = b at *
  cases hq : c / b with
  | zero =>
    rw [hq] at hdiv
    exact ⟨c, 0, by simp, by omega, .inl rfl⟩
  | succ k =>
    have : b * (k + 1) = k * b + b := by ring
    rw [hq] at hdiv
    exact ⟨b + c % b, k, by omega, by omega, .inr (by omega)⟩

theorem multiple_lt_succ (c : Nat) : f.multiple c < f.multiple (c + 1) := by
  obtain ⟨m, k, rfl, hm, hk⟩ := f.exists_significand c
  have h := f.multiple_add hm.le hk
  have h' := f.multiple_add (m := m + 1) (k := k) hm (hk.imp_right (by omega))
  rw [show m + k <<< f.fractionBits + 1 = m + 1 + k <<< f.fractionBits by omega, h, h']
  exact Nat.mul_lt_mul_of_pos_right (by omega) (by positivity)

theorem multiple_strictMono : StrictMono f.multiple :=
  strictMono_nat_of_lt_succ f.multiple_lt_succ

theorem magnitude_strictMono : StrictMono f.magnitude := by
  intro c d h
  have := f.multiple_strictMono h
  simp only [magnitude]
  have hcast : (f.multiple c : Rat) < f.multiple d := by exact_mod_cast this
  exact mul_lt_mul_of_pos_right hcast f.unit_pos

@[simp] theorem magnitude_zero : f.magnitude 0 = 0 := by
  simp [magnitude, multiple, doublings]

theorem magnitude_nonneg (c : Nat) : 0 ≤ f.magnitude c := by
  simpa using f.magnitude_strictMono.monotone (Nat.zero_le c)

/-! ## The code of a rational -/

/-- The significand that `code` rounds to. -/
private def significand (x : Rat) : Rat := x * 2 ^ f.unitExponent / 2 ^ f.doublingsAt x

private theorem eq_significand_mul (x : Rat) :
    x = f.significand x * 2 ^ f.doublingsAt x * f.unit := by
  have hpow : (0 : Rat) < 2 ^ f.doublingsAt x := by positivity
  simp only [significand]
  rw [div_mul_cancel₀ _ hpow.ne', mul_assoc, mul_comm (2 ^ _), f.unit_mul_scale, mul_one]

/-- A number is less than two binades of its spacing. -/
private theorem significand_lt (x : Rat) : f.significand x < 2 ^ (f.fractionBits + 1) := by
  set n := (x * 2 ^ f.unitExponent).floor.toNat with hn
  have hscaled : x * 2 ^ f.unitExponent < n + 1 := Nat.lt_floor_add_one _
  have hk : f.doublingsAt x = n.log2 - f.fractionBits := rfl
  have hlog : n + 1 ≤ 2 ^ (n.log2 + 1) := Nat.lt_log2_self
  have hle : 2 ^ (n.log2 + 1) ≤ 2 ^ (f.fractionBits + 1 + f.doublingsAt x) :=
    Nat.pow_le_pow_right (by norm_num) (by omega)
  rw [significand, div_lt_iff₀ (by positivity), ← pow_add]
  exact hscaled.trans_le (by exact_mod_cast hlog.trans hle)

/-- A number is at least one binade of its spacing, unless the spacing is the smallest. -/
private theorem le_significand {x : Rat} (hx : 0 ≤ x) (h : f.doublingsAt x ≠ 0) :
    2 ^ f.fractionBits ≤ f.significand x := by
  set n := (x * 2 ^ f.unitExponent).floor.toNat with hn
  have hscaled : (n : Rat) ≤ x * 2 ^ f.unitExponent := Nat.floor_le (by positivity)
  have hk : f.doublingsAt x = n.log2 - f.fractionBits := rfl
  have hn0 : n ≠ 0 := by
    intro h0
    rw [hk, h0] at h
    exact h (Nat.zero_sub _)
  have hlog : 2 ^ n.log2 ≤ n := Nat.log2_self_le hn0
  rw [show n.log2 = f.fractionBits + f.doublingsAt x by omega] at hlog
  rw [significand, le_div_iff₀ (by positivity), ← pow_add]
  exact le_trans (by exact_mod_cast hlog) hscaled

/-- The rounded significand stays within its two binades. -/
private theorem halfEven_significand {x : Rat} (hx : 0 ≤ x) :
    ∃ m : Nat, halfEven (f.significand x) = m ∧ m ≤ 2 ^ (f.fractionBits + 1) ∧
      (f.doublingsAt x = 0 ∨ 2 ^ f.fractionBits ≤ m) := by
  have h0 : 0 ≤ f.significand x := by
    simp only [significand]
    positivity
  have hnonneg : 0 ≤ halfEven (f.significand x) := le_halfEven (by simpa using h0)
  obtain ⟨m, hm⟩ := Int.eq_ofNat_of_zero_le hnonneg
  refine ⟨m, hm, ?_, ?_⟩
  · have : halfEven (f.significand x) ≤ ((2 ^ (f.fractionBits + 1) : Nat) : Int) :=
      halfEven_le (by push_cast; exact (f.significand_lt x).le)
    omega
  · rcases eq_or_ne (f.doublingsAt x) 0 with hk | hk
    · exact .inl hk
    · have : ((2 ^ f.fractionBits : Nat) : Int) ≤ halfEven (f.significand x) :=
        le_halfEven (by push_cast; exact f.le_significand hx hk)
      omega

/-- The magnitude of the code is the rounded significand, put back on its spacing. -/
private theorem magnitude_code {x : Rat} (hx : 0 ≤ x) :
    f.magnitude (f.code x) =
      halfEven (f.significand x) * 2 ^ f.doublingsAt x * f.unit := by
  obtain ⟨m, hm, hle, hge⟩ := f.halfEven_significand hx
  have hcode : f.code x = m + f.doublingsAt x <<< f.fractionBits := by
    simp only [code]
    rw [show halfEven (x * 2 ^ f.unitExponent / 2 ^ f.doublingsAt x) = m from hm]
    simp
  rw [hcode, magnitude, f.multiple_add hle hge, hm]
  push_cast
  ring

theorem doublingsAt_mono {x y : Rat} (h : x ≤ y) : f.doublingsAt x ≤ f.doublingsAt y := by
  have hscale : x * 2 ^ f.unitExponent ≤ y * 2 ^ f.unitExponent :=
    mul_le_mul_of_nonneg_right h (by positivity)
  have hlog := Nat.log_mono_right (b := 2) (Int.toNat_le_toNat (Rat.floor_monotone hscale))
  simp only [doublingsAt, Nat.log2_eq_log_two]
  omega

/-- Before the end of a binade the spacing has not doubled more often. -/
theorem doublingsAt_le {x : Rat} {k : Nat}
    (h : x < 2 ^ (f.fractionBits + 1 + k) * f.unit) : f.doublingsAt x ≤ k := by
  have hscale : x * 2 ^ f.unitExponent < (2 ^ (f.fractionBits + 1 + k) : Nat) := by
    have := mul_lt_mul_of_pos_right h (show (0 : Rat) < 2 ^ f.unitExponent by positivity)
    rw [mul_assoc, f.unit_mul_scale, mul_one] at this
    exact_mod_cast this
  rw [doublingsAt]
  set n := (x * 2 ^ f.unitExponent).floor.toNat
  rcases Nat.eq_zero_or_pos n with h0 | h0
  · simp [h0]
  · have hn : n < 2 ^ (f.fractionBits + 1 + k) := (Nat.floor_lt' (by positivity)).2 hscale
    have := (Nat.log2_lt h0.ne').2 hn
    omega

/-- From the beginning of a binade on the spacing has doubled as often. -/
theorem le_doublingsAt {x : Rat} {k : Nat} (h : 2 ^ (f.fractionBits + k) * f.unit ≤ x) :
    k ≤ f.doublingsAt x := by
  have hscale : ((2 ^ (f.fractionBits + k) : Nat) : Rat) ≤ x * 2 ^ f.unitExponent := by
    have := mul_le_mul_of_nonneg_right h (show (0 : Rat) ≤ 2 ^ f.unitExponent by positivity)
    rw [mul_assoc, f.unit_mul_scale, mul_one] at this
    exact_mod_cast this
  have hn : 2 ^ (f.fractionBits + k) ≤ (x * 2 ^ f.unitExponent).floor.toNat := Nat.le_floor hscale
  have := (Nat.le_log2 ((Nat.two_pow_pos _).trans_le hn).ne').2 hn
  rw [doublingsAt]
  omega

/-- A rounded significand on one spacing is at most one on a wider spacing. -/
private theorem binade_le {m n k l : Nat} (hm : m ≤ 2 ^ (f.fractionBits + 1))
    (hn : 2 ^ f.fractionBits ≤ n) (h : k < l) : m * 2 ^ k ≤ n * 2 ^ l :=
  calc m * 2 ^ k
      ≤ 2 ^ (f.fractionBits + 1) * 2 ^ k := Nat.mul_le_mul_right _ hm
    _ = 2 ^ f.fractionBits * 2 ^ (k + 1) := by ring
    _ ≤ n * 2 ^ (k + 1) := Nat.mul_le_mul_right _ hn
    _ ≤ n * 2 ^ l := Nat.mul_le_mul_left _ (Nat.pow_le_pow_right (by norm_num) h)

theorem code_mono {x y : Rat} (hx : 0 ≤ x) (h : x ≤ y) : f.code x ≤ f.code y := by
  rw [← f.magnitude_strictMono.le_iff_le, f.magnitude_code hx, f.magnitude_code (hx.trans h)]
  refine mul_le_mul_of_nonneg_right ?_ f.unit_pos.le
  rcases (f.doublingsAt_mono h).eq_or_lt with heq | hlt
  · -- On one spacing the significands are ordered like the numbers.
    have hsig : f.significand x ≤ f.significand y := by
      rw [significand, significand, heq]
      exact div_le_div_of_nonneg_right (mul_le_mul_of_nonneg_right h (by positivity))
        (by positivity)
    have hround : (halfEven (f.significand x) : Rat) ≤ halfEven (f.significand y) := by
      exact_mod_cast halfEven_mono hsig
    rw [heq]
    exact mul_le_mul_of_nonneg_right hround (by positivity)
  · -- Otherwise the smaller number ends before the binade of the larger begins.
    obtain ⟨m, hm, hmle, -⟩ := f.halfEven_significand hx
    obtain ⟨n, hn, -, hnge⟩ := f.halfEven_significand (hx.trans h)
    have hnge : 2 ^ f.fractionBits ≤ n := by omega
    rw [hm, hn]
    exact_mod_cast f.binade_le hmle hnge hlt

private theorem magnitude_code_of_lt {m : Nat} (e : Nat) (hm : m < 2 ^ (f.fractionBits + 1)) :
    f.magnitude (f.code (m * 2 ^ e * f.unit)) = m * 2 ^ e * f.unit := by
  have hunit := f.unit_pos
  have hx : (0 : Rat) ≤ m * 2 ^ e * f.unit := by positivity
  have hscale : (m * 2 ^ e * f.unit : Rat) * 2 ^ f.unitExponent = (m * 2 ^ e : Nat) := by
    rw [mul_assoc, f.unit_mul_scale]
    push_cast
    ring
  -- The spacing around the number divides it.
  have hk : f.doublingsAt (m * 2 ^ e * f.unit) ≤ e := by
    refine f.doublingsAt_le (mul_lt_mul_of_pos_right ?_ hunit)
    rw [pow_add]
    have hm' : (m : Rat) < 2 ^ (f.fractionBits + 1) := by exact_mod_cast hm
    exact mul_lt_mul_of_pos_right hm' (by positivity)
  rw [f.magnitude_code hx]
  generalize hk' : f.doublingsAt (m * 2 ^ e * f.unit) = k at hk
  obtain ⟨j, rfl⟩ := Nat.exists_eq_add_of_le hk
  have hsig : f.significand (m * 2 ^ (k + j) * f.unit) = ((m * 2 ^ j : Nat) : Int) := by
    simp only [significand, hscale, hk']
    push_cast
    field_simp
    ring
  rw [hsig, halfEven_intCast]
  push_cast
  ring

/-- What lies on the grid of a spacing, within two binades of it, is left alone. -/
theorem magnitude_code_grid {m : Nat} (e : Nat) (hm : m ≤ 2 ^ (f.fractionBits + 1)) :
    f.magnitude (f.code (m * 2 ^ e * f.unit)) = m * 2 ^ e * f.unit := by
  rcases hm.lt_or_eq with hlt | rfl
  · exact f.magnitude_code_of_lt e hlt
  · have h := f.magnitude_code_of_lt (m := 2 ^ f.fractionBits) (e + 1)
      (Nat.pow_lt_pow_right (by norm_num) (by omega))
    have heq : ((2 ^ (f.fractionBits + 1) : Nat) * 2 ^ e : Rat) =
        (2 ^ f.fractionBits : Nat) * 2 ^ (e + 1) := by
      push_cast
      ring
    rw [heq]
    exact h

theorem code_magnitude (c : Nat) : f.code (f.magnitude c) = c := by
  apply f.magnitude_strictMono.injective
  obtain ⟨m, k, rfl, hm, hk⟩ := f.exists_significand c
  have : f.magnitude (m + k <<< f.fractionBits) = m * 2 ^ k * f.unit := by
    simp [magnitude, f.multiple_add hm.le hk]
  rw [this]
  exact f.magnitude_code_grid k hm.le

/-- The magnitude of the code is off by at most half a spacing. -/
theorem abs_magnitude_code_sub_le_spacing {x : Rat} (hx : 0 ≤ x) :
    |f.magnitude (f.code x) - x| ≤ 2 ^ f.doublingsAt x * f.unit / 2 := by
  have hspacing : 0 < 2 ^ f.doublingsAt x * f.unit := mul_pos (by positivity) f.unit_pos
  have herr := abs_halfEven_sub_le (f.significand x)
  have hdiff : f.magnitude (f.code x) - x =
      (halfEven (f.significand x) - f.significand x) * (2 ^ f.doublingsAt x * f.unit) := by
    rw [f.magnitude_code hx]
    linear_combination -f.eq_significand_mul x
  rw [hdiff, abs_mul, abs_of_pos hspacing]
  nlinarith

/-- Half a spacing is a small part of the number, or of the smallest magnitude. -/
theorem abs_magnitude_code_sub_le {x : Rat} (hx : 0 ≤ x) :
    |f.magnitude (f.code x) - x| ≤ x / 2 ^ (f.fractionBits + 1) + f.unit / 2 := by
  have hunit := f.unit_pos
  refine (f.abs_magnitude_code_sub_le_spacing hx).trans ?_
  rcases eq_or_ne (f.doublingsAt x) 0 with hk | hk
  · have : 0 ≤ x / 2 ^ (f.fractionBits + 1) := by positivity
    rw [hk]
    linarith
  · have hge := f.le_significand hx hk
    have : 2 ^ f.doublingsAt x * f.unit / 2 ≤ x / 2 ^ (f.fractionBits + 1) := by
      rw [le_div_iff₀ (by positivity)]
      nth_rewrite 2 [f.eq_significand_mul x]
      have : 0 < 2 ^ f.doublingsAt x * f.unit := by positivity
      rw [pow_succ]
      nlinarith
    linarith

/-! ## The nearest value -/

/-- The value that `x` is rounded to, were the exponent not bounded above. -/
def nearest (x : Rat) : Rat :=
  if x < 0 then -f.magnitude (f.code (-x)) else f.magnitude (f.code x)

theorem nearest_of_nonneg {x : Rat} (hx : 0 ≤ x) : f.nearest x = f.magnitude (f.code x) := by
  simp [nearest, hx.not_gt]

theorem nearest_neg (x : Rat) : f.nearest (-x) = -f.nearest x := by
  simp only [nearest]
  rcases lt_trichotomy x 0 with h | rfl | h
  · simp [h, h.not_gt]
  · have : f.code 0 = 0 := by simpa using f.code_magnitude 0
    simp [this]
  · simp [h, h.not_gt]

theorem nearest_nonneg {x : Rat} (hx : 0 ≤ x) : 0 ≤ f.nearest x := by
  rw [f.nearest_of_nonneg hx]
  exact f.magnitude_nonneg _

theorem nearest_mono {x y : Rat} (h : x ≤ y) : f.nearest x ≤ f.nearest y := by
  have hpos : ∀ {x y : Rat}, 0 ≤ x → x ≤ y → f.nearest x ≤ f.nearest y := by
    intro x y hx h
    rw [f.nearest_of_nonneg hx, f.nearest_of_nonneg (hx.trans h)]
    exact f.magnitude_strictMono.monotone (f.code_mono hx h)
  rcases le_or_gt 0 x with hx | hx
  · exact hpos hx h
  · rcases le_or_gt 0 y with hy | hy
    · have hx' := f.nearest_nonneg (neg_nonneg.2 hx.le)
      rw [f.nearest_neg] at hx'
      have := f.nearest_nonneg hy
      linarith
    · have := hpos (neg_nonneg.2 hy.le) (neg_le_neg h)
      rw [f.nearest_neg, f.nearest_neg] at this
      linarith

theorem nearest_magnitude (c : Nat) : f.nearest (f.magnitude c) = f.magnitude c := by
  rw [f.nearest_of_nonneg (f.magnitude_nonneg c), f.code_magnitude]

/-- Multiples of a spacing that are not too large are their own nearest value. -/
theorem nearest_grid {m : Nat} (e : Nat) (hm : m ≤ 2 ^ (f.fractionBits + 1)) :
    f.nearest (m * 2 ^ e * f.unit) = m * 2 ^ e * f.unit := by
  have := f.unit_pos
  rw [f.nearest_of_nonneg (by positivity), f.magnitude_code_grid e hm]

/-- Integers of no more bits than a significand are exact. -/
theorem nearest_natCast {n : Nat} (h : n ≤ 2 ^ (f.fractionBits + 1)) : f.nearest n = n := by
  have hn := f.nearest_grid f.unitExponent h
  rwa [mul_assoc, mul_comm (2 ^ _), f.unit_mul_scale, mul_one] at hn

/-- From where the spacing is one on, every magnitude is an integer. -/
theorem exists_magnitude_eq_natCast {c : Nat} (h : 2 ^ f.fractionBits ≤ f.magnitude c) :
    ∃ n : Nat, f.magnitude c = n := by
  obtain ⟨m, k, rfl, hm, hk⟩ := f.exists_significand c
  have hmag : f.magnitude (m + k <<< f.fractionBits) = m * 2 ^ k * f.unit := by
    simp [magnitude, f.multiple_add hm.le hk]
  have hscaled : 2 ^ (f.fractionBits + f.unitExponent) ≤ m * 2 ^ k := by
    have := mul_le_mul_of_nonneg_right h (show (0 : Rat) ≤ 2 ^ f.unitExponent by positivity)
    rw [hmag, mul_assoc (m * 2 ^ k : Rat), f.unit_mul_scale, mul_one, ← pow_add] at this
    exact_mod_cast this
  have hpow : 2 ^ (f.fractionBits + f.unitExponent) < 2 ^ (f.fractionBits + 1 + k) := by
    rw [pow_add 2 (f.fractionBits + 1) k]
    exact hscaled.trans_lt (Nat.mul_lt_mul_of_pos_right hm (by positivity))
  have hexp := (Nat.pow_lt_pow_iff_right (by norm_num)).1 hpow
  obtain ⟨j, rfl⟩ : ∃ j, k = f.unitExponent + j := ⟨k - f.unitExponent, by omega⟩
  refine ⟨m * 2 ^ j, ?_⟩
  rw [hmag]
  push_cast
  linear_combination (m * 2 ^ j : Rat) * f.unit_mul_scale

/-- An integer is rounded to an integer. -/
theorem exists_nearest_natCast (n : Nat) : ∃ m : Nat, f.nearest n = m := by
  rcases Nat.le_total n (2 ^ (f.fractionBits + 1)) with h | h
  · exact ⟨n, f.nearest_natCast h⟩
  · have hmono : f.nearest (2 ^ (f.fractionBits + 1) : Nat) ≤ f.nearest n :=
      f.nearest_mono (by exact_mod_cast h)
    rw [f.nearest_natCast le_rfl, f.nearest_of_nonneg (by positivity : (0 : Rat) ≤ n)] at hmono
    rw [f.nearest_of_nonneg (by positivity : (0 : Rat) ≤ n)]
    apply f.exists_magnitude_eq_natCast
    calc (2 : Rat) ^ f.fractionBits
        ≤ 2 ^ (f.fractionBits + 1) := pow_le_pow_right₀ (by norm_num) (by omega)
      _ ≤ f.magnitude (f.code n) := by exact_mod_cast hmono

theorem abs_nearest_sub_le (x : Rat) :
    |f.nearest x - x| ≤ |x| / 2 ^ (f.fractionBits + 1) + f.unit / 2 := by
  rcases le_or_gt 0 x with hx | hx
  · rw [f.nearest_of_nonneg hx, abs_of_nonneg hx]
    exact f.abs_magnitude_code_sub_le hx
  · have hx' : 0 ≤ -x := by linarith
    have := f.abs_magnitude_code_sub_le hx'
    rw [← f.nearest_of_nonneg hx', f.nearest_neg] at this
    rw [abs_of_neg hx, abs_sub_comm]
    rwa [show -f.nearest x - -x = x - f.nearest x by ring] at this

/-- Below the end of a binade its spacing bounds the error. -/
theorem abs_nearest_sub_le_of_lt {x : Rat} {k : Nat} (hx : 0 ≤ x)
    (h : x < 2 ^ (f.fractionBits + 1 + k) * f.unit) : |f.nearest x - x| ≤ 2 ^ k * f.unit / 2 := by
  have hpow : (2 : Rat) ^ f.doublingsAt x ≤ 2 ^ k := pow_le_pow_right₀ (by norm_num) (f.doublingsAt_le h)
  rw [f.nearest_of_nonneg hx]
  refine (f.abs_magnitude_code_sub_le_spacing hx).trans ?_
  have := mul_le_mul_of_nonneg_right hpow f.unit_pos.le
  linarith

/-! ## The 32-bit format -/

theorem single_unit : single.unit = 1 / 2 ^ 149 := by
  decide +kernel

/-- One rounding to the 32-bit format loses at most one part in `2 ^ 24`, and next to nothing
    near zero. -/
theorem abs_single_nearest_sub_le (x : Rat) :
    |single.nearest x - x| ≤ |x| / 2 ^ 24 + 1 / 2 ^ 150 := by
  have h := single.abs_nearest_sub_le x
  rw [single_unit, show single.fractionBits + 1 = 24 from rfl] at h
  linarith

theorem single_nearest_natCast {n : Nat} (h : n ≤ 2 ^ 24) : single.nearest n = n :=
  single.nearest_natCast h

theorem single_nearest_one : single.nearest 1 = 1 := by
  simpa using single_nearest_natCast (n := 1) (by norm_num)

/-- Integers of that many bits stay exact when they are doubled. -/
theorem single_nearest_shift {m : Nat} (e : Nat) (hm : m ≤ 2 ^ 24) :
    single.nearest (m * 2 ^ e) = m * 2 ^ e := by
  have hgrid := single.nearest_grid (e + 149) hm
  rwa [single_unit, show (m * 2 ^ (e + 149) * (1 / 2 ^ 149) : Rat) = m * 2 ^ e by
    rw [pow_add]; ring] at hgrid

theorem single_nearest_quarter {z : Int} (h : z.natAbs ≤ 2 ^ 24) :
    single.nearest (z / 4) = z / 4 := by
  obtain ⟨m, hz⟩ := z.eq_nat_or_neg
  have hm : m ≤ 2 ^ 24 := by omega
  have hgrid := single.nearest_grid (m := m) 147 hm
  rw [single_unit, show (m * 2 ^ 147 * (1 / 2 ^ 149) : Rat) = m / 4 by ring] at hgrid
  rcases hz with rfl | rfl
  · simpa using hgrid
  · simp only [Int.cast_neg, Int.cast_natCast, neg_div, single.nearest_neg, hgrid]

end Format

end SeparableBlur

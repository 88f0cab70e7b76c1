-- SUMMARY: No decimal lies so close to a midpoint of the 32-bit format that reading it in 64 bits could carry it there.
import Mathlib.Tactic.IntervalCases
import Mathlib.Tactic.NormNum.Pow
import SeparableBlur.Proofs.Rounding

/-!
# Decimals near midpoints

A decimal `D * 10 ^ e` is compared with `M * 2 ^ q`, where `M` has at most 25
bits, as the midpoints of the 32-bit format do. The two are on the same side of
each other as the fractions `D / M` and `2 ^ q / 10 ^ e`, so that the decimals
nearest to midpoints come from the best approximations of the second fraction.

`Neighbours.search` finds the two fractions next to it, below and above. They
span all others with whole coefficients, hence no decimal comes closer to a
midpoint than theirs. That they keep their distance is then a computation for
each of the powers of two and ten that can meet. It takes the power of ten as
the 64-bit format has it, and asks for more than one half in `2 ^ 28` of
`2 ^ q`, half of the spacing of that format next to the midpoint.
-/

namespace SeparableBlur

/-! ## Neighbouring fractions -/

/-- The fractions `p₁ / q₁` and `p₂ / q₂`, the first smaller by as little as their denominators
    allow. -/
structure Neighbours where
  p₁ : Nat
  q₁ : Nat
  p₂ : Nat
  q₂ : Nat
  unimodular : p₂ * q₁ = p₁ * q₂ + 1

namespace Neighbours

/-- All pairs of integers are whole combinations of the two pairs. -/
theorem exists_combination (n : Neighbours) (d m : Int) :
    ∃ α β : Int, d = α * n.p₁ + β * n.p₂ ∧ m = α * n.q₁ + β * n.q₂ := by
  have h : (n.p₂ * n.q₁ : Int) = n.p₁ * n.q₂ + 1 := by exact_mod_cast n.unimodular
  refine ⟨n.p₂ * m - n.q₂ * d, n.q₁ * d - n.p₁ * m, ?_, ?_⟩
  · linear_combination -d * h
  · linear_combination -m * h

/-- A combination of two denominators that is smaller than their sum takes the first at least
    once and the second not at all or negatively, if its excess is on the side of the first.
    Its excess by any other measure is then no less than that of the first alone. -/
theorem combination_le {α β y₁ y₂ : Int} (q₁ q₂ x₁ x₂ : Int) (hq₁ : 0 ≤ q₁) (hq₂ : 0 ≤ q₂)
    (hpos : 0 < α * q₁ + β * q₂) (hlt : α * q₁ + β * q₂ < q₁ + q₂)
    (hx₁ : x₁ < 0) (hx₂ : 0 ≤ x₂) (hx : α * x₁ + β * x₂ < 0)
    (hy₁ : y₁ ≤ 0) (hy₂ : 0 ≤ y₂) : α * y₁ + β * y₂ ≤ y₁ := by
  have hβ : β ≤ 0 := by
    by_contra! hβ
    have hα : α ≤ 0 := by
      by_contra! hα
      nlinarith
    nlinarith
  have hα : 1 ≤ α := by
    by_contra! hα
    nlinarith
  nlinarith

/-! ## The search -/

/-- Moves the lower fraction towards the upper one. -/
def moveLower (n : Neighbours) (j : Nat) : Neighbours where
  p₁ := n.p₁ + j * n.p₂
  q₁ := n.q₁ + j * n.q₂
  p₂ := n.p₂
  q₂ := n.q₂
  unimodular := by linear_combination n.unimodular

/-- Moves the upper fraction towards the lower one. -/
def moveUpper (n : Neighbours) (j : Nat) : Neighbours where
  p₁ := n.p₁
  q₁ := n.q₁
  p₂ := n.p₂ + j * n.p₁
  q₂ := n.q₂ + j * n.q₁
  unimodular := by linear_combination n.unimodular

/-- How often a fraction can be moved: its denominator `q` grows by `step` up to 25 bits, and
    its distance `r` from what is approximated shrinks by `s` down to `least`. -/
def moves (q step r s least : Nat) : Nat :=
  let room := (2 ^ 25 - 1 - q) / max 1 step
  if s = 0 then room else min room ((r - least) / s)

/-- Narrows the interval around `a / b` until no fraction with a denominator of 25 bits is left
    inside. The lower fraction stays below it by at least `least`, and the upper one above it by
    at least what `least` is short of one. -/
def search (a b least : Nat) : Nat → Neighbours → Neighbours
  | 0, n => n
  | fuel + 1, n =>
    if 2 ^ 25 ≤ n.q₁ + n.q₂ then n
    else
      let n := n.moveLower <|
        moves n.q₁ n.q₂ (n.q₁ * a - n.p₁ * b) (n.p₂ * b - n.q₂ * a) least
      let n := n.moveUpper <|
        moves n.q₂ n.q₁ (n.p₂ * b - n.q₂ * a) (n.q₁ * a - n.p₁ * b) (1 - least)
      search a b least fuel n

/-- The neighbours of `a / b`, which itself counts as the upper one. -/
def below (a b : Nat) : Neighbours := search a b 1 13 ⟨0, 1, 1, 0, rfl⟩

/-- The neighbours of `a / b`, which itself counts as the lower one. -/
def above (a b : Nat) : Neighbours := search a b 0 13 ⟨0, 1, 1, 0, rfl⟩

/-! ## What the neighbours keep apart -/

/-- Fractions below `a / b` are below `a' / b'` with a margin. -/
structure SeparatesBelow (n : Neighbours) (a b a' b' : Nat) : Prop where
  wide : 2 ^ 25 ≤ n.q₁ + n.q₂
  lower : n.p₁ * b < n.q₁ * a
  upper : n.q₂ * a ≤ n.p₂ * b
  margin : 2 ^ 29 * (n.p₁ * b') + a' < 2 ^ 29 * (n.q₁ * a')
  upper' : n.q₂ * a' ≤ n.p₂ * b'

/-- Fractions above `a / b` are above `a' / b'` with a margin. -/
structure SeparatesAbove (n : Neighbours) (a b a' b' : Nat) : Prop where
  wide : 2 ^ 25 ≤ n.q₁ + n.q₂
  lower : n.p₁ * b ≤ n.q₁ * a
  upper : n.q₂ * a < n.p₂ * b
  lower' : n.p₁ * b' ≤ n.q₁ * a'
  margin : 2 ^ 29 * (n.q₂ * a') + a' < 2 ^ 29 * (n.p₂ * b')

instance (n : Neighbours) (a b a' b' : Nat) : Decidable (n.SeparatesBelow a b a' b') :=
  decidable_of_iff (2 ^ 25 ≤ n.q₁ + n.q₂ ∧ n.p₁ * b < n.q₁ * a ∧ n.q₂ * a ≤ n.p₂ * b ∧
      2 ^ 29 * (n.p₁ * b') + a' < 2 ^ 29 * (n.q₁ * a') ∧ n.q₂ * a' ≤ n.p₂ * b')
    ⟨fun ⟨h₁, h₂, h₃, h₄, h₅⟩ => ⟨h₁, h₂, h₃, h₄, h₅⟩, fun ⟨h₁, h₂, h₃, h₄, h₅⟩ => ⟨h₁, h₂, h₃, h₄, h₅⟩⟩

instance (n : Neighbours) (a b a' b' : Nat) : Decidable (n.SeparatesAbove a b a' b') :=
  decidable_of_iff (2 ^ 25 ≤ n.q₁ + n.q₂ ∧ n.p₁ * b ≤ n.q₁ * a ∧ n.q₂ * a < n.p₂ * b ∧
      n.p₁ * b' ≤ n.q₁ * a' ∧ 2 ^ 29 * (n.q₂ * a') + a' < 2 ^ 29 * (n.p₂ * b'))
    ⟨fun ⟨h₁, h₂, h₃, h₄, h₅⟩ => ⟨h₁, h₂, h₃, h₄, h₅⟩, fun ⟨h₁, h₂, h₃, h₄, h₅⟩ => ⟨h₁, h₂, h₃, h₄, h₅⟩⟩

variable {n : Neighbours} {a b a' b' d m : Nat}

theorem SeparatesBelow.lt (h : n.SeparatesBelow a b a' b') (hm : 0 < m) (hm' : m < 2 ^ 25)
    (hlt : d * b < m * a) : 2 ^ 29 * (d * b') + a' < 2 ^ 29 * (m * a') := by
  obtain ⟨wide, lower, upper, margin, upper'⟩ := h
  obtain ⟨α, β, hd, hq⟩ := n.exists_combination d m
  zify at *
  rw [hq] at hm hm'
  have hsum : α * n.q₁ + β * n.q₂ < (n.q₁ + n.q₂ : Int) := hm'.trans_le wide
  have hlower : (n.p₁ * b - n.q₁ * a : Int) < 0 := sub_neg.2 lower
  have hupper : (0 : Int) ≤ n.p₂ * b - n.q₂ * a := sub_nonneg.2 upper
  have hbelow : α * (n.p₁ * b - n.q₁ * a) + β * (n.p₂ * b - n.q₂ * a) < (0 : Int) := by
    rw [hd, hq] at hlt
    linarith
  have hlower' : (n.p₁ * b' - n.q₁ * a' : Int) ≤ 0 := by
    have ha' : (0 : Int) ≤ a' := Int.natCast_nonneg a'
    linarith
  have hupper' : (0 : Int) ≤ n.p₂ * b' - n.q₂ * a' := sub_nonneg.2 upper'
  have hle : α * (n.p₁ * b' - n.q₁ * a') + β * (n.p₂ * b' - n.q₂ * a') ≤
      (n.p₁ * b' - n.q₁ * a' : Int) :=
    combination_le n.q₁ n.q₂ _ _ (Int.natCast_nonneg _) (Int.natCast_nonneg _) hm hsum
      hlower hupper hbelow hlower' hupper'
  rw [hd, hq]
  linarith

theorem SeparatesAbove.lt (h : n.SeparatesAbove a b a' b') (hm : 0 < m) (hm' : m < 2 ^ 25)
    (hlt : m * a < d * b) : 2 ^ 29 * (m * a') + a' < 2 ^ 29 * (d * b') := by
  obtain ⟨wide, lower, upper, lower', margin⟩ := h
  obtain ⟨α, β, hd, hq⟩ := n.exists_combination d m
  zify at *
  -- The fractions change roles, and the excess is taken from the other side.
  rw [hq, add_comm] at hm hm'
  have hsum : β * n.q₂ + α * n.q₁ < (n.q₂ + n.q₁ : Int) := by linarith
  have hupper : (n.q₂ * a - n.p₂ * b : Int) < 0 := sub_neg.2 upper
  have hlower : (0 : Int) ≤ n.q₁ * a - n.p₁ * b := sub_nonneg.2 lower
  have habove : β * (n.q₂ * a - n.p₂ * b) + α * (n.q₁ * a - n.p₁ * b) < (0 : Int) := by
    rw [hd, hq] at hlt
    linarith
  have hupper' : (n.q₂ * a' - n.p₂ * b' : Int) ≤ 0 := by
    have ha' : (0 : Int) ≤ a' := Int.natCast_nonneg a'
    linarith
  have hlower' : (0 : Int) ≤ n.q₁ * a' - n.p₁ * b' := sub_nonneg.2 lower'
  have hle : β * (n.q₂ * a' - n.p₂ * b') + α * (n.q₁ * a' - n.p₁ * b') ≤
      (n.q₂ * a' - n.p₂ * b' : Int) :=
    combination_le n.q₂ n.q₁ _ _ (Int.natCast_nonneg _) (Int.natCast_nonneg _) hm hsum
      hupper hlower habove hupper' hlower'
  rw [hd, hq]
  linarith

end Neighbours

/-! ## Powers of ten in 64 bits -/

/-- The power of ten rounded to 53 bits. Only one that is used is a tie, and it is rounded
    down. -/
def roundedPower (n : Nat) : Nat :=
  let k := (10 ^ n).log2 - 52
  ((2 * 10 ^ n - 1) / 2 ^ k + 1) / 2 * 2 ^ k

theorem double_nearest_pow :
    ∀ n < 46, Format.double.nearest (10 ^ n) = (roundedPower n : Rat) := by
  decide +kernel

theorem roundedPower_pos : ∀ n < 46, 0 < roundedPower n := by
  decide +kernel

/-- The numerator of `2 ^ q / 10 ^ e`, where `p` gives the powers of ten. -/
def numerator (p : Nat → Nat) (q e : Int) : Nat := 2 ^ q.toNat * p (-e).toNat

/-- The denominator of `2 ^ q / 10 ^ e`, where `p` gives the powers of ten. -/
def denominator (p : Nat → Nat) (q e : Int) : Nat := p e.toNat * 2 ^ (-q).toNat

/-- The fractions below and above `2 ^ q / 10 ^ e` keep their distance from it when the power of
    ten is rounded. Unless the fraction itself is among them, both have the same neighbours. -/
def Separated (q e : Int) : Prop :=
  let a := numerator (10 ^ ·) q e
  let b := denominator (10 ^ ·) q e
  let a' := numerator roundedPower q e
  let b' := denominator roundedPower q e
  (Neighbours.below a b).SeparatesBelow a b a' b' ∧
    ((Neighbours.below a b).SeparatesAbove a b a' b' ∨
      (Neighbours.above a b).SeparatesAbove a b a' b')

instance (q e : Int) : Decidable (Separated q e) := by unfold Separated; infer_instance

/-- The binary logarithm of `10 ^ e`, rounded down. -/
def binaryLog (e : Int) : Int := e * 3322 / 1000

private theorem separated_binaryLog :
    ∀ j : Nat, j < 84 → ∀ i : Nat, i < 25 → -150 ≤ binaryLog (j - 45) - i →
      binaryLog (j - 45) - i ≤ 103 → Separated (binaryLog (j - 45) - i) (j - 45) := by
  decide +kernel

/-! ## Decimals and midpoints -/

theorem zpow_eq_div {x : Rat} (hx : x ≠ 0) (n : Int) : x ^ n = x ^ n.toNat / x ^ (-n).toNat := by
  rw [eq_div_iff (by positivity), ← zpow_natCast, ← zpow_natCast, ← zpow_add₀ hx]
  congr 1
  omega

/-- What the digits are multiplied by when a decimal with this exponent is read in 64 bits. -/
def readingFactor (e : Int) : Rat := roundedPower e.toNat / roundedPower (-e).toNat

theorem binaryLog_spec : ∀ j : Nat, j < 84 →
    (2 : Rat) ^ binaryLog (j - 45) ≤ 10 ^ ((j : Int) - 45) ∧
      (10 : Rat) ^ ((j : Int) - 45) < 2 ^ (binaryLog (j - 45) + 1) := by
  decide +kernel

/-- A midpoint and a power of ten that is not larger than its unit, nor too small for a decimal
    with that exponent to come near. -/
structure Comparable (q e : Int) : Prop where
  least : -150 ≤ q
  greatest : q ≤ 103
  coarse : (2 : Rat) ^ q ≤ 10 ^ e
  fine : (10 : Rat) ^ e < 2 ^ (q + 25)

namespace Comparable

variable {q e : Int}

theorem exponent_bounds (h : Comparable q e) : -45 ≤ e ∧ e ≤ 38 := by
  constructor
  · by_contra! he
    have : (10 : Rat) ^ e ≤ 10 ^ (-46 : Int) := zpow_le_zpow_right₀ (by norm_num) (by omega)
    have : (2 : Rat) ^ (-150 : Int) ≤ 2 ^ q := zpow_le_zpow_right₀ (by norm_num) h.least
    have := h.coarse
    norm_num at *
    linarith
  · by_contra! he
    have : (10 : Rat) ^ (39 : Int) ≤ 10 ^ e := zpow_le_zpow_right₀ (by norm_num) (by omega)
    have : (2 : Rat) ^ (q + 25) ≤ 2 ^ (128 : Int) :=
      zpow_le_zpow_right₀ (by norm_num) (by linarith [h.greatest])
    have := h.fine
    norm_num at *
    linarith

theorem separated (h : Comparable q e) : Separated q e := by
  obtain ⟨hlow, hhigh⟩ := h.exponent_bounds
  obtain ⟨j, hj⟩ := Int.eq_ofNat_of_zero_le (show 0 ≤ e + 45 by omega)
  obtain rfl : e = (j : Int) - 45 := by omega
  obtain ⟨hle, hlt⟩ := binaryLog_spec j (by omega)
  have hq : q < binaryLog (j - 45) + 1 :=
    (zpow_lt_zpow_iff_right₀ (by norm_num)).1 (h.coarse.trans_lt hlt)
  have hq' : binaryLog (j - 45) < q + 25 :=
    (zpow_lt_zpow_iff_right₀ (by norm_num)).1 (hle.trans_lt h.fine)
  obtain ⟨i, hi⟩ := Int.eq_ofNat_of_zero_le (show 0 ≤ binaryLog (j - 45) - q by omega)
  obtain rfl : q = binaryLog (j - 45) - i := by omega
  exact separated_binaryLog j (by omega) i (by omega) h.least h.greatest

/-- Both sides of a comparison over their common denominator. -/
private theorem mul_common (p : Nat → Nat) (hp : 0 < p (-e).toNat) (q : Int) :
    ∃ w : Rat, 0 < w ∧ (2 : Rat) ^ q * w = numerator p q e ∧
      (p e.toNat / p (-e).toNat : Rat) * w = denominator p q e := by
  have hp' : (0 : Rat) < p (-e).toNat := by exact_mod_cast hp
  refine ⟨p (-e).toNat * 2 ^ (-q).toNat, by positivity, ?_, ?_⟩
  · rw [zpow_eq_div (by norm_num), numerator]
    push_cast
    field_simp
  · rw [denominator]
    push_cast
    field_simp

private theorem exact_common (q e : Int) :
    ∃ w : Rat, 0 < w ∧ (2 : Rat) ^ q * w = numerator (10 ^ ·) q e ∧
      (10 : Rat) ^ e * w = denominator (10 ^ ·) q e := by
  rw [zpow_eq_div (by norm_num : (10 : Rat) ≠ 0) e]
  exact_mod_cast mul_common (e := e) (10 ^ ·) (by positivity) q

private theorem reading_common (h : Comparable q e) :
    ∃ w : Rat, 0 < w ∧ (2 : Rat) ^ q * w = numerator roundedPower q e ∧
      readingFactor e * w = denominator roundedPower q e :=
  mul_common roundedPower (roundedPower_pos _ (by have := h.exponent_bounds; omega)) q

/-- A decimal below a midpoint is read as a number below it, with a margin. -/
theorem reading_lt (h : Comparable q e) {d m : Nat} (hm : 0 < m) (hm' : m < 2 ^ 25)
    (hlt : (d : Rat) * 10 ^ e < m * 2 ^ q) :
    d * readingFactor e + 2 ^ q / 2 ^ 29 < m * 2 ^ q := by
  obtain ⟨w, hw, htwo, hten⟩ := exact_common q e
  have hnat : d * denominator (10 ^ ·) q e < m * numerator (10 ^ ·) q e := by
    have := mul_lt_mul_of_pos_right hlt hw
    rw [mul_assoc, mul_assoc, htwo, hten] at this
    exact_mod_cast this
  have hmargin := h.separated.1.lt hm hm' hnat
  obtain ⟨w', hw', htwo', hfactor⟩ := reading_common h
  have hmargin : (2 ^ 29 * (d * denominator roundedPower q e) + numerator roundedPower q e : Rat) <
      2 ^ 29 * (m * numerator roundedPower q e) := by exact_mod_cast hmargin
  rw [← htwo', ← hfactor] at hmargin
  refine lt_of_mul_lt_mul_right ?_ hw'.le
  linarith

/-- A decimal above a midpoint is read as a number above it, with a margin. -/
theorem lt_reading (h : Comparable q e) {d m : Nat} (hm : 0 < m) (hm' : m < 2 ^ 25)
    (hlt : (m : Rat) * 2 ^ q < d * 10 ^ e) :
    m * 2 ^ q + 2 ^ q / 2 ^ 29 < d * readingFactor e := by
  obtain ⟨w, hw, htwo, hten⟩ := exact_common q e
  have hnat : m * numerator (10 ^ ·) q e < d * denominator (10 ^ ·) q e := by
    have := mul_lt_mul_of_pos_right hlt hw
    rw [mul_assoc, mul_assoc, htwo, hten] at this
    exact_mod_cast this
  have hmargin := h.separated.2.elim (·.lt hm hm' hnat) (·.lt hm hm' hnat)
  obtain ⟨w', hw', htwo', hfactor⟩ := reading_common h
  have hmargin : (2 ^ 29 * (m * numerator roundedPower q e) + numerator roundedPower q e : Rat) <
      2 ^ 29 * (d * denominator roundedPower q e) := by exact_mod_cast hmargin
  rw [← htwo', ← hfactor] at hmargin
  refine lt_of_mul_lt_mul_right ?_ hw'.le
  linarith

end Comparable

end SeparableBlur

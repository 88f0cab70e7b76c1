-- SUMMARY: The shortest decimal for a magnitude is found, reads as it, and is as near to it as its grid allows.
import Mathlib.Algebra.Order.Field.Power
import Mathlib.Tactic.NormNum.Pow
import SeparableBlur.Proofs.Midpoint

/-!
# The shortest decimal

The grids of decimals are searched from coarse to fine. One that is finer than
the gap below a magnitude has a point that reads as it, so the search ends there
at the latest and its fallback is never used. The point taken is the nearest one
of its grid, unless that one does not read as the magnitude; then the grid is not
fine compared with the gap.
-/

namespace SeparableBlur.Format

variable (f : Format) {c : Nat} {x : Rat}

/-! ## Gaps grow slowly -/

/-- From one gap to the next, the spacing stays or doubles. -/
theorem gap_succ (c : Nat) : f.gap (c + 1) = f.gap c ∨ f.gap (c + 1) = 2 * f.gap c := by
  obtain ⟨m, k, rfl, hm, hk⟩ := f.exists_significand c
  rw [f.gap_add hm hk]
  rcases (Nat.succ_le_of_lt hm).lt_or_eq with hlt | heq
  · left
    rw [Nat.add_right_comm, f.gap_add hlt (hk.imp_right (by omega))]
  · -- The next code begins a binade.
    right
    have hnext : m + k <<< f.fractionBits + 1 = 2 ^ f.fractionBits + (k + 1) <<< f.fractionBits := by
      rw [Nat.add_right_comm, show m + 1 = _ from heq, Nat.shiftLeft_eq, Nat.shiftLeft_eq]
      ring
    rw [hnext, f.gap_add (Nat.pow_lt_pow_right (by norm_num) (by omega)) (.inr le_rfl)]
    ring

theorem gap_le_succ (c : Nat) : f.gap c ≤ f.gap (c + 1) := by
  have := f.gap_pos c
  rcases f.gap_succ c with h | h <;> linarith

theorem gap_succ_le (c : Nat) : f.gap (c + 1) ≤ 2 * f.gap c := by
  have := f.gap_pos c
  rcases f.gap_succ c with h | h <;> linarith

theorem unit_le_gap (c : Nat) : f.unit ≤ f.gap c := by
  obtain ⟨m, k, rfl, hm, hk⟩ := f.exists_significand c
  rw [f.gap_add hm hk]
  have : (1 : Rat) ≤ 2 ^ k := one_le_pow₀ (by norm_num)
  nlinarith [f.unit_pos]

/-- A magnitude is less than two binades of the gap below it. -/
theorem magnitude_succ_le (c : Nat) :
    f.magnitude (c + 1) ≤ 2 ^ (f.fractionBits + 1) * f.gap c := by
  obtain ⟨m, k, rfl, hm, hk⟩ := f.exists_significand c
  rw [Nat.add_right_comm, f.magnitude_add hm (hk.imp_right (by omega)), f.gap_add hm hk, mul_assoc]
  have : ((m + 1 : Nat) : Rat) ≤ 2 ^ (f.fractionBits + 1) := by exact_mod_cast hm
  exact mul_le_mul_of_nonneg_right this (mul_nonneg (by positivity) f.unit_pos.le)

/-! ## What reads as a code -/

theorem ReadsAs.bounds (h : f.ReadsAs c x) : f.midpointBelow c ≤ x ∧ x ≤ f.midpointAbove c := by
  rw [ReadsAs] at h
  split at h
  · exact h
  · exact ⟨h.1.le, h.2.le⟩

theorem readsAs_of_lt (h : f.midpointBelow c < x) (h' : x < f.midpointAbove c) : f.ReadsAs c x := by
  rw [ReadsAs]
  split
  · exact ⟨h.le, h'.le⟩
  · exact ⟨h, h'⟩

theorem magnitude_lt_midpointAbove (c : Nat) : f.magnitude c < f.midpointAbove c := by
  rw [f.midpointAbove_eq]
  linarith [f.gap_pos c]

theorem midpointBelow_lt_magnitude (c : Nat) : f.midpointBelow (c + 1) < f.magnitude (c + 1) := by
  rw [f.midpointBelow_succ, f.midpointAbove_eq, f.magnitude_succ]
  linarith [f.gap_pos c]

theorem le_midpointBelow_of_not_readsAs (h : ¬f.ReadsAs c x) (hx : x ≤ f.magnitude c) :
    x ≤ f.midpointBelow c := by
  by_contra! hlt
  exact h (f.readsAs_of_lt hlt (hx.trans_lt (f.magnitude_lt_midpointAbove c)))

theorem midpointAbove_le_of_not_readsAs (h : ¬f.ReadsAs (c + 1) x) (hx : f.magnitude (c + 1) ≤ x) :
    f.midpointAbove (c + 1) ≤ x := by
  by_contra! hlt
  exact h (f.readsAs_of_lt ((f.midpointBelow_lt_magnitude c).trans_le hx) hlt)

/-! ## One grid -/

/-- A decimal that reads as a code. On either side of the magnitude it is the nearest of its
    grid, or half the gap on that side is no larger than the step of the grid. -/
structure Near (f : Format) (c : Nat) (d : Decimal) : Prop where
  readsAs : f.ReadsAs c d.toRat
  above : f.magnitude c ≤ d.toRat →
    d.toRat - f.magnitude c ≤ 10 ^ d.exponent / 2 ∨ f.gap c / 2 ≤ 10 ^ d.exponent
  below : d.toRat ≤ f.magnitude c →
    f.magnitude c - d.toRat ≤ 10 ^ d.exponent / 2 ∨ f.gap (c - 1) / 2 ≤ 10 ^ d.exponent

section Grid

variable {tie : Tie} {e : Int}

/-- The two points of a grid around a magnitude. -/
private theorem exists_low (c : Nat) (e : Int) :
    ∃ low : Nat, (f.magnitude c / (10 : Rat) ^ e).floor.toNat = low ∧
      low * (10 : Rat) ^ e ≤ f.magnitude c ∧ f.magnitude c < (low + 1 : Nat) * (10 : Rat) ^ e := by
  have hstep : (0 : Rat) < 10 ^ e := by positivity
  refine ⟨_, rfl, ?_, ?_⟩
  · rw [← le_div_iff₀ hstep]
    exact Nat.floor_le (div_nonneg (f.magnitude_nonneg c) hstep.le)
  · rw [← div_lt_iff₀ hstep]
    push_cast
    exact Nat.lt_floor_add_one _

/-- A grid without a point for a code is not finer than the gap below. -/
theorem gap_le_of_onGrid?_eq_none (h : f.onGrid? tie (c + 1) e = none) : f.gap c ≤ 10 ^ e := by
  obtain ⟨low, hlow, hle, hlt⟩ := f.exists_low (c + 1) e
  simp only [onGrid?, hlow] at h
  split_ifs at h with h₁ h₂
  have hbelow : ¬f.ReadsAs (c + 1) (low * 10 ^ e) := fun hb => h₁ ⟨hb, fun ha => h₂ ha.1⟩
  have hmid := f.le_midpointBelow_of_not_readsAs hbelow hle
  have hmid' := f.midpointAbove_le_of_not_readsAs h₂ hlt.le
  rw [f.midpointBelow_succ, f.midpointAbove_eq] at hmid
  rw [f.midpointAbove_eq, f.magnitude_succ] at hmid'
  have := f.gap_le_succ c
  push_cast at hmid'
  linarith

theorem near_of_onGrid? {d : Decimal} (h : f.onGrid? tie (c + 1) e = some d) :
    f.Near (c + 1) d ∧ d.exponent = e := by
  have hgap := f.gap_succ_le c
  have hgap' := f.gap_le_succ c
  have hbelow := f.midpointBelow_succ c
  have habove := f.midpointAbove_eq (c + 1)
  have hmid := f.midpointAbove_eq c
  have hsucc := f.magnitude_succ c
  obtain ⟨low, hlow, hle, hlt⟩ := f.exists_low (c + 1) e
  have hhigh : (low + 1 : Nat) * (10 : Rat) ^ e = low * 10 ^ e + 10 ^ e := by
    push_cast
    ring
  simp only [onGrid?, hlow] at h
  split_ifs at h with h₁ h₂
  · -- The lower point is taken since it is nearer, or since the upper one does not read as the code.
    obtain rfl := Option.some.inj h
    refine ⟨⟨h₁.1, fun hge => .inl ?_, fun _ => ?_⟩, rfl⟩
    · simp only [Decimal.toRat] at hge ⊢
      linarith
    · simp only [Decimal.toRat]
      by_cases ha : f.ReadsAs (c + 1) ((low + 1 : Nat) * 10 ^ e)
      · have hnearer : ¬tie.TakesUpper (low + 1) (f.magnitude (c + 1) - low * 10 ^ e)
            ((low + 1 : Nat) * 10 ^ e - f.magnitude (c + 1)) := fun ht => h₁.2 ⟨ha, ht⟩
        have := not_lt.1 fun hlt => hnearer (.inl hlt)
        left
        linarith
      · have := f.midpointAbove_le_of_not_readsAs ha hlt.le
        rw [or_iff_not_imp_left, Nat.add_sub_cancel]
        intro hfar
        linarith
  · -- The upper point is taken since it is as near, or since the lower one does not read as the code.
    obtain rfl := Option.some.inj h
    refine ⟨⟨h₂, fun _ => ?_, fun hge => .inl ?_⟩, rfl⟩
    · simp only [Decimal.toRat]
      by_cases hb : f.ReadsAs (c + 1) (low * 10 ^ e)
      · have htakes := (not_and_not_right.1 h₁ hb).2
        have : (low + 1 : Nat) * (10 : Rat) ^ e - f.magnitude (c + 1) ≤
            f.magnitude (c + 1) - low * 10 ^ e := htakes.elim le_of_lt fun h => h.1.le
        left
        linarith
      · have := f.le_midpointBelow_of_not_readsAs hb hle
        rw [or_iff_not_imp_left]
        intro hfar
        linarith
    · simp only [Decimal.toRat] at hge ⊢
      linarith

end Grid

/-! ## The search -/

/-- What a search for the code after `c` finds that begins with the grid of `10 ^ e`: it may
    begin too fine, but does not go on to a grid that is fine without need. -/
structure Found (f : Format) (c : Nat) (e : Int) (d : Decimal) : Prop where
  near : f.Near (c + 1) d
  exponent_le : d.exponent ≤ e
  coarse : d.exponent = e ∨ f.gap c ≤ 10 ^ (d.exponent + 1)

/-- A search that goes on to a grid finer than the gap finds a decimal. -/
theorem found_shortestFrom (tie : Tie) (steps : Nat) {e : Int}
    (hfine : (10 : Rat) ^ (e - steps) < f.gap c) :
    f.Found c e (f.shortestFrom tie (c + 1) e (steps + 1)) := by
  induction steps generalizing e with
  | zero =>
    rw [shortestFrom]
    cases hgrid : f.onGrid? tie (c + 1) e with
    | some d =>
      obtain ⟨hnear, hexp⟩ := f.near_of_onGrid? hgrid
      exact ⟨hnear, hexp.le, .inl hexp⟩
    | none =>
      have := f.gap_le_of_onGrid?_eq_none hgrid
      rw [Nat.cast_zero, sub_zero] at hfine
      linarith
  | succ steps ih =>
    rw [shortestFrom]
    cases hgrid : f.onGrid? tie (c + 1) e with
    | some d =>
      obtain ⟨hnear, hexp⟩ := f.near_of_onGrid? hgrid
      exact ⟨hnear, hexp.le, .inl hexp⟩
    | none =>
      have hcoarse := f.gap_le_of_onGrid?_eq_none hgrid
      obtain ⟨hnear, hle, hgap⟩ := @ih (e - 1) (by
        rwa [sub_sub, add_comm (1 : Int), ← Nat.cast_succ])
      refine ⟨hnear, hle.trans (by omega), .inr ?_⟩
      rcases hgap with hexp | hgap
      · rwa [hexp, sub_add_cancel]
      · exact hgap

/-! ## The 32-bit format -/

/-- The digits of a natural number reach its size. -/
theorem lt_pow_length_toString (n : Nat) : n < 10 ^ (toString n).length := by
  rw [Nat.toString_eq_repr]
  exact (Nat.length_repr_le_iff Nat.length_repr_pos).1 le_rfl

theorem single_midpointAbove_lt (hc : c < single.infinityCode) :
    single.midpointAbove c < 2 ^ 128 := by
  have hnext : single.magnitude (c + 1) ≤ single.magnitude single.infinityCode :=
    single.magnitude_strictMono.monotone hc
  have : single.magnitude single.infinityCode = 2 ^ 128 := by decide +kernel
  have := single.gap_pos c
  rw [single.magnitude_succ] at hnext
  rw [single.midpointAbove_eq]
  linarith

/-- What the shortest decimal of a positive 32-bit number is like. -/
structure Short (c : Nat) (d : Decimal) : Prop where
  near : single.Near c d
  exponent_ge : -45 ≤ d.exponent
  exponent_le : d.exponent ≤ 39
  digits_pos : 0 < d.digits
  digits_lt : d.digits < 2 ^ 28

section Found

variable {e : Int} {d : Decimal}

theorem ReadsAs.pos (h : f.ReadsAs (c + 1) x) : 0 < x := by
  have hbelow := h.bounds.1
  rw [f.midpointBelow_succ, f.midpointAbove_eq] at hbelow
  linarith [f.gap_pos c, f.magnitude_nonneg c]

private theorem digits_pos (h : single.Near (c + 1) d) : 0 < d.digits := by
  have hpos := h.readsAs.pos
  rcases Nat.eq_zero_or_pos d.digits with h0 | h0
  · simp [Decimal.toRat, h0] at hpos
  · exact h0

private theorem exponent_ge (h : single.Found c e d) (he : 0 ≤ e) : -45 ≤ d.exponent := by
  by_contra! hlt
  have hcoarse := h.coarse.resolve_left (by omega)
  have hunit := single.unit_le_gap c
  rw [single_unit] at hunit
  have : (10 : Rat) ^ (d.exponent + 1) ≤ 10 ^ (-45 : Int) :=
    zpow_le_zpow_right₀ (by norm_num) (by omega)
  norm_num at this
  linarith

private theorem exponent_le (h : single.Near (c + 1) d) (hc : c + 1 < single.infinityCode) :
    d.exponent ≤ 39 := by
  by_contra! hlt
  have hlarge : (10 : Rat) ^ (40 : Int) ≤ 10 ^ d.exponent :=
    zpow_le_zpow_right₀ (by norm_num) (by omega)
  have hdigits : (1 : Rat) ≤ d.digits := by exact_mod_cast digits_pos h
  have hle : (10 : Rat) ^ d.exponent ≤ d.toRat :=
    le_mul_of_one_le_left (by positivity) hdigits
  have := h.readsAs.bounds.2
  have := single_midpointAbove_lt hc
  norm_num at hlarge
  linarith

/-- On the grid that the search began with a decimal has one digit, and on any other the
    significand of the magnitude bounds the digits. -/
private theorem digits_lt (h : single.Found c e d) (he : single.magnitude (c + 1) < 10 ^ e) :
    d.digits < 2 ^ 28 := by
  have hstep : (0 : Rat) < 10 ^ d.exponent := by positivity
  have hgap := single.gap_succ_le c
  have hsucc := single.magnitude_succ c
  have hmag := single.magnitude_nonneg c
  have hle := h.near.readsAs.bounds.2
  rw [single.midpointAbove_eq, Decimal.toRat] at hle
  suffices (d.digits : Rat) * 10 ^ d.exponent < 2 ^ 28 * 10 ^ d.exponent by
    exact_mod_cast lt_of_mul_lt_mul_right this hstep.le
  rcases h.coarse with hexp | hcoarse
  · rw [hexp] at hstep hle ⊢
    linarith
  · have hbinades := single.magnitude_succ_le c
    rw [show single.fractionBits + 1 = 24 from rfl] at hbinades
    rw [zpow_add₀ (by norm_num), zpow_one] at hcoarse
    linarith

end Found

theorem short_shortest (tie : Tie) (hc : c + 1 < single.infinityCode) :
    Short (c + 1) (single.shortest tie (c + 1)) := by
  set n := (single.magnitude (c + 1)).floor.toNat with hn
  have hfound : single.Found c (toString n).length (single.shortest tie (c + 1)) := by
    refine single.found_shortestFrom tie ((toString n).length + 148) ?_
    have hunit := single.unit_le_gap c
    rw [single_unit] at hunit
    rw [show ((toString n).length - ((toString n).length + 148 : Nat) : Int) = -148 by omega]
    refine lt_of_lt_of_le ?_ hunit
    norm_num
  have htop : single.magnitude (c + 1) < 10 ^ ((toString n).length : Int) := by
    have hfloor : single.magnitude (c + 1) < n + 1 := Nat.lt_floor_add_one _
    have hlen : ((n + 1 : Nat) : Rat) ≤ (10 ^ (toString n).length : Nat) := by
      exact_mod_cast lt_pow_length_toString n
    push_cast at hlen
    exact hfloor.trans_le hlen
  exact ⟨hfound.near, exponent_ge hfound (by omega), exponent_le hfound.near hc,
    digits_pos hfound.near, digits_lt hfound htop⟩

end SeparableBlur.Format

-- SUMMARY: What is nearest between two neighbouring magnitudes, and that decimals read as the code they were chosen for.
import SeparableBlur.Decimal.Shortest
import SeparableBlur.Proofs.Rounding

/-!
# Midpoints

Between a magnitude and the next one, a rational is rounded to the nearer of the
two, and the midpoint to the one whose code is even. `Format.ReadsAs` describes
the rationals that a code stands for by their midpoints, and they are indeed
rounded to it.
-/

namespace SeparableBlur

/-! ## Between two integers -/

private theorem floor_natCast_add (m : Nat) {t : Rat} (h0 : 0 ≤ t) (h1 : t < 1) :
    ((m : Rat) + t).floor = m := by
  change ⌊(m : Rat) + t⌋ = (m : Int)
  rw [Int.floor_eq_iff]
  constructor <;> push_cast <;> linarith

theorem halfEven_add_of_lt {m : Nat} {t : Rat} (h0 : 0 ≤ t) (ht : t < 1 / 2) :
    halfEven (m + t) = m := by
  simp only [halfEven, floor_natCast_add m h0 (by linarith), Int.cast_natCast,
    add_sub_cancel_left, if_pos ht]

theorem halfEven_add_half (m : Nat) :
    halfEven (m + 1 / 2) = if m % 2 = 0 then (m : Int) else m + 1 := by
  have hfloor := floor_natCast_add m (t := 1 / 2) (by norm_num) (by norm_num)
  simp only [halfEven, hfloor, Int.cast_natCast, add_sub_cancel_left, lt_self_iff_false, if_false]
  split_ifs <;> omega

theorem halfEven_add_of_gt {m : Nat} {t : Rat} (ht : 1 / 2 < t) (h1 : t < 1) :
    halfEven (m + t) = m + 1 := by
  simp only [halfEven, floor_natCast_add m (by linarith) h1, Int.cast_natCast,
    add_sub_cancel_left, if_neg ht.not_gt, if_pos ht]

namespace Format

variable (f : Format)

/-! ## Gaps -/

/-- The distance from the magnitude with this code to the next one. -/
def gap (c : Nat) : Rat := f.magnitude (c + 1) - f.magnitude c

theorem gap_pos (c : Nat) : 0 < f.gap c :=
  sub_pos.2 (f.magnitude_strictMono (Nat.lt_succ_self c))

theorem magnitude_succ (c : Nat) : f.magnitude (c + 1) = f.magnitude c + f.gap c := by
  rw [gap]
  ring

theorem midpointAbove_eq (c : Nat) : f.midpointAbove c = f.magnitude c + f.gap c / 2 := by
  rw [midpointAbove, magnitude_succ]
  ring

theorem midpointBelow_succ (c : Nat) : f.midpointBelow (c + 1) = f.midpointAbove c := rfl

@[simp] theorem midpointBelow_zero : f.midpointBelow 0 = 0 := by
  simp [midpointBelow]

section Binade

variable {m k : Nat}

theorem magnitude_add (hm : m ≤ 2 ^ (f.fractionBits + 1)) (hk : k = 0 ∨ 2 ^ f.fractionBits ≤ m) :
    f.magnitude (m + k <<< f.fractionBits) = m * 2 ^ k * f.unit := by
  rw [magnitude, f.multiple_add hm hk]
  push_cast
  ring

theorem gap_add (hm : m < 2 ^ (f.fractionBits + 1)) (hk : k = 0 ∨ 2 ^ f.fractionBits ≤ m) :
    f.gap (m + k <<< f.fractionBits) = 2 ^ k * f.unit := by
  rw [gap, Nat.add_right_comm, f.magnitude_add hm (hk.imp_right (by omega)),
    f.magnitude_add hm.le hk]
  push_cast
  ring

/-- The spacing does not change before the next code. -/
theorem doublingsAt_add {t : Rat} (hm : m < 2 ^ (f.fractionBits + 1))
    (hk : k = 0 ∨ 2 ^ f.fractionBits ≤ m) (h0 : 0 ≤ t) (h1 : t < 1) :
    f.doublingsAt ((m + t) * 2 ^ k * f.unit) = k := by
  have hpow : (0 : Rat) < 2 ^ k := by positivity
  refine le_antisymm (f.doublingsAt_le (mul_lt_mul_of_pos_right ?_ f.unit_pos)) ?_
  · have hnext : (m : Rat) + 1 ≤ 2 ^ (f.fractionBits + 1) := by exact_mod_cast hm
    rw [pow_add]
    exact mul_lt_mul_of_pos_right (by linarith) hpow
  · rcases hk with rfl | hge
    · exact Nat.zero_le _
    · have hge' : (2 : Rat) ^ f.fractionBits ≤ m := by exact_mod_cast hge
      refine f.le_doublingsAt (mul_le_mul_of_nonneg_right ?_ f.unit_pos.le)
      rw [pow_add]
      exact mul_le_mul_of_nonneg_right (by linarith) hpow.le

end Binade

/-! ## Between two magnitudes -/

/-- A part `t` of the gap above a code is rounded like `t` itself is above the code. -/
theorem code_add_gap (hf : 0 < f.fractionBits) (c : Nat) {t : Rat} (h0 : 0 ≤ t) (h1 : t < 1) :
    f.code (f.magnitude c + t * f.gap c) =
      if t < 1 / 2 ∨ t = 1 / 2 ∧ c % 2 = 0 then c else c + 1 := by
  obtain ⟨m, k, rfl, hm, hk⟩ := f.exists_significand c
  have hx : f.magnitude (m + k <<< f.fractionBits) + t * f.gap (m + k <<< f.fractionBits) =
      (m + t) * 2 ^ k * f.unit := by
    rw [f.magnitude_add hm.le hk, f.gap_add hm hk]
    ring
  have hsignificand : (m + t) * 2 ^ k * f.unit * 2 ^ f.unitExponent / 2 ^ k = m + t := by
    rw [mul_assoc, f.unit_mul_scale, mul_one, mul_div_assoc, div_self (by positivity), mul_one]
  have hparity : (m + k <<< f.fractionBits) % 2 = m % 2 := by
    obtain ⟨j, hj⟩ := Nat.exists_eq_add_of_lt hf
    rw [Nat.shiftLeft_eq, hj, zero_add, pow_succ, ← mul_assoc]
    omega
  rw [hx, code, f.doublingsAt_add hm hk h0 h1, hsignificand, hparity]
  rcases lt_trichotomy t (1 / 2) with ht | rfl | ht
  · rw [halfEven_add_of_lt h0 ht, if_pos (.inl ht), Int.toNat_natCast]
  · rw [halfEven_add_half]
    simp only [lt_irrefl, false_or, true_and]
    split_ifs <;> omega
  · rw [halfEven_add_of_gt ht h1, if_neg (by rintro (h | ⟨h, -⟩) <;> linarith)]
    omega

/-- The part of the gap above a code at which a rational lies. -/
private theorem exists_part {c : Nat} {x : Rat} (h : f.magnitude c ≤ x)
    (h' : x < f.magnitude (c + 1)) :
    ∃ t, 0 ≤ t ∧ t < 1 ∧ x = f.magnitude c + t * f.gap c := by
  have hgap := f.gap_pos c
  rw [f.magnitude_succ] at h'
  refine ⟨(x - f.magnitude c) / f.gap c, div_nonneg (by linarith) hgap.le, ?_, ?_⟩
  · rw [div_lt_one hgap]
    linarith
  · rw [div_mul_cancel₀ _ hgap.ne']
    ring

/-- What reads as a code is rounded to it. -/
theorem code_eq_of_readsAs (hf : 0 < f.fractionBits) {c : Nat} {x : Rat} (h : f.ReadsAs c x) :
    f.code x = c := by
  rcases le_or_gt (f.magnitude c) x with hx | hx
  · -- Up to the midpoint above.
    have hgap := f.gap_pos c
    have hle : x ≤ f.midpointAbove c := by
      rw [ReadsAs] at h
      split at h
      · exact h.2
      · exact h.2.le
    rw [f.midpointAbove_eq] at hle
    obtain ⟨t, h0, h1, rfl⟩ := f.exists_part hx (by rw [f.magnitude_succ]; linarith)
    have ht : t ≤ 1 / 2 := le_of_mul_le_mul_right (by linarith) hgap
    rw [f.code_add_gap hf c h0 h1, if_pos]
    rcases ht.lt_or_eq with hlt | rfl
    · exact .inl hlt
    · refine .inr ⟨rfl, by_contra fun hodd => ?_⟩
      rw [ReadsAs, if_neg hodd, f.midpointAbove_eq] at h
      linarith [h.2]
  · -- From the midpoint below, where the parity of the lower code decides.
    cases c with
    | zero =>
      rw [ReadsAs, if_pos rfl, f.midpointBelow_zero] at h
      exact absurd h.1 (by simpa using hx)
    | succ c =>
      have hgap := f.gap_pos c
      rw [ReadsAs, f.midpointBelow_succ, f.midpointAbove_eq c] at h
      have hge : f.magnitude c + f.gap c / 2 ≤ x := by
        split at h
        · exact h.1
        · exact h.1.le
      obtain ⟨t, h0, h1, rfl⟩ := f.exists_part (by linarith) hx
      have ht : 1 / 2 ≤ t := le_of_mul_le_mul_right (by linarith) hgap
      rw [f.code_add_gap hf c h0 h1, if_neg]
      rintro (hlt | ⟨rfl, heven⟩)
      · linarith
      · rw [if_neg (by omega)] at h
        linarith [h.1]

end Format

end SeparableBlur

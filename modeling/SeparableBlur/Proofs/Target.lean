-- SUMMARY: The target of a blur: it has pixels, no more than its padded source, and a positive scale close to the resolution.
import SeparableBlur.Blur.Plan
import SeparableBlur.Proofs.SigmaModel

/-!
# Bounds on the target

A target has at least one pixel on each axis, whatever the resolution and the
padding came to. The scale it achieves differs from the resolution because the
target is cut to whole pixels: by at most half a pixel of the padded source, or
by all that is missing to a whole pixel where the target would be smaller.

The scale stays positive and at most one, also where a dimension or a target is too
large to be stored as it is: lengths are rounded to whole numbers, and rounding does
not change their order.
-/

namespace SeparableBlur

open Format (single single_inRange single_nearest_natCast single_nearest_one single_nearest_shift)

theorem Size.dimensions_ne_zero {s : Size} (h : s.isEmpty = false) : s.width ≠ 0 ∧ s.height ≠ 0 := by
  simpa [Size.isEmpty] using h

namespace TargetPlan

/-! ## One axis -/

/-- The length of one axis with its gutter. -/
def paddedLength (source : UInt32) (padding : Binary32) : Binary32 :=
  Scalar.ofUInt32 source + padding * Scalar.ofRat 2

/-- The length of one axis of the target before it is cut to a whole number. -/
def pixelLength (padded resolution : Binary32) : Binary32 :=
  if 1 < Scalar.round (padded * resolution) then Scalar.round (padded * resolution) else 1

/-- The number of pixels on one axis of the target. -/
def pixels (padded resolution : Binary32) : UInt32 := Scalar.toUInt32 (pixelLength padded resolution)

/-- The scale achieved on one axis. -/
def achievedOn (padded resolution : Binary32) : Binary32 :=
  Scalar.ofUInt32 (pixels padded resolution) / padded

section

variable (source : Size) (padding : Vec2 Binary32) (resolution : Binary32)

theorem ofSource_width : (ofSource source padding resolution).size.width =
    pixels (paddedLength source.width padding.x) resolution := rfl

theorem ofSource_height : (ofSource source padding resolution).size.height =
    pixels (paddedLength source.height padding.y) resolution := rfl

end

/-! ## Pixels -/

theorem toUInt32_ne_zero {a : Binary32} (h : 1 < a) : (Scalar.toUInt32 a : UInt32) ≠ 0 := by
  cases ha : a with
  | nan => rw [ha] at h; exact absurd h (by decide +kernel)
  | infinite negative =>
    subst ha
    cases negative
    · decide
    · exact absurd h (by decide +kernel)
  | finite negative code =>
    obtain ⟨p, hp⟩ : ∃ p, a.toRat? = some p := ⟨_, by rw [ha]; rfl⟩
    rw [Binary.lt_iff_of_toRat? Kernel.one_toRat? hp] at h
    rw [← ha, Binary.toUInt32_of_toRat? hp, Ne, ← UInt32.toNat_inj, toNat_ofNatClamp]
    have hfloor : (1 : Int) ≤ p.floor := Rat.le_floor_iff.2 (by simpa using h.le)
    have : (0 : UInt32).toNat = 0 := rfl
    have : UInt32.size = 4294967296 := rfl
    omega

/-- There is a pixel on every axis, also where a rounding went wrong. -/
theorem pixels_ne_zero (padded resolution : Binary32) : pixels padded resolution ≠ 0 := by
  simp only [pixels, pixelLength]
  split
  case isTrue h => exact toUInt32_ne_zero h
  case isFalse h => decide +kernel

theorem isEmpty_ofSource (source : Size) (padding : Vec2 Binary32) (resolution : Binary32) :
    (ofSource source padding resolution).size.isEmpty = false := by
  simp [Size.isEmpty, ofSource_width, ofSource_height, pixels_ne_zero]

/-! ## Whole numbers -/

/-- A dimension as a scalar. -/
theorem ofUInt32_toRat? {n : UInt32} (h : n ≠ 0) :
    ∃ v : Nat, (Scalar.ofUInt32 n : Binary32).toRat? = some (v : Rat) ∧
      (v : Rat) = single.nearest n.toNat ∧ 1 ≤ v ∧ v ≤ 2 ^ 32 := by
  have hpos : 1 ≤ n.toNat := Nat.pos_of_ne_zero fun h0 => h (UInt32.toNat_inj.1 h0)
  have hmax : n.toNat ≤ 2 ^ 32 := n.toNat_lt.le
  have hrange : single.InRange n.toNat := single_inRange (by
    rw [abs_of_nonneg (by positivity)]
    exact_mod_cast hmax.trans (by norm_num))
  obtain ⟨v, hv⟩ := single.exists_nearest_natCast n.toNat
  have hlow : ((1 : Nat) : Rat) ≤ v := by
    rw [← hv, ← single_nearest_natCast (n := 1) (by norm_num)]
    exact single.nearest_mono (by exact_mod_cast hpos)
  have hhigh : (v : Rat) ≤ (1 : Nat) * 2 ^ 32 := by
    rw [← hv, ← single_nearest_shift (m := 1) 32 (by norm_num)]
    exact single.nearest_mono (by exact_mod_cast hmax)
  refine ⟨v, ?_, hv.symm, by exact_mod_cast hlow, by exact_mod_cast hhigh⟩
  rw [← hv]
  exact Binary.toRat?_ofRat hrange

/-- The gutter of `p` whole pixels is counted twice. The sum is exact unless it is large. -/
theorem paddedLength_toRat? {source : UInt32} {padding : Binary32} {p : Nat} (hs : source ≠ 0)
    (hp : padding.toRat? = some (p : Rat)) (h161 : p ≤ 161) :
    ∃ d : Nat, (paddedLength source padding).toRat? = some (d : Rat) ∧ 1 + 2 * p ≤ d ∧
      d ≤ 2 ^ 32 + 512 ∧ (p < 128 → d ≤ 2 ^ 32) ∧
      (source.toNat ≤ 2 ^ 23 → d = source.toNat + 2 * p) := by
  obtain ⟨v, hv, hnearest, h1, h32⟩ := ofUInt32_toRat? hs
  have hcast : (p : Rat) ≤ 161 := by exact_mod_cast h161
  have h32' : (v : Rat) ≤ 2 ^ 32 := by exact_mod_cast h32
  have htwo : (Scalar.ofRat 2 : Binary32).toRat? = some 2 := by decide +kernel
  have hgutter := Binary.toRat?_mul hp htwo (single_inRange (by
    rw [abs_of_nonneg (by positivity)]; linarith))
  have hexact : single.nearest (p * 2) = (p * 2 : Nat) := by
    exact_mod_cast single_nearest_natCast (n := p * 2) (by omega)
  rw [hexact] at hgutter
  have hsum := Binary.toRat?_add hv hgutter (single_inRange (by
    rw [abs_of_nonneg (by positivity)]; push_cast; linarith))
  rw [← Nat.cast_add] at hsum
  obtain ⟨d, hd⟩ := single.exists_nearest_natCast (v + p * 2)
  rw [hd] at hsum
  refine ⟨d, hsum, ?_, ?_, fun h128 => ?_, fun h23 => ?_⟩
  · have hwhole := single_nearest_natCast (n := 1 + 2 * p) (by omega)
    have : ((1 + 2 * p : Nat) : Rat) ≤ d := by
      rw [← hd, ← hwhole]
      exact single.nearest_mono (by exact_mod_cast (by omega : 1 + 2 * p ≤ v + p * 2))
    exact_mod_cast this
  · have hend := single_nearest_shift (m := 2 ^ 23 + 1) 9 (by norm_num)
    have : (d : Rat) ≤ ((2 ^ 23 + 1 : Nat) * 2 ^ 9 : Rat) := by
      rw [← hd, ← hend]
      exact single.nearest_mono (by push_cast; linarith)
    exact_mod_cast this
  · -- What is added is less than half a spacing.
    have hend : single.nearest (2 ^ 32 + 255) = 2 ^ 32 := by decide +kernel
    have hp127 : (p : Rat) ≤ 127 := by exact_mod_cast (by omega : p ≤ 127)
    have : (d : Rat) ≤ 2 ^ 32 := by
      rw [← hd, ← hend]
      exact single.nearest_mono (by push_cast; linarith)
    exact_mod_cast this
  · have hvs : v = source.toNat := by
      exact_mod_cast hnearest.trans (single_nearest_natCast (by omega))
    have hwhole := single_nearest_natCast (n := v + p * 2) (by omega)
    have : d = v + p * 2 := by exact_mod_cast hd.symm.trans hwhole
    omega

/-- The nearest integer to a number that is not negative. -/
theorem exists_round_eq {x : Rat} (h : 0 ≤ x) :
    ∃ j : Nat, Exact.round x = j ∧ (j : Rat) ≤ x + 1 / 2 ∧ x - 1 / 2 < j := by
  have hfloor : (0 : Int) ≤ (x + 1 / 2).floor := Rat.le_floor_iff.2 (by push_cast; linarith)
  obtain ⟨j, hj⟩ := Int.eq_ofNat_of_zero_le hfloor
  have hle := Rat.floor_le (x + 1 / 2)
  have hlt := Rat.lt_floor_add_one (x + 1 / 2)
  rw [hj] at hle hlt
  push_cast at hle hlt
  refine ⟨j, ?_, hle, by linarith⟩
  rw [Exact.round, if_neg h.not_gt, hj]
  rfl

/-- Rounding to whole pixels adds at most half a pixel, unless it would leave none, and takes away
    at most half a pixel. The target is never larger than the padded source. -/
theorem pixelLength_toRat? {padded resolution : Binary32} {d : Nat} {k : Rat}
    (hd : padded.toRat? = some (d : Rat)) (hk : resolution.toRat? = some k) (h1 : 1 ≤ d)
    (h33 : d ≤ 2 ^ 33) (hk0 : 0 ≤ k) (hk1 : k ≤ 1) :
    ∃ t : Nat, (pixelLength padded resolution).toRat? = some (t : Rat) ∧ 1 ≤ t ∧ t ≤ d ∧
      (t = 1 ∨ (t : Rat) ≤ d * k + 1 / 2 + d / 2 ^ 22) ∧ (d : Rat) * k - 1 / 2 - d / 2 ^ 22 ≤ t ∧
      (k = 1 → t = d) := by
  have h1' : (1 : Rat) ≤ d := by exact_mod_cast h1
  have h33' : (d : Rat) ≤ 2 ^ 33 := by exact_mod_cast h33
  have hdnear : single.nearest (d : Rat) = d := Binary.nearest_of_toRat? hd
  have hdk : d * k ≤ d := mul_le_of_le_one_right (by linarith) hk1
  have hdk0 : 0 ≤ d * k := by positivity
  obtain ⟨x, hx, ex⟩ := Binary32.mul_rounded d hd hk (by rwa [abs_of_nonneg hdk0]) (by linarith)
  have hxd : x ≤ d := ex.le hdnear hdk
  obtain ⟨i, hi, hixhigh, hixlow⟩ := exists_round_eq (ex.nonneg hdk0)
  have hid : i ≤ d := by
    have : (i : Rat) < (d + 1 : Nat) := by push_cast; linarith
    exact Nat.lt_succ_iff.1 (by exact_mod_cast this)
  have hid' : (i : Rat) ≤ d := by exact_mod_cast hid
  have hround := Binary.toRat?_nearestInteger hx (single_inRange (by
    rw [hi, abs_of_nonneg (by positivity)]; linarith))
  obtain ⟨j, hj⟩ := single.exists_nearest_natCast i
  rw [hi, hj] at hround
  have hjd : (j : Rat) ≤ d := by
    rw [← hj, ← hdnear]
    exact single.nearest_mono hid'
  have herr := Format.abs_single_nearest_sub_le (i : Rat)
  rw [hj, abs_of_nonneg (show (0 : Rat) ≤ i by positivity), abs_le] at herr
  have hjk : k = 1 → j = d := by
    rintro rfl
    have hxd : x = d := by rw [ex.eq, mul_one, hdnear]
    have hdi : d ≤ i := by
      have : (d : Rat) < (i + 1 : Nat) := by push_cast; linarith
      exact Nat.lt_succ_iff.1 (by exact_mod_cast this)
    rw [Nat.le_antisymm hid hdi, hdnear] at hj
    exact_mod_cast hj.symm
  have lx := ex.lower
  have ux := ex.upper
  simp only [pixelLength, Binary.lt_iff_of_toRat? Kernel.one_toRat? hround]
  split
  case isTrue hlt =>
    refine ⟨j, hround, by exact_mod_cast hlt.le, by exact_mod_cast hjd, ?_, ?_, hjk⟩
    · exact .inr (by linarith)
    · linarith
  case isFalse hle =>
    rw [not_lt] at hle
    refine ⟨1, by simpa using Kernel.one_toRat?, le_refl 1, h1, .inl rfl, ?_, fun hk => ?_⟩
    · push_cast
      linarith
    · exact Nat.le_antisymm h1 (hjk hk ▸ by exact_mod_cast hle)

/-- A whole number that is too large for a word is cut to the largest. -/
theorem pixels_toNat {padded resolution : Binary32} {t : Nat}
    (ht : (pixelLength padded resolution).toRat? = some (t : Rat)) :
    (pixels padded resolution).toNat = min t (2 ^ 32 - 1) := by
  have hfloor : (t : Rat).floor = t := by exact_mod_cast Rat.floor_intCast t
  rw [pixels, Binary.toUInt32_of_toRat? ht, toNat_ofNatClamp, hfloor, Int.toNat_natCast]
  rfl

/-- The largest word is rounded up where the scale is computed with it. -/
theorem ofUInt32_pixels_toRat? {padded resolution : Binary32} {t : Nat}
    (ht : (pixelLength padded resolution).toRat? = some (t : Rat)) :
    (Scalar.ofUInt32 (pixels padded resolution) : Binary32).toRat? =
      some ((min t (2 ^ 32) : Nat) : Rat) := by
  obtain ⟨m, hm, hnearest, -, -⟩ := ofUInt32_toRat? (pixels_ne_zero padded resolution)
  rw [hm, hnearest, pixels_toNat ht]
  rcases Nat.lt_or_ge t (2 ^ 32) with hlt | hge
  · rw [min_eq_left (Nat.le_sub_one_of_lt hlt), min_eq_left hlt.le, Binary.nearest_of_toRat? ht]
  · have hend : single.nearest (2 ^ 32 - 1 : Nat) = (2 ^ 32 : Nat) := by decide +kernel
    rw [min_eq_right (by omega), min_eq_right hge, hend]

/-! ## The achieved scale -/

/-- The numbers behind one axis of a target: its padded length `d`, the resolution `k`, and its
    number of pixels, which the scale is computed with as `m`. -/
structure Fit (padded resolution : Binary32) (k : Rat) (d m : Nat) : Prop where
  padded_toRat? : padded.toRat? = some (d : Rat)
  padded_le : d ≤ 2 ^ 32 + 512
  pixels_le : (pixels padded resolution).toNat ≤ d
  scalar_toRat? : (Scalar.ofUInt32 (pixels padded resolution) : Binary32).toRat? = some (m : Rat)
  pos : 1 ≤ m
  le : m ≤ d
  upper : m = 1 ∨ (m : Rat) ≤ d * k + 1 / 2 + d / 2 ^ 22
  lower : (d : Rat) * k - 1 / 2 - d / 2 ^ 22 ≤ m
  full : k = 1 → d ≤ 2 ^ 32 → m = d ∧ (d < 2 ^ 32 → (pixels padded resolution).toNat = d)

theorem exists_fit {padded resolution : Binary32} {d : Nat} {k : Rat}
    (hd : padded.toRat? = some (d : Rat)) (hk : resolution.toRat? = some k) (h1 : 1 ≤ d)
    (hmax : d ≤ 2 ^ 32 + 512) (hk0 : 0 ≤ k) (hk1 : k ≤ 1) : ∃ m, Fit padded resolution k d m := by
  obtain ⟨t, ht, ht1, htd, hupper, hlower, hfull⟩ :=
    pixelLength_toRat? hd hk h1 (hmax.trans (by norm_num)) hk0 hk1
  refine ⟨min t (2 ^ 32), hd, hmax, ?_, ofUInt32_pixels_toRat? ht, ?_, ?_, ?_, ?_, ?_⟩
  · rw [pixels_toNat ht]
    exact (min_le_left _ _).trans htd
  · exact le_min ht1 (by norm_num)
  · exact (min_le_left _ _).trans htd
  · refine hupper.imp (fun h => ?_) fun h => le_trans (by exact_mod_cast min_le_left _ _) h
    rw [h]
    rfl
  · rcases le_total t (2 ^ 32) with hle | hge
    · rwa [min_eq_left hle]
    · -- So close to the end of the range, all that was cut off is next to nothing.
      have hdk : d * k ≤ d := mul_le_of_le_one_right (by positivity) hk1
      have hlow : (2 : Rat) ^ 32 ≤ d := by exact_mod_cast hge.trans htd
      have hhigh : (d : Rat) ≤ 2 ^ 32 + 512 := by exact_mod_cast hmax
      rw [min_eq_right hge]
      push_cast
      linarith
  · intro hk hd32
    rw [pixels_toNat ht, hfull hk, min_eq_left hd32]
    exact ⟨rfl, fun hlt => min_eq_left (Nat.le_sub_one_of_lt hlt)⟩

namespace Fit

variable {padded resolution : Binary32} {k : Rat} {d m : Nat}

theorem padded_pos (h : Fit padded resolution k d m) : (0 : Rat) < d := by
  exact_mod_cast h.pos.trans h.le

/-- The achieved scale is a positive number, and no larger than one. -/
theorem achieved (h : Fit padded resolution k d m) :
    ∃ a, (achievedOn padded resolution).toRat? = some a ∧ 1 / 2 ^ 33 ≤ a ∧ a ≤ 1 ∧
      |a - m / d| ≤ 1 / 2 ^ 23 ∧ (m = d → a = 1) := by
  have hd := h.padded_pos
  have hm1 : (1 : Rat) ≤ m := by exact_mod_cast h.pos
  have hmd : (m : Rat) ≤ d := by exact_mod_cast h.le
  have hd33 : (d : Rat) ≤ 2 ^ 33 := by exact_mod_cast h.padded_le.trans (by norm_num)
  have hsmall : single.nearest (1 / 2 ^ 33) = 1 / 2 ^ 33 := by decide +kernel
  have hquot1 : (m : Rat) / d ≤ 1 := (div_le_one hd).2 hmd
  have hquot0 : 1 / 2 ^ 33 ≤ (m : Rat) / d := div_le_div₀ (by positivity) hm1 hd hd33
  obtain ⟨a, ha, e⟩ := Binary32.div_rounded 1 h.scalar_toRat? h.padded_toRat? hd.ne' (by
    rw [abs_of_nonneg (by positivity)]; exact hquot1) (by norm_num)
  refine ⟨a, ha, e.ge hsmall hquot0, e.le single_nearest_one hquot1, e.close.trans (by norm_num), ?_⟩
  intro heq
  rw [e.eq, heq, div_self hd.ne', single_nearest_one]

end Fit

/-- The achieved scale is off the resolution by at most half a pixel of the padded length, which
    is at least `1 + 2 * p`, or it is what a single pixel makes of that length. -/
theorem achievedOn_toRat? {source : UInt32} {padding resolution : Binary32} {p : Nat} {k : Rat}
    (hs : source ≠ 0) (hp : padding.toRat? = some (p : Rat)) (h161 : p ≤ 161)
    (hk : resolution.toRat? = some k) (hk0 : 0 ≤ k) (hk1 : k ≤ 1) :
    ∃ a, (achievedOn (paddedLength source padding) resolution).toRat? = some a ∧ 0 ≤ a ∧ a ≤ 1 ∧
      (a ≤ k + 1 / 2 * (1 / (1 + 2 * p)) + 1 / 10 ^ 6 ∨ a ≤ 1 / (1 + 2 * p) + 1 / 10 ^ 6) ∧
      k - 1 / 2 * (1 / (1 + 2 * p)) - 1 / 10 ^ 6 ≤ a := by
  obtain ⟨d, hd, hlow, hmax, -, -⟩ := paddedLength_toRat? hs hp h161
  obtain ⟨m, hfit⟩ := exists_fit hd hk (by omega) hmax hk0 hk1
  obtain ⟨a, ha, ha0, ha1, hclose, -⟩ := hfit.achieved
  have hd0 := hfit.padded_pos
  have hlow' : (1 + 2 * p : Rat) ≤ d := by exact_mod_cast hlow
  have hinv : 1 / (d : Rat) ≤ 1 / (1 + 2 * p) := one_div_le_one_div_of_le (by positivity) hlow'
  have hover (c : Rat) : (d * k + c * (1 / 2) + c * (d / 2 ^ 22)) / d =
      k + c * (1 / 2 * (1 / d)) + c / 2 ^ 22 := by field_simp
  rw [abs_le] at hclose
  refine ⟨a, ha, le_trans (by positivity) ha0, ha1, ?_, ?_⟩
  · refine hfit.upper.symm.imp (fun h => ?_) fun h => ?_
    · have hquot := div_le_div_of_nonneg_right (show (m : Rat) ≤ d * k + 1 * (1 / 2) +
        1 * (d / 2 ^ 22) by linarith) hd0.le
      rw [hover] at hquot
      linarith
    · have hquot : (m : Rat) / d = 1 / d := by rw [h, Nat.cast_one]
      linarith
  · have hquot := div_le_div_of_nonneg_right (show d * k + (-1) * (1 / 2) +
      (-1) * (d / 2 ^ 22) ≤ (m : Rat) by linarith [hfit.lower]) hd0.le
    rw [hover] at hquot
    linarith

/-! ## Usable targets -/

/-- One axis of a target that can be rendered and undone: it has a pixel, no more pixels than the
    padded source, and a scale to multiply with and to divide by. -/
structure Usable (padded : Binary32) (pixels : UInt32) (achieved : Binary32) : Prop where
  exists_padded : ∃ d, padded.toRat? = some d ∧ 1 ≤ pixels.toNat ∧ (pixels.toNat : Rat) ≤ d
  exists_achieved : ∃ a, achieved.toRat? = some a ∧ 0 < a ∧ a ≤ 1
  exists_back : ∃ i, (1 / achieved).toRat? = some i ∧ 1 ≤ i

theorem Fit.usable {padded resolution : Binary32} {k : Rat} {d m : Nat}
    (h : Fit padded resolution k d m) :
    Usable padded (pixels padded resolution) (achievedOn padded resolution) := by
  obtain ⟨a, ha, hlow, ha1, -, -⟩ := h.achieved
  have ha0 : 0 < a := lt_of_lt_of_le (by norm_num) hlow
  have hpixel : 1 ≤ (pixels padded resolution).toNat :=
    Nat.pos_of_ne_zero fun h0 => pixels_ne_zero padded resolution (UInt32.toNat_inj.1 h0)
  have hback1 : 1 ≤ 1 / a := (one_le_div ha0).2 ha1
  have hback33 : 1 / a ≤ 2 ^ 33 := (one_div_le_one_div_of_le (by norm_num) hlow).trans (by norm_num)
  obtain ⟨i, hi, e⟩ := Binary32.div_rounded (2 ^ 33) Kernel.one_toRat? ha ha0.ne' (by
    rwa [abs_of_nonneg (by linarith)]) (by norm_num)
  exact ⟨⟨d, h.padded_toRat?, hpixel, by exact_mod_cast h.pixels_le⟩, ⟨a, ha, ha0, ha1⟩,
    ⟨i, hi, e.ge single_nearest_one hback1⟩⟩

/-- At the full resolution nothing is scaled. -/
theorem Fit.achieved_eq_one {padded resolution : Binary32} {d m : Nat}
    (h : Fit padded resolution 1 d m) (hd : d ≤ 2 ^ 32) : achievedOn padded resolution = 1 := by
  obtain ⟨a, ha, -, -, -, hfull⟩ := h.achieved
  rw [hfull (h.full rfl hd).1] at ha
  exact Binary.eq_of_toRat? ha Kernel.one_toRat? one_ne_zero

/-- One axis of the target for an extent. -/
theorem axis_usable {source : UInt32} (hs : source ≠ 0) {request resolution : Binary32} {s k : Rat}
    (hsigma : (Kernel.falloff request).toRat? = some s) (hsigma0 : 0 ≤ s)
    (hk : resolution.toRat? = some k) (hk0 : 0 ≤ k) (hk1 : k ≤ 1) (hks : k * s ≤ 4.0001) :
    let padding := Scalar.ceil (Kernel.radius (Kernel.falloff request))
    let padded := paddedLength source padding
    Usable padded (pixels padded resolution) (achievedOn padded resolution) ∧
      (k = 1 → achievedOn padded resolution = 1 ∧ (source.toNat ≤ 2 ^ 23 →
        ∃ p : Nat, padding.toRat? = some (p : Rat) ∧
          (pixels padded resolution).toNat = source.toNat + 2 * p)) := by
  intro padding padded
  obtain ⟨-, p, -, hp, -, -, -, h158⟩ := (Extent.axisBounds request).exists_gutter
  obtain ⟨d, hd, hlow, hmax, hmax', hexact⟩ := paddedLength_toRat? hs hp (by omega)
  obtain ⟨m, hfit⟩ := exists_fit hd hk (by omega) hmax hk0 hk1
  refine ⟨hfit.usable, ?_⟩
  rintro rfl
  have h7 : p ≤ 7 := Kernel.padding_le_of_sigma_le hsigma hsigma0 (by linarith) hp
  have hd32 : d ≤ 2 ^ 32 := hmax' (by omega)
  refine ⟨hfit.achieved_eq_one hd32, fun h23 => ⟨p, hp, ?_⟩⟩
  rw [← hexact h23]
  exact (hfit.full rfl hd32).2 (by omega)

/-- The target for an extent is usable on both axes, whatever was requested and for every source
    with pixels. At the full resolution it takes in the padded source as it is. -/
theorem ofSource_usable (requested : Vec2 Binary32) {source : Size}
    (hsource : source.isEmpty = false) :
    let e := Extent.ofRequest requested
    let t := ofSource source e.padding e.resolution
    Usable (source.padded e.padding).x t.size.width t.achieved.x ∧
      Usable (source.padded e.padding).y t.size.height t.achieved.y ∧
      (e.resolution = 1 → t.achieved = .splat 1 ∧
        (source.width.toNat ≤ 2 ^ 23 → ∃ p : Nat, e.padding.x.toRat? = some (p : Rat) ∧
          t.size.width.toNat = source.width.toNat + 2 * p) ∧
        (source.height.toNat ≤ 2 ^ 23 → ∃ p : Nat, e.padding.y.toRat? = some (p : Rat) ∧
          t.size.height.toNat = source.height.toNat + 2 * p)) := by
  intro e t
  obtain ⟨hwidth, hheight⟩ := Size.dimensions_ne_zero hsource
  obtain ⟨x, hx, hx0, hx92⟩ := Kernel.falloff_toRat? requested.x
  obtain ⟨y, hy, hy0, hy92⟩ := Kernel.falloff_toRat? requested.y
  obtain ⟨k, hk, hk25, hk1, hkx, hky, -⟩ :=
    Extent.resolution_toRat? (e := e) hx hx0 hx92 hy hy0 hy92
  obtain ⟨hx, hfullX⟩ := axis_usable hwidth hx hx0 hk (by linarith) hk1 hkx
  obtain ⟨hy, hfullY⟩ := axis_usable hheight hy hy0 hk (by linarith) hk1 hky
  refine ⟨hx, hy, fun hresolution => ?_⟩
  have hk' : k = 1 := by
    rw [hresolution] at hk
    exact (Option.some.inj (Kernel.one_toRat?.symm.trans hk)).symm
  obtain ⟨hachievedX, hpixelsX⟩ := hfullX hk'
  obtain ⟨hachievedY, hpixelsY⟩ := hfullY hk'
  exact ⟨congrArg₂ Vec2.mk hachievedX hachievedY, hpixelsX, hpixelsY⟩

/-- The largest width is stored as the next power of two, and its target is not scaled either. -/
theorem ofSource_usable_of_largest :
    let e := Extent.ofRequest (.splat (Scalar.ofRat 3) : Vec2 Binary32)
    let source : Size := ⟨4294967295, 1⟩
    source.isEmpty = false ∧ e.resolution = 1 ∧
      (ofSource source e.padding e.resolution).achieved = .splat 1 := by
  have hresolution :
      (Extent.ofRequest (.splat (Scalar.ofRat 3) : Vec2 Binary32)).resolution = 1 := by
    decide +kernel
  exact ⟨rfl, hresolution, ((ofSource_usable _ rfl).2.2 hresolution).1⟩

end TargetPlan

/-- The targets of a blur have pixels. -/
theorem Blur.isEmpty_target (b : Blur Binary32) (source : Size) :
    (b.target source).size.isEmpty = false :=
  TargetPlan.isEmpty_ofSource source b.extent.padding b.extent.resolution

end SeparableBlur

-- SUMMARY: The cost of a kernel is bounded: sigma, radius and number of samples of every blurring stage.
import SeparableBlur.Proofs.Render
import SeparableBlur.Proofs.Target

/-!
# The cost of a kernel

A strong blur is rendered at a low resolution, so the kernel of a stage is never
wide. The product of the sigma and the resolution is at most the threshold; what
rounding the target to whole pixels adds to it is at most half a pixel of the
padded length, and a sigma large enough for that to matter comes with a gutter
that makes the padded length long.
-/

namespace SeparableBlur

open Format (single single_nearest_natCast single_nearest_quarter)

/-! ## Samples -/

namespace AxisKernel

section

variable {α : Type} [Scalar α]

/-- Where the blur programs take sample `n`, in texels along the axis. They start at minus the
    radius and add the step each time. -/
def offset (k : AxisKernel α) : Nat → α
  | 0 => -k.radius
  | n + 1 => k.offset n + k.step

/-- The loop over the samples ends after `n` of them. -/
def Takes (k : AxisKernel α) (n : Nat) : Prop :=
  (∀ m < n, k.offset m ≤ k.radius) ∧ ¬k.offset n ≤ k.radius

/-- The loop ends no later than at a sample that lies past the radius. -/
theorem exists_takes_le {k : AxisKernel α} {n : Nat} (h : ¬k.offset n ≤ k.radius) :
    ∃ m ≤ n, k.Takes m := by
  have hex : ∃ m, ¬k.offset m ≤ k.radius := ⟨n, h⟩
  refine ⟨Nat.find hex, Nat.find_min' hex h, ?_, Nat.find_spec hex⟩
  intro m hm
  exact Classical.not_not.1 (Nat.find_min hex hm)

end

/-- With a radius of at most `7.25`, sample `n` lies at `n - 7.25` or beyond. -/
theorem offset_toRat? {k : AxisKernel Binary32} {r : Rat} (hr : k.radius.toRat? = some r)
    (h0 : 0 ≤ r) (h29 : r ≤ 29 / 4) (hstep : k.step = 1) (n : Nat) (hn : n ≤ 15) :
    ∃ x, (k.offset n).toRat? = some x ∧ n - 29 / 4 ≤ x ∧ x ≤ n := by
  induction n with
  | zero => exact ⟨-r, Binary.toRat?_neg hr, by push_cast; linarith, by push_cast; linarith⟩
  | succ n ih =>
    obtain ⟨x, hx, hlow, hhigh⟩ := ih (by omega)
    have hn15 : (n : Rat) ≤ 15 := by exact_mod_cast (by omega : n ≤ 15)
    obtain ⟨y, hy, e⟩ := Binary32.add_rounded 32 hx Kernel.one_toRat? (by
      rw [abs_le]; constructor <;> linarith) (by norm_num)
    have hlowGrid : single.nearest (((4 * n - 25 : Int) : Rat) / 4) = ((4 * n - 25 : Int) : Rat) / 4 :=
      single_nearest_quarter (by omega)
    have hhighGrid : single.nearest ((n + 1 : Nat) : Rat) = ((n + 1 : Nat) : Rat) :=
      single_nearest_natCast (by omega)
    refine ⟨y, by rw [offset, hstep, hy], ?_, ?_⟩
    · have := e.ge hlowGrid (by push_cast; linarith)
      push_cast at this ⊢
      linarith
    · exact e.le hhighGrid (by push_cast; linarith)

/-- A radius of at most `7.25` makes at most fifteen samples. -/
theorem exists_takes_of_radius {k : AxisKernel Binary32} {r : Rat} (hr : k.radius.toRat? = some r)
    (h0 : 0 ≤ r) (h29 : r ≤ 29 / 4) (hstep : k.step = 1) : ∃ n ≤ 15, k.Takes n := by
  obtain ⟨x, hx, hlow, -⟩ := offset_toRat? hr h0 h29 hstep 15 (le_refl 15)
  apply exists_takes_le
  rw [Binary.le_iff_of_toRat? hx hr]
  push_cast at hlow
  linarith

end AxisKernel

/-! ## Kernels of a blur -/

/-- What a kernel that is rendered costs: both numbers are finite and small, and the loop over
    the samples is short. -/
structure AxisKernel.Cheap (k : AxisKernel Binary32) : Prop where
  sigma_ge : Kernel.epsilon ≤ k.sigma
  sigma_le : k.sigma ≤ Scalar.ofRat 4.25
  radius_ge : 0 ≤ k.radius
  radius_le : k.radius ≤ Scalar.ofRat 7.25
  step_eq : k.step = 1
  samples : ∃ n ≤ 15, k.Takes n

namespace Kernel

theorem quarter_toRat? : (Scalar.ofRat 4.25 : Binary32).toRat? = some (17 / 4) ∧
    (Scalar.ofRat 7.25 : Binary32).toRat? = some (29 / 4) := by
  decide +kernel

theorem epsilon_toRat? : ∃ e, (epsilon : Binary32).toRat? = some e :=
  ⟨_, Binary.toRat?_ofRat (Format.single_inRange (by norm_num [abs_of_pos]))⟩

/-- The numbers behind one axis of a blur: the sigma `s`, the radius `r` and the width of the
    gutter `p`. -/
structure Axis (request : Binary32) (s r : Rat) (p : Nat) : Prop where
  sigma : (falloff request).toRat? = some s
  sigma_nonneg : 0 ≤ s
  sigma_le : s ≤ 92
  radius : (Kernel.radius (falloff request)).toRat? = some r
  radius_nonneg : 0 ≤ r
  radius_le_sigma : r ≤ 1.7321 * s
  padding : (Scalar.ceil (Kernel.radius (falloff request))).toRat? = some (p : Rat)
  padding_le : p ≤ 161
  radius_le_padding : r ≤ p
  sigma_le_padding : 1.732 * s - 0.8661 ≤ p

theorem exists_axis (request : Binary32) : ∃ s r p, Axis request s r p := by
  obtain ⟨s, hs, hs0, hs92⟩ := falloff_toRat? request
  obtain ⟨r, hr, hr0, hupper, hlower, -⟩ := radius_toRat? hs hs0 hs92
  obtain ⟨p, hp, hle, hlt⟩ := ceil_toRat? hr hr0 (by linarith)
  have hp161 : p ≤ 161 := by
    have : (p : Rat) < 162 := by linarith
    have : p < 162 := by exact_mod_cast this
    omega
  exact ⟨s, r, p, hs, hs0, hs92, hr, hr0, hupper, hp, hp161, hle, by linarith⟩

namespace Axis

variable {request : Binary32} {s r k a : Rat} {p : Nat}

/-- What a whole pixel of the padded length means for the sigma and for the radius. A large sigma
    comes with a wide gutter. -/
theorem pixel_le (h : Axis request s r p) {q : Rat} (hq0 : 0 ≤ q) (hq : q * (1 + 2 * p) = 1) :
    s * q ≤ 2 ∧ (2 < s → s * q ≤ 0.33) ∧ r * q ≤ 1 / 2 := by
  have hp0 : (0 : Rat) ≤ p := by positivity
  have hpq : 0 ≤ p * q := mul_nonneg hp0 hq0
  have hq1 : q ≤ 1 := by linarith
  have hgutter : (1.732 * s - 0.8661) * q ≤ p * q :=
    mul_le_mul_of_nonneg_right h.sigma_le_padding hq0
  have hradius : r * q ≤ p * q := mul_le_mul_of_nonneg_right h.radius_le_padding hq0
  refine ⟨?_, ?_, by linarith⟩
  · rcases le_or_gt s 2 with hs | hs
    · have : s * q ≤ 2 * 1 := mul_le_mul hs hq1 hq0 (by norm_num)
      linarith
    · have : 2 * q ≤ s * q := mul_le_mul_of_nonneg_right hs.le hq0
      linarith
  · intro hs
    have : 2 * q ≤ s * q := mul_le_mul_of_nonneg_right hs.le hq0
    linarith

/-- The achieved scale times the sigma and times the radius, where it exceeds the resolution by
    half a pixel at most. -/
theorem scaled_le_of_round (h : Axis request s r p) (hk0 : 0 ≤ k) (hk1 : k ≤ 1)
    (hks : k * s ≤ 4.0001) (ha : a ≤ k + 1 / 2 * (1 / (1 + 2 * p)) + 1 / 10 ^ 6) :
    s * a ≤ 17 / 4 ∧ r * a ≤ 29 / 4 := by
  have hs0 := h.sigma_nonneg
  have hs92 := h.sigma_le
  have hrs := h.radius_le_sigma
  obtain ⟨hsmall, hlarge, hradius⟩ :=
    h.pixel_le (q := 1 / (1 + 2 * p)) (by positivity) (by field_simp)
  have hsa := mul_le_mul_of_nonneg_left ha hs0
  have hra := mul_le_mul_of_nonneg_left ha h.radius_nonneg
  have hrk : r * k ≤ 1.7321 * s * k := mul_le_mul_of_nonneg_right hrs hk0
  constructor
  · rcases le_or_gt s 2 with hs | hs
    · have : k * s ≤ 1 * 2 := mul_le_mul hk1 hs hs0 (by norm_num)
      linarith
    · linarith [hlarge hs]
  · linarith

/-- The same where the target is a single pixel. -/
theorem scaled_le_of_pixel (h : Axis request s r p) (ha : a ≤ 1 / (1 + 2 * p) + 1 / 10 ^ 6) :
    s * a ≤ 17 / 4 ∧ r * a ≤ 29 / 4 := by
  have hs92 := h.sigma_le
  have hrs := h.radius_le_sigma
  obtain ⟨hsmall, -, hradius⟩ :=
    h.pixel_le (q := 1 / (1 + 2 * p)) (by positivity) (by field_simp)
  have hsa := mul_le_mul_of_nonneg_left ha h.sigma_nonneg
  have hra := mul_le_mul_of_nonneg_left ha h.radius_nonneg
  constructor <;> linarith

/-- The corrected sigma and radius. -/
theorem corrected_toRat? (h : Axis request s r p) {source : UInt32} {resolution : Binary32}
    (hsource : source ≠ 0) (hk : resolution.toRat? = some k) (hk0 : 0 ≤ k) (hk1 : k ≤ 1)
    (hks : k * s ≤ 4.0001) :
    ∃ v w : Rat,
      (falloff request * TargetPlan.achievedOn (TargetPlan.paddedLength source
        (Scalar.ceil (Kernel.radius (falloff request)))) resolution).toRat? = some v ∧
        v ≤ 17 / 4 ∧
      (Kernel.radius (falloff request) * TargetPlan.achievedOn (TargetPlan.paddedLength source
        (Scalar.ceil (Kernel.radius (falloff request)))) resolution).toRat? = some w ∧ 0 ≤ w ∧
        w ≤ 29 / 4 := by
  obtain ⟨a, ha, ha0, -, hcases, -⟩ :=
    TargetPlan.achievedOn_toRat? hsource h.padding h.padding_le hk hk0 hk1
  obtain ⟨hv, hw⟩ : s * a ≤ 17 / 4 ∧ r * a ≤ 29 / 4 := by
    rcases hcases with ha | ha
    · exact h.scaled_le_of_round hk0 hk1 hks ha
    · exact h.scaled_le_of_pixel ha
  have hv0 : 0 ≤ s * a := mul_nonneg h.sigma_nonneg ha0
  have hw0 : 0 ≤ r * a := mul_nonneg h.radius_nonneg ha0
  obtain ⟨v, hvv, ev⟩ := Binary32.mul_rounded 5 h.sigma ha (by rw [abs_of_nonneg hv0]; linarith)
    (by norm_num)
  obtain ⟨w, hww, ew⟩ := Binary32.mul_rounded 8 h.radius ha (by rw [abs_of_nonneg hw0]; linarith)
    (by norm_num)
  have h17 : single.nearest (17 / 4) = 17 / 4 := by
    simpa using single_nearest_quarter (z := 17) (by norm_num)
  have h29 : single.nearest (29 / 4) = 29 / 4 := by
    simpa using single_nearest_quarter (z := 29) (by norm_num)
  exact ⟨v, w, hvv, ev.le h17 hv, hww, ew.nonneg hw0, ew.le h29 hw⟩

end Axis

end Kernel

theorem AxisKernel.cheap_of_toRat? {k : AxisKernel Binary32} {v w : Rat}
    (hv : k.sigma.toRat? = some v) (h17 : v ≤ 17 / 4) (hw : k.radius.toRat? = some w)
    (hw0 : 0 ≤ w) (h29 : w ≤ 29 / 4) (hstep : k.step = 1) (h : ¬k.sigma < Kernel.epsilon) :
    k.Cheap := by
  obtain ⟨hsigmaMax, hradiusMax⟩ := Kernel.quarter_toRat?
  obtain ⟨e, he⟩ := Kernel.epsilon_toRat?
  rw [Binary.lt_iff_of_toRat? hv he, not_lt] at h
  constructor
  · exact (Binary.le_iff_of_toRat? he hv).2 h
  · exact (Binary.le_iff_of_toRat? hv hsigmaMax).2 h17
  · exact (Binary.le_iff_of_toRat? Kernel.zero_toRat? hw).2 hw0
  · exact (Binary.le_iff_of_toRat? hw hradiusMax).2 h29
  · exact hstep
  · exact exists_takes_of_radius hw hw0 h29 hstep

namespace Blur

variable (b : Blur Binary32) {source : Size}

/-- The resolution of a blur suits the sigma of either axis. -/
theorem resolution_toRat? {x y i j : Rat} {m n : Nat} (hx : Kernel.Axis b.sigma.x x i m)
    (hy : Kernel.Axis b.sigma.y y j n) :
    ∃ k, b.extent.resolution.toRat? = some k ∧ 0 ≤ k ∧ k ≤ 1 ∧ k * x ≤ 4.0001 ∧
      k * y ≤ 4.0001 ∧ (k = 1 ∨ 3.9999 ≤ k * max x y) := by
  obtain ⟨k, hk, hk25, hk1, hsuits⟩ := Extent.resolution_toRat? (e := b.extent) hx.sigma
    hx.sigma_nonneg hx.sigma_le hy.sigma hy.sigma_nonneg hy.sigma_le
  exact ⟨k, hk, by linarith, hk1, hsuits⟩

/-- The kernels of the blurring stages that are rendered, for a source with pixels. -/
theorem kernels_cheap (hsource : source.isEmpty = false) :
    (¬(b.verticalKernel source).sigma < Kernel.epsilon → (b.verticalKernel source).Cheap) ∧
    (¬(b.horizontalKernel source).sigma < Kernel.epsilon → (b.horizontalKernel source).Cheap) := by
  obtain ⟨hwidth, hheight⟩ := Size.dimensions_ne_zero hsource
  obtain ⟨_, _, _, hx⟩ := Kernel.exists_axis b.sigma.x
  obtain ⟨_, _, _, hy⟩ := Kernel.exists_axis b.sigma.y
  obtain ⟨_, hk, hk0, hk1, hkx, hky, -⟩ := b.resolution_toRat? hx hy
  constructor
  · intro hsigma
    obtain ⟨_, _, hv, h17, hw, hw0, h29⟩ := hy.corrected_toRat? hheight hk hk0 hk1 hky
    exact AxisKernel.cheap_of_toRat? hv h17 hw hw0 h29 rfl hsigma
  · intro hsigma
    obtain ⟨_, _, hv, h17, hw, hw0, h29⟩ := hx.corrected_toRat? hwidth hk hk0 hk1 hkx
    exact AxisKernel.cheap_of_toRat? hv h17 hw hw0 h29 rfl hsigma

/-- Every blurring stage that is rendered is cheap, however strong the blur is and whatever the
    size of the source. -/
theorem kernel_cheap {σ τ : Type} (r : SubpassRenderer Binary32 σ τ)
    (inputs : List (FilterInput Binary32 σ τ)) (entity : Entity Binary32)
    (effect : Matrix4 Binary32) (hint : Option (Rect Binary32))
    (s : Logged Binary32 σ) {call : Call Binary32 τ}
    (hcall : call ∈ b.calls r inputs entity effect hint s)
    (hblur : call.subpass.pipeline ≠ .fill) :
    ∃ k, call.subpass.kernel = some k ∧ k.Cheap := by
  obtain ⟨calls, _, _, _, hcalls, -, h⟩ := b.renders r entity inputs effect hint s
  rw [hcalls] at hcall
  cases h with
  | blurred _ hsize _ hissues =>
    obtain ⟨hvertical, hhorizontal⟩ := b.kernels_cheap hsize
    obtain ⟨down, passes, _, hdown, hpasses, hchain, -⟩ := hissues.chain
    rcases List.mem_cons.1 (hchain.pass_mem call hcall) with heq | hmem
    · exact absurd (heq ▸ hdown.pipeline) hblur
    · obtain ⟨_, k, hk, hsigma, hpass⟩ := hpasses _ hmem
      refine ⟨k, hpass.kernel, ?_⟩
      rcases hk with rfl | rfl
      · exact hvertical hsigma
      · exact hhorizontal hsigma
  | _ => cases hcall

/-- A renderer that hands out sizes in place of textures. -/
def sizesOnly : SubpassRenderer Binary32 Unit Size where
  size := id
  capabilities _ := {}
  run subpass := return subpass.size

/-- The calls of a blur with a sigma of ten, for a source of 100 by 80 pixels. -/
def callsOfTen : List (Call Binary32 Size) :=
  Blur.calls ⟨.splat (Scalar.ofRat 10), .decal⟩ sizesOnly
    [.ofTexture ⟨100, 80⟩ ⟨100, 80⟩ .identity] default .identity none ⟨(), []⟩

theorem kernel_cheap_of_ten :
    ∃ call ∈ callsOfTen, call.subpass.pipeline ≠ .fill ∧
      ∃ k, call.subpass.kernel = some k ∧ k.Cheap := by
  have hlength : 1 < callsOfTen.length := by decide +kernel
  have hblur : callsOfTen[1].subpass.pipeline ≠ .fill := by decide +kernel +revert
  have hmem : callsOfTen[1] ∈ callsOfTen := List.getElem_mem hlength
  exact ⟨_, hmem, hblur, kernel_cheap _ _ _ _ _ _ _ hmem hblur⟩

end Blur

end SeparableBlur

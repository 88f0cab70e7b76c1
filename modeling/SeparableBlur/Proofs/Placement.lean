-- SUMMARY: Where the copy of a source is sampled and where the result is placed: the two agree for sources that are not placed themselves.
import SeparableBlur.Proofs.Affine
import SeparableBlur.Proofs.Render
import SeparableBlur.Proofs.SigmaModel

/-!
# Placement

The first pass of a blur reads its source at the texture coordinates of a quad, and
the result is placed by a transform. Without rounding, the two can be compared: what
is sampled for a position of the target, and where that position is placed, should be
the same pixel of the source.

Both take account of the placement of the source. The texture coordinates are those
of the placed image, and the transform of the result is made from the transform of
the snapshot, which contains the placement again. So the result lands on its source
if the placement moves nothing, and in general not otherwise.
-/

namespace SeparableBlur

/-! ## Quads -/

/-- What a strip over the unit square shows at `u`: on either side of the diagonal from the top
    right to the bottom left, the corners of that triangle are interpolated. -/
def Quad.interpolate (q : Quad Rat) (u : Vec2 Rat) : Vec2 Rat :=
  if u.x + u.y ≤ 1 then
    ⟨q.topLeft.x + u.x * (q.topRight.x - q.topLeft.x) + u.y * (q.bottomLeft.x - q.topLeft.x),
      q.topLeft.y + u.x * (q.topRight.y - q.topLeft.y) + u.y * (q.bottomLeft.y - q.topLeft.y)⟩
  else
    ⟨q.bottomRight.x + (1 - u.x) * (q.bottomLeft.x - q.bottomRight.x) +
        (1 - u.y) * (q.topRight.x - q.bottomRight.x),
      q.bottomRight.y + (1 - u.x) * (q.bottomLeft.y - q.bottomRight.y) +
        (1 - u.y) * (q.topRight.y - q.bottomRight.y)⟩

/-- What scales and moves each axis on its own can be done before or after the interpolation. -/
theorem Quad.interpolate_map {g : Vec2 Rat → Vec2 Rat} {k l e f : Rat}
    (hg : ∀ p, g p = ⟨k * p.x + e, l * p.y + f⟩) (q : Quad Rat) (u : Vec2 Rat) :
    Quad.interpolate (q.map g) u = g (q.interpolate u) := by
  simp only [hg, interpolate, Corners.map]
  split
  · simp only [Vec2.mk.injEq]
    constructor <;> ring
  · simp only [Vec2.mk.injEq]
    constructor <;> ring

/-- Between the corners of an image, interpolation does what an affine transform does. -/
theorem Rect.interpolate_transformedCorners {m : Matrix4 Rat} (h : m.IsAffine) (s : Size)
    (u : Vec2 Rat) :
    ((Rect.ofSize s).transformedCorners m).interpolate u = m.transformPoint (u * s.toVec2) := by
  have hcorners : (Rect.ofSize s : Rect Rat).corners =
      ⟨⟨0, 0⟩, ⟨0 + (s.width.toNat : Rat), 0⟩, ⟨0, 0 + (s.height.toNat : Rat)⟩,
        ⟨0 + (s.width.toNat : Rat), 0 + (s.height.toNat : Rat)⟩⟩ := rfl
  have hpoint : u * s.toVec2 = ⟨u.x * s.width.toNat, u.y * s.height.toNat⟩ := rfl
  simp only [transformedCorners, Quad.transform, Corners.map, hcorners, hpoint,
    h.transformPoint_eq, Quad.interpolate]
  split
  · simp only [Vec2.mk.injEq]
    constructor <;> ring
  · simp only [Vec2.mk.injEq]
    constructor <;> ring

/-! ## Sampled positions -/

/-- A size with pixels has two lengths that are not zero. -/
theorem Size.lengths_ne_zero {s : Size} (h : s.isEmpty = false) :
    (s.width.toNat : Rat) ≠ 0 ∧ (s.height.toNat : Rat) ≠ 0 := by
  simpa [Size.isEmpty, ← UInt32.toNat_inj] using h

/-- What is sampled for a point `x` along an axis of the length `w`: the point is scaled with the
    padded length and moved back by the gutter. -/
def sampledAt (w pad x : Rat) : Rat := (w + pad * 2) / w * x - pad

/-- Scaled about the middle as a texture coordinate, and then counted in texels. -/
theorem sampledAt_eq {w : Rat} (hw : w ≠ 0) (pad x : Rat) :
    ((w + pad * 2) / w * (x / w - 0.5) + 0.5) * w = sampledAt w pad x := by
  unfold sampledAt
  field_simp
  ring

/-- The texture coordinates of a padded image that is placed by an affine transform, in texels. -/
theorem Quad.interpolate_withGutter {placement : Matrix4 Rat} (h : placement.IsAffine) {s : Size}
    (hsize : s.isEmpty = false) (padding u : Vec2 Rat) :
    let p := placement.transformPoint (u * s.toVec2)
    ((s.textureCoords placement).withGutter s padding).interpolate u * s.toVec2 =
      ⟨sampledAt s.width.toNat padding.x p.x, sampledAt s.height.toNat padding.y p.y⟩ := by
  intro p
  obtain ⟨hw, hl⟩ := Size.lengths_ne_zero hsize
  let w : Rat := s.width.toNat
  let l : Rat := s.height.toNat
  let g (p : Vec2 Rat) : Vec2 Rat :=
    ⟨(w + padding.x * 2) / w * (p.x / w - 0.5) + 0.5, (l + padding.y * 2) / l * (p.y / l - 0.5) + 0.5⟩
  have huvs : (s.textureCoords placement).withGutter s padding =
      ((Rect.ofSize s).transformedCorners placement).map g := by
    simp only [Size.textureCoords, Quad.withGutter, Quad.transform, Corners.map,
      Matrix4.transformPoint_anchorScale]
    rfl
  -- Each axis is scaled and moved on its own, so the gutter can be put on after interpolating.
  have hg (p : Vec2 Rat) : g p =
      ⟨(w + padding.x * 2) / w / w * p.x + (0.5 - (w + padding.x * 2) / w * 0.5),
        (l + padding.y * 2) / l / l * p.y + (0.5 - (l + padding.y * 2) / l * 0.5)⟩ := by
    simp only [g, Vec2.mk.injEq]
    constructor <;> ring
  rw [huvs, Quad.interpolate_map hg, Rect.interpolate_transformedCorners h]
  exact congrArg₂ Vec2.mk (sampledAt_eq hw padding.x p.x) (sampledAt_eq hl padding.y p.y)

/-! ## Targets -/

theorem Exact.toUInt32_ne_zero {x : Rat} (h : 1 ≤ x) : Exact.toUInt32 x ≠ 0 := by
  have hfloor : (1 : Int) ≤ x.floor := Rat.le_floor_iff.2 (by simpa using h)
  have hzero : (0 : UInt32).toNat = 0 := rfl
  have hsize : UInt32.size = 4294967296 := rfl
  rw [Exact.toUInt32, Ne, ← UInt32.toNat_inj, toNat_ofNatClamp]
  omega

/-- A target has pixels. -/
theorem Blur.isEmpty_target_exact (b : Blur Rat) (s : Size) :
    (b.target s).size.isEmpty = false := by
  have hpixels (v : Vec2 Rat) : (Size.ofVec2 (v.max (.splat 1))).isEmpty = false := by
    have hwidth : (Size.ofVec2 (v.max (.splat 1))).width ≠ 0 := by
      rw [Vec2.max_eq]
      exact Exact.toUInt32_ne_zero (le_max_right v.x 1)
    have hheight : (Size.ofVec2 (v.max (.splat 1))).height ≠ 0 := by
      rw [Vec2.max_eq]
      exact Exact.toUInt32_ne_zero (le_max_right v.y 1)
    simp [Size.isEmpty, hwidth, hheight]
  exact hpixels _

/-- A position of the target, taken back by the achieved scale, is a position of the padded
    source. -/
theorem Blur.placement_transformPoint (b : Blur Rat) {m : Matrix4 Rat} (h : m.IsAffine)
    (s : Size) (u : Vec2 Rat) :
    let padding := b.extent.padding
    (b.placement s m).transformPoint (u * (b.target s).size.toVec2) =
      m.transformPoint ⟨(s.width.toNat + padding.x * 2) * u.x - padding.x,
        (s.height.toNat + padding.y * 2) * u.y - padding.y⟩ := by
  intro padding
  obtain ⟨hwidth, hheight⟩ := Size.lengths_ne_zero (b.isEmpty_target_exact s)
  have hback {length : Rat} (hlength : length ≠ 0) (padded x pad : Rat) :
      1 / (length / padded) * (x * length) + -pad = padded * x - pad := by
    rw [one_div_div]
    field_simp
    ring
  have hposition : Vec2.mk _ _ = Vec2.mk _ _ := congrArg₂ Vec2.mk
    (hback hwidth (s.width.toNat + padding.x * 2) u.x padding.x)
    (hback hheight (s.height.toNat + padding.y * 2) u.y padding.y)
  rw [placement, h.transformPoint_translation_scaling]
  exact congrArg m.transformPoint hposition

/-! ## Landing -/

/-- The result lands on its source: what the pass `copy` samples at a point of its quad, from a
    source of the size `s` that is placed by `m`, is where `result` places that point of the
    target. -/
def Pass.LandsOn (copy : Pass Rat) (s : Size) (m result : Matrix4 Rat) : Prop :=
  let coords : Quad Rat := copy.vertices.map (·.textureCoords)
  ∀ u, (⟨0, 0, 1, 1⟩ : Rect Rat).Covers u →
    result.transformPoint (u * copy.size.toVec2) =
      m.transformPoint (coords.interpolate u * s.toVec2)

namespace Blur

section

variable (b : Blur Rat) {placement m : Matrix4 Rat} {s : Size}

/-- Sampling and placing agree at `u` where both positions go to the same point. -/
theorem landsOn_iff (capabilities : Capabilities) (sampler : Sampler) (hm : m.IsAffine)
    (hplacement : placement.IsAffine) (hsize : s.isEmpty = false) :
    (b.downsample capabilities ⟨s, placement, sampler⟩).LandsOn s m (b.placement s m) ↔
      ∀ u, (⟨0, 0, 1, 1⟩ : Rect Rat).Covers u →
        m.transformPoint ⟨(s.width.toNat + b.extent.padding.x * 2) * u.x - b.extent.padding.x,
          (s.height.toNat + b.extent.padding.y * 2) * u.y - b.extent.padding.y⟩ =
        m.transformPoint
          ⟨sampledAt s.width.toNat b.extent.padding.x (placement.transformPoint (u * s.toVec2)).x,
            sampledAt s.height.toNat b.extent.padding.y
              (placement.transformPoint (u * s.toVec2)).y⟩ := by
  refine forall₂_congr fun u _ => ?_
  rw [← b.placement_transformPoint hm, ← Quad.interpolate_withGutter hplacement hsize]
  rfl

theorem landsOn_of_fixed (capabilities : Capabilities) (sampler : Sampler) (hm : m.IsAffine)
    (hplacement : placement.IsAffine) (hsize : s.isEmpty = false)
    (hfixed : ∀ p, placement.transformPoint p = p) :
    (b.downsample capabilities ⟨s, placement, sampler⟩).LandsOn s m (b.placement s m) := by
  rw [b.landsOn_iff capabilities sampler hm hplacement hsize]
  intro u _
  obtain ⟨hw, hl⟩ := Size.lengths_ne_zero hsize
  have hscale {w : Rat} (hw : w ≠ 0) (pad x : Rat) :
      (w + pad * 2) * x - pad = sampledAt w pad (x * w) := by
    unfold sampledAt
    field_simp
  rw [hfixed, hscale hw, hscale hl]
  rfl

/-- What is sampled for a point is the point itself, taken to the padded source, only if the point
    was not moved. -/
theorem eq_of_sampledAt_eq {w pad x y : Rat} (hw : w ≠ 0) (hpadded : w + pad * 2 ≠ 0)
    (h : (w + pad * 2) * x - pad = sampledAt w pad y) : y = x * w := by
  unfold sampledAt at h
  field_simp at h
  apply mul_left_cancel₀ hpadded
  linear_combination -h

theorem fixed_of_landsOn (capabilities : Capabilities) (sampler : Sampler) (hm : m.IsAffine)
    (hplacement : placement.IsAffine) (hsize : s.isEmpty = false)
    (hdet : m.xAxis.x * m.yAxis.y - m.yAxis.x * m.xAxis.y ≠ 0)
    (h : (b.downsample capabilities ⟨s, placement, sampler⟩).LandsOn s m (b.placement s m)) :
    ∀ p, placement.transformPoint p = p := by
  rw [b.landsOn_iff capabilities sampler hm hplacement hsize] at h
  obtain ⟨hw, hl⟩ := Size.lengths_ne_zero hsize
  obtain ⟨hpadX, hpadY⟩ := b.extent.padding_nonneg
  have hpaddedX : (s.width.toNat : Rat) + b.extent.padding.x * 2 ≠ 0 := by positivity
  have hpaddedY : (s.height.toNat : Rat) + b.extent.padding.y * 2 ≠ 0 := by positivity
  -- Both positions are moved by `m`, which keeps different points apart.
  have hunmoved (x y : Rat) (hu : (⟨0, 0, 1, 1⟩ : Rect Rat).Covers ⟨x, y⟩) :
      placement.transformPoint ⟨x * s.width.toNat, y * s.height.toNat⟩ =
        ⟨x * s.width.toNat, y * s.height.toNat⟩ := by
    have hsame := hm.transformPoint_injective hdet (h ⟨x, y⟩ hu)
    simp only [Vec2.mk.injEq] at hsame
    exact congrArg₂ Vec2.mk (eq_of_sampledAt_eq hw hpaddedX hsame.1)
      (eq_of_sampledAt_eq hl hpaddedY hsame.2)
  -- An affine placement is determined by three corners of the image.
  apply hplacement.fixed_of_corners hw hl
  · simpa using hunmoved 0 0 (by decide)
  · simpa using hunmoved 1 0 (by decide)
  · simpa using hunmoved 0 1 (by decide)

end

/-! ### Runs -/

/-- A blur that comes to a result has copied its source first. -/
theorem exists_copy {σ τ : Type} (b : Blur Rat) (r : SubpassRenderer Rat σ τ)
    (entity : Entity Rat) {t : τ} (placement : Matrix4 Rat) (rest : List (FilterInput Rat σ τ))
    (effect : Matrix4 Rat) (hint : Option (Rect Rat)) (s : Logged Rat σ) {output : Output Rat τ}
    (hsize : (r.size t).isEmpty = false) (hnoop : b.extent.isNoop = false)
    (hresult : ((b.render r (.ofTexture t (r.size t) placement :: rest) entity effect hint).runFrom
      s).1 = .ok (some output)) :
    ∃ copy calls,
      b.calls r (.ofTexture t (r.size t) placement :: rest) entity effect hint s = copy :: calls ∧
      copy.subpass.toPass =
        b.downsample (r.capabilities s.state) ⟨r.size t, placement, .linearClamp⟩ ∧
      output.transform = b.placement (r.size t) (entity.transform * placement) := by
  obtain ⟨outcome, final, houtcome, hchain⟩ :=
    b.render_ofTexture r entity placement rest effect hint hsize hnoop s
  rw [hresult] at houtcome
  cases outcome with
  | error e => cases houtcome
  | ok texture =>
    cases houtcome
    generalize b.calls r (.ofTexture t (r.size t) placement :: rest) entity effect hint s = calls
      at hchain
    cases hchain with
    | rendered hrun hrest => exact ⟨_, _, rfl, rfl, rfl⟩

/-- The blur of a texture that is placed by an affine transform lands on its source if the
    placement moves nothing. Where the entity and the placement together are not degenerate, it
    lands there only then. -/
theorem render_landsOn_iff {σ τ : Type} (b : Blur Rat) (r : SubpassRenderer Rat σ τ)
    (entity : Entity Rat) {t : τ} (placement : Matrix4 Rat) (rest : List (FilterInput Rat σ τ))
    (effect : Matrix4 Rat) (hint : Option (Rect Rat)) (s : Logged Rat σ) {output : Output Rat τ}
    (hsize : (r.size t).isEmpty = false) (hnoop : b.extent.isNoop = false)
    (hplacement : placement.IsAffine) (hentity : entity.transform.IsAffine)
    (hresult : ((b.render r (.ofTexture t (r.size t) placement :: rest) entity effect hint).runFrom
      s).1 = .ok (some output)) :
    let m := entity.transform * placement
    ∃ copy calls,
      b.calls r (.ofTexture t (r.size t) placement :: rest) entity effect hint s = copy :: calls ∧
      copy.subpass.label = "Gaussian Blur Downsample" ∧
      ((∀ p, placement.transformPoint p = p) →
        copy.subpass.LandsOn (r.size t) m output.transform) ∧
      (m.xAxis.x * m.yAxis.y - m.yAxis.x * m.xAxis.y ≠ 0 →
        copy.subpass.LandsOn (r.size t) m output.transform →
        ∀ p, placement.transformPoint p = p) := by
  intro m
  have hm : m.IsAffine := hentity.mul hplacement
  obtain ⟨copy, calls, hcalls, hcopy, htransform⟩ :=
    b.exists_copy r entity placement rest effect hint s hsize hnoop hresult
  refine ⟨copy, calls, hcalls, congrArg Pass.label hcopy, ?_⟩
  rw [hcopy, htransform]
  exact ⟨b.landsOn_of_fixed _ _ hm hplacement hsize, b.fixed_of_landsOn _ _ hm hplacement hsize⟩

/-- A renderer without rounding that hands out sizes in place of textures. -/
def exactSizes : SubpassRenderer Rat Unit Size where
  size := id
  capabilities _ := {}
  run subpass := return subpass.size

/-- A blur with a sigma of one. -/
def ofOne : Blur Rat := ⟨.splat 1, .decal⟩

/-- Eight by eight pixels, placed by `placement`. -/
def eightPixels (placement : Matrix4 Rat) : FilterInput Rat Unit Size :=
  .ofTexture ⟨8, 8⟩ ⟨8, 8⟩ placement

/-- What a blur of them with a sigma of one comes to. -/
def resultOfOne (placement : Matrix4 Rat) : Except RenderError (Option (Output Rat Size)) :=
  ((ofOne.render exactSizes [eightPixels placement] default .identity none).runFrom ⟨(), []⟩).1

/-- The calls it makes. -/
def exactCallsOfOne (placement : Matrix4 Rat) : List (Call Rat Size) :=
  ofOne.calls exactSizes [eightPixels placement] default .identity none ⟨(), []⟩

/-- The output of the blur with a sigma of one. -/
def outputOfOne (placement : Matrix4 Rat) : Output Rat Size :=
  ⟨⟨⟨10, 10⟩, ofOne.placement ⟨8, 8⟩ (.identity * placement), .linearClamp, 1⟩, .sourceOver, 0⟩

/-- Where the placement moves nothing, the blur lands on its source. -/
theorem landsOn_ofOne :
    resultOfOne .identity = .ok (some (outputOfOne .identity)) ∧
    ∃ copy calls, exactCallsOfOne .identity = copy :: calls ∧
      copy.subpass.LandsOn ⟨8, 8⟩ (.identity * .identity) (outputOfOne .identity).transform := by
  have hresult : resultOfOne .identity = .ok (some (outputOfOne .identity)) := by decide +kernel
  obtain ⟨copy, calls, hcalls, -, hlands, -⟩ := ofOne.render_landsOn_iff exactSizes default
    .identity [] .identity none ⟨(), []⟩ (by decide) (by decide +kernel) Matrix4.isAffine_identity
    Matrix4.isAffine_identity hresult
  exact ⟨hresult, copy, calls, hcalls, hlands Matrix4.transformPoint_identity⟩

/-- Where the placement is four pixels to the right, it does not: the corner of the target goes
    to three, where the snapshot has the texel at minus one, but it shows the texel at four. -/
theorem not_landsOn_ofOne :
    let shift : Matrix4 Rat := .translation 4 0 0
    shift.IsAffine ∧ resultOfOne shift = .ok (some (outputOfOne shift)) ∧
    ∃ copy calls, exactCallsOfOne shift = copy :: calls ∧
      ¬copy.subpass.LandsOn ⟨8, 8⟩ (.identity * shift) (outputOfOne shift).transform := by
  intro shift
  have hresult : resultOfOne shift = .ok (some (outputOfOne shift)) := by decide +kernel
  obtain ⟨copy, calls, hcalls, hcopy, -⟩ := ofOne.exists_copy exactSizes default shift []
    .identity none ⟨(), []⟩ (by decide) (by decide +kernel) hresult
  refine ⟨Matrix4.isAffine_translation 4 0 0, hresult, copy, calls, hcalls, ?_⟩
  rw [hcopy]
  intro h
  exact absurd (h ⟨0, 0⟩ (by decide)) (by decide +kernel)

end Blur

end SeparableBlur

-- SUMMARY: The coverage of a blur against the reach of its kernel: what is covered, and for which transforms.
import SeparableBlur.Blur.Basic
import SeparableBlur.Proofs.Affine
import SeparableBlur.Proofs.SigmaModel

/-!
# Coverage

A kernel reaches a whole box of displacements around each texel. The coverage of a
blur grows the bounds of its input by the image of one corner of that box. Without
rounding, this is far enough exactly where that corner is the one that moves
furthest: along each axis of the screen the two columns of the transform must not
pull in opposite directions. Scalings, reflections and quarter turns are like that.
A rotation by any other angle is not, and unless one of the radii is zero the
coverage is too small there.
-/

namespace SeparableBlur

/-! ## Reach -/

/-- Two terms of opposite signs are together smaller than apart. -/
theorem abs_add_eq_iff_mul_nonneg (a c : Rat) : |a + c| = |a| + |c| ↔ 0 ≤ a * c := by
  rw [abs_add_eq_add_abs_iff, mul_nonneg_iff]

/-- Within a reach along both axes, a linear function gets no further than at the corners. -/
theorem abs_linear_le (a c : Rat) {d reach : Vec2 Rat} (hx : |d.x| ≤ reach.x)
    (hy : |d.y| ≤ reach.y) : |a * d.x + c * d.y| ≤ |a * reach.x| + |c * reach.y| := by
  have hterm (k : Rat) {x far : Rat} (h : |x| ≤ far) : |k * x| ≤ |k * far| := by
    rw [abs_mul, abs_mul, abs_of_nonneg ((abs_nonneg x).trans h)]
    exact mul_le_mul_of_nonneg_left h (abs_nonneg k)
  calc |a * d.x + c * d.y|
      ≤ |a * d.x| + |c * d.y| := abs_add_le _ _
    _ ≤ |a * reach.x| + |c * reach.y| := add_le_add (hterm a hx) (hterm c hy)

/-- At one of the corners it does get that far. -/
theorem exists_linear_eq (a c : Rat) {reach : Vec2 Rat} (hx : 0 ≤ reach.x) (hy : 0 ≤ reach.y) :
    ∃ d : Vec2 Rat, |d.x| ≤ reach.x ∧ |d.y| ≤ reach.y ∧
      a * d.x + c * d.y = |a * reach.x| + |c * reach.y| := by
  have hterm (k : Rat) {far : Rat} (h : 0 ≤ far) : ∃ x, |x| ≤ far ∧ k * x = |k * far| := by
    rcases le_total 0 k with hk | hk
    · exact ⟨far, (abs_of_nonneg h).le, (abs_of_nonneg (mul_nonneg hk h)).symm⟩
    · refine ⟨-far, ?_, ?_⟩
      · rw [abs_neg, abs_of_nonneg h]
      · rw [abs_of_nonpos (mul_nonpos_of_nonpos_of_nonneg hk h), mul_neg]
  obtain ⟨x, hx, hax⟩ := hterm a hx
  obtain ⟨y, hy, hcy⟩ := hterm c hy
  exact ⟨⟨x, y⟩, hx, hy, congrArg₂ (· + ·) hax hcy⟩

/-- So if one corner bounds it everywhere, its two terms do not have opposite signs there. -/
theorem mul_nonneg_of_linear_le {a c : Rat} {reach : Vec2 Rat} (hx : 0 ≤ reach.x)
    (hy : 0 ≤ reach.y) (h : ∀ d : Vec2 Rat, |d.x| ≤ reach.x → |d.y| ≤ reach.y →
      a * d.x + c * d.y ≤ |a * reach.x + c * reach.y|) :
    0 ≤ a * reach.x * (c * reach.y) := by
  obtain ⟨d, hdx, hdy, hd⟩ := exists_linear_eq a c hx hy
  have hfar := h d hdx hdy
  rw [hd] at hfar
  exact (abs_add_eq_iff_mul_nonneg _ _).1 (le_antisymm (abs_add_le _ _) hfar)

namespace Rect

variable {r : Rect Rat} {m : Matrix4 Rat} {reach : Vec2 Rat}

/-- Grown bounds cover all that lies within reach of the moved points where neither coordinate is
    pulled in opposite directions. -/
theorem Covers.grow (hm : m.IsAffine)
    (hx : 0 ≤ m.xAxis.x * reach.x * (m.yAxis.x * reach.y))
    (hy : 0 ≤ m.xAxis.y * reach.x * (m.yAxis.y * reach.y)) {p d : Vec2 Rat} (hp : r.Covers p)
    (hdx : |d.x| ≤ reach.x) (hdy : |d.y| ≤ reach.y) :
    ((r.transformBounds m).grow m reach).Covers (m.transformPoint (p + d)) := by
  obtain ⟨hleft, htop, hright, hbottom⟩ := hp.transform hm
  obtain ⟨hlowX, hhighX⟩ := abs_le.1 (abs_linear_le m.xAxis.x m.yAxis.x hdx hdy)
  obtain ⟨hlowY, hhighY⟩ := abs_le.1 (abs_linear_le m.xAxis.y m.yAxis.y hdx hdy)
  rw [← (abs_add_eq_iff_mul_nonneg _ _).2 hx] at hlowX hhighX
  rw [← (abs_add_eq_iff_mul_nonneg _ _).2 hy] at hlowY hhighY
  rw [hm.transformPoint_add, Rect.grow, expand, Matrix4.transformExtent_eq]
  -- One inequality for each edge.
  constructor <;> dsimp only <;> linarith

/-- Conversely, what is furthest to the right and furthest down is covered only there. -/
theorem mul_nonneg_of_covers_grow (hm : m.IsAffine) (hwidth : r.left ≤ r.right)
    (hheight : r.top ≤ r.bottom) (hx : 0 ≤ reach.x) (hy : 0 ≤ reach.y)
    (h : ∀ p d, r.Covers p → |d.x| ≤ reach.x → |d.y| ≤ reach.y →
      ((r.transformBounds m).grow m reach).Covers (m.transformPoint (p + d))) :
    0 ≤ m.xAxis.x * reach.x * (m.yAxis.x * reach.y) ∧
      0 ≤ m.xAxis.y * reach.x * (m.yAxis.y * reach.y) := by
  have hbounds := r.transformBounds_bounds m
  have hcorners := r.corners_covered hwidth hheight
  simp only [hm.transformPoint_add, Rect.grow, expand, Matrix4.transformExtent_eq] at h
  -- Each coordinate is tested at the corner that is moved furthest along it.
  constructor
  · obtain ⟨_, hmem, hright⟩ := hbounds.right
    obtain ⟨q, hq, rfl⟩ := List.mem_map.1 hmem
    refine mul_nonneg_of_linear_le hx hy fun d hdx hdy => ?_
    have hfar := (h q d (hcorners q hq) hdx hdy).right
    simp only [← hright, add_le_add_iff_left] at hfar
    exact hfar
  · obtain ⟨_, hmem, hbottom⟩ := hbounds.bottom
    obtain ⟨q, hq, rfl⟩ := List.mem_map.1 hmem
    refine mul_nonneg_of_linear_le hx hy fun d hdx hdy => ?_
    have hfar := (h q d (hcorners q hq) hdx hdy).bottom
    simp only [← hbottom, add_le_add_iff_left] at hfar
    exact hfar

end Rect

/-! ## Blurs -/

namespace Blur

variable {σ τ : Type}

/-- The coverage of the blur of a texture, under an effect that does nothing. -/
theorem coverage_ofTexture (b : Blur Rat) (texture : τ) (size : Size) (placement : Matrix4 Rat)
    (rest : List (FilterInput Rat σ τ)) (entity : Entity Rat) :
    let m := entity.transform * placement
    b.coverage (.ofTexture texture size placement :: rest) entity .identity =
      some (((Rect.ofSize size).transformBounds m).grow m b.extent.radius) := by
  intro m
  have hbasis : m.basis * (Matrix4.identity : Matrix4 Rat).basis = m.basis :=
    m.basis.mul_identity
  have hextent : (m.basis * (Matrix4.identity : Matrix4 Rat).basis).transformExtent
      b.extent.radius = m.transformExtent b.extent.radius := by
    rw [hbasis]
    rfl
  exact congrArg (fun reach => some (((Rect.ofSize size).transformBounds m).expand reach)) hextent

/-- The coverage of a blur contains all that the kernel reaches from the pixels of its source
    exactly where, along each axis of the screen, the two columns of the transform do not pull in
    opposite directions. -/
theorem coverage_reaches_iff (b : Blur Rat) (texture : τ) (size : Size) (placement : Matrix4 Rat)
    (rest : List (FilterInput Rat σ τ)) (entity : Entity Rat) (hplacement : placement.IsAffine)
    (hentity : entity.transform.IsAffine) :
    let m := entity.transform * placement
    let reach := b.extent.radius
    ∃ region,
      b.coverage (.ofTexture texture size placement :: rest) entity .identity = some region ∧
      ((∀ p d, (Rect.ofSize size).Covers p → |d.x| ≤ reach.x → |d.y| ≤ reach.y →
          region.Covers (m.transformPoint (p + d))) ↔
        0 ≤ m.xAxis.x * reach.x * (m.yAxis.x * reach.y) ∧
          0 ≤ m.xAxis.y * reach.x * (m.yAxis.y * reach.y)) := by
  intro m reach
  have hm : m.IsAffine := hentity.mul hplacement
  refine ⟨_, b.coverage_ofTexture texture size placement rest entity, ?_⟩
  constructor
  · intro h
    exact Rect.mul_nonneg_of_covers_grow hm (Rect.ofSize_left_le_right size)
      (Rect.ofSize_top_le_bottom size) (Kernel.radius_nonneg _) (Kernel.radius_nonneg _) h
  · rintro ⟨hx, hy⟩ p d hp hdx hdy
    exact hp.grow hm hx hy hdx hdy

/-- The coverage follows a quarter turn. -/
theorem coverage_reaches_of_quarter_turn :
    let turn : Matrix4 Rat := ⟨⟨0, 1, 0, 0⟩, ⟨-1, 0, 0, 0⟩, ⟨0, 0, 1, 0⟩, ⟨0, 0, 0, 1⟩⟩
    let b : Blur Rat := ⟨.splat 1, .decal⟩
    let input : FilterInput Rat Unit Unit := .ofTexture () ⟨8, 8⟩ .identity
    ∃ region, b.coverage [input] ⟨turn, .sourceOver, 0⟩ .identity = some region ∧
      ∀ p d, (Rect.ofSize ⟨8, 8⟩).Covers p → |d.x| ≤ b.extent.radius.x →
        |d.y| ≤ b.extent.radius.y → region.Covers ((turn * .identity).transformPoint (p + d)) := by
  intro turn b input
  obtain ⟨region, hregion, hreach⟩ := b.coverage_reaches_iff (σ := Unit) () ⟨8, 8⟩ .identity []
    ⟨turn, .sourceOver, 0⟩ Matrix4.isAffine_identity ⟨rfl, rfl, rfl, rfl⟩
  exact ⟨region, hregion, hreach.2 (by decide +kernel)⟩

/-- An eighth of a turn, with the sides made longer by the square root of two. From the corner at
    the right, the kernel reaches further right than the coverage does. -/
theorem coverage_misses_of_eighth_turn :
    let turn : Matrix4 Rat := ⟨⟨1, 1, 0, 0⟩, ⟨-1, 1, 0, 0⟩, ⟨0, 0, 1, 0⟩, ⟨0, 0, 0, 1⟩⟩
    let b : Blur Rat := ⟨.splat 1, .decal⟩
    let input : FilterInput Rat Unit Unit := .ofTexture () ⟨8, 8⟩ .identity
    let d : Vec2 Rat := ⟨b.extent.radius.x, -b.extent.radius.y⟩
    turn.IsAffine ∧
    ∃ region, b.coverage [input] ⟨turn, .sourceOver, 0⟩ .identity = some region ∧
      (Rect.ofSize ⟨8, 8⟩).Covers ⟨8, 0⟩ ∧ |d.x| ≤ b.extent.radius.x ∧
      |d.y| ≤ b.extent.radius.y ∧
      ¬region.Covers ((turn * .identity).transformPoint (⟨8, 0⟩ + d)) := by
  intro turn b input d
  refine ⟨⟨rfl, rfl, rfl, rfl⟩, _, rfl, ?_⟩
  decide +kernel

end Blur

end SeparableBlur

-- SUMMARY: The region that a blur asks its input for against the reach of its kernel: for which placements it is far enough.
import SeparableBlur.Blur.Render
import SeparableBlur.Proofs.Affine
import SeparableBlur.Proofs.SigmaModel

/-!
# Hints

When only a part of the screen will be drawn, a blur asks its input for that part and
for what lies within reach of it. The reach is counted in pixels of the source, and the
transform of the entity takes it to the screen. The placement of the input itself is
left out. So for inputs that are placed by translations and scalings, the region is
large enough exactly where the placement does not enlarge the radius beyond the gutter.
-/

namespace SeparableBlur

/-! ## Translations and scalings -/

namespace Matrix4

/-- Composed of translations and of scalings along the axes, by factors other than zero. -/
inductive IsRectilinear : Matrix4 Rat → Prop where
  | translation (x y z : Rat) : IsRectilinear (translation x y z)
  | scaling {x y : Rat} (z : Rat) (hx : x ≠ 0) (hy : y ≠ 0) : IsRectilinear (scaling x y z)
  | mul {m n : Matrix4 Rat} (hm : IsRectilinear m) (hn : IsRectilinear n) : IsRectilinear (m * n)

/-- Each axis of the plane goes to a multiple of itself. -/
structure KeepsAxes (m : Matrix4 Rat) : Prop where
  affine : m.IsAffine
  x_ne_zero : m.xAxis.x ≠ 0
  y_ne_zero : m.yAxis.y ≠ 0
  xAxis : m.xAxis.y = 0
  yAxis : m.yAxis.x = 0
  zAxis : m.zAxis.x = 0 ∧ m.zAxis.y = 0

variable {m n : Matrix4 Rat}

/-- The factors along the axes are multiplied. -/
theorem KeepsAxes.factors_mul (hm : m.KeepsAxes) (hn : n.KeepsAxes) :
    (m * n).xAxis.x = m.xAxis.x * n.xAxis.x ∧ (m * n).yAxis.y = m.yAxis.y * n.yAxis.y := by
  have hx : (m * n).xAxis = m.apply n.xAxis := rfl
  have hy : (m * n).yAxis = m.apply n.yAxis := rfl
  simp [hx, hy, apply_eq, hm.xAxis, hm.yAxis, hm.zAxis.1, hm.zAxis.2, hn.affine.xAxis,
    hn.affine.yAxis]

theorem KeepsAxes.mul (hm : m.KeepsAxes) (hn : n.KeepsAxes) : (m * n).KeepsAxes := by
  obtain ⟨hfactorX, hfactorY⟩ := hm.factors_mul hn
  have hx : (m * n).xAxis = m.apply n.xAxis := rfl
  have hy : (m * n).yAxis = m.apply n.yAxis := rfl
  have hz : (m * n).zAxis = m.apply n.zAxis := rfl
  refine ⟨hm.affine.mul hn.affine, ?_, ?_, ?_, ?_, ?_⟩
  · rw [hfactorX]
    exact mul_ne_zero hm.x_ne_zero hn.x_ne_zero
  · rw [hfactorY]
    exact mul_ne_zero hm.y_ne_zero hn.y_ne_zero
  · simp [hx, apply_eq, hm.xAxis, hm.zAxis.2, hn.affine.xAxis, hn.xAxis]
  · simp [hy, apply_eq, hm.yAxis, hm.zAxis.1, hn.affine.yAxis, hn.yAxis]
  · simp [hz, apply_eq, hm.xAxis, hm.yAxis, hm.zAxis.1, hm.zAxis.2, hn.affine.zAxis, hn.zAxis.1,
      hn.zAxis.2]

theorem IsRectilinear.keepsAxes (h : m.IsRectilinear) : m.KeepsAxes := by
  induction h with
  | translation x y z =>
    exact ⟨isAffine_translation x y z, one_ne_zero, one_ne_zero, rfl, rfl, rfl, rfl⟩
  | scaling z hx hy => exact ⟨isAffine_scaling _ _ z, hx, hy, rfl, rfl, rfl, rfl⟩
  | mul _ _ ihm ihn => exact ihm.mul ihn

/-- Where the point goes, one axis at a time. -/
theorem KeepsAxes.transformPoint_eq (h : m.KeepsAxes) (p : Vec2 Rat) :
    m.transformPoint p = ⟨m.xAxis.x * p.x + m.wAxis.x, m.yAxis.y * p.y + m.wAxis.y⟩ := by
  rw [h.affine.transformPoint_eq, h.xAxis, h.yAxis]
  simp

theorem KeepsAxes.transformExtent_eq (h : m.KeepsAxes) (v : Vec2 Rat) :
    m.transformExtent v = ⟨|m.xAxis.x * v.x|, |m.yAxis.y * v.y|⟩ := by
  rw [Matrix4.transformExtent_eq, h.xAxis, h.yAxis]
  simp

end Matrix4

/-! ## One axis -/

/-- What is within `reach` of a point, enlarged by `k`, is no further from it than that. -/
theorem mem_of_displaced {low high k e reach grown x y : Rat} (h : |k| * reach ≤ grown)
    (hxy : |x - y| ≤ reach) (hlow : low ≤ k * y + e) (hhigh : k * y + e ≤ high) :
    low - grown ≤ k * x + e ∧ k * x + e ≤ high + grown := by
  have hfar : |k * (x - y)| ≤ grown := by
    rw [abs_mul]
    exact (mul_le_mul_of_nonneg_left hxy (abs_nonneg k)).trans h
  obtain ⟨hdown, hup⟩ := abs_le.1 hfar
  constructor <;> linarith

/-- From each position something within `reach` goes exactly that far. -/
theorem exists_displaced {k reach : Rat} (hk : k ≠ 0) (hreach : 0 ≤ reach) (e position : Rat) :
    ∃ x y, |x - y| ≤ reach ∧ k * y + e = position ∧ k * x + e = position + |k| * reach := by
  have hplaced : k * ((position - e) / k) + e = position := by
    rw [mul_div_cancel₀ _ hk, sub_add_cancel]
  rcases le_total 0 k with h | h
  · refine ⟨(position - e) / k + reach, (position - e) / k, ?_, hplaced, ?_⟩
    · rw [add_sub_cancel_left, abs_of_nonneg hreach]
    · rw [abs_of_nonneg h, mul_add, add_right_comm, hplaced]
  · refine ⟨(position - e) / k - reach, (position - e) / k, ?_, hplaced, ?_⟩
    · rw [sub_sub_cancel_left, abs_neg, abs_of_nonneg hreach]
    · rw [abs_of_nonpos h]
      linear_combination hplaced

/-! ## Two axes -/

namespace Rect

/-- A rectangle that is grown in the space behind `n` contains all that is within reach of what
    `m` places in it exactly if neither factor of `m` enlarges the reach beyond the growth. -/
theorem grow_reaches_iff {hint : Rect Rat} (hwidth : hint.left ≤ hint.right)
    (hheight : hint.top ≤ hint.bottom) {m n : Matrix4 Rat} (hm : m.KeepsAxes) (hn : n.KeepsAxes)
    {reach padding : Vec2 Rat} (hx : 0 ≤ reach.x) (hy : 0 ≤ reach.y) :
    (∀ p q : Vec2 Rat, |p.x - q.x| ≤ reach.x → |p.y - q.y| ≤ reach.y →
        hint.Covers (m.transformPoint q) → (hint.grow n padding).Covers (m.transformPoint p)) ↔
      |m.xAxis.x| * reach.x ≤ |n.xAxis.x * padding.x| ∧
        |m.yAxis.y| * reach.y ≤ |n.yAxis.y * padding.y| := by
  simp only [Rect.grow, expand, hn.transformExtent_eq, hm.transformPoint_eq]
  constructor
  · intro h
    -- The furthest that is reached from the corner at the bottom right.
    obtain ⟨x, x', hxx, hright, hfarX⟩ :=
      exists_displaced hm.x_ne_zero hx m.wAxis.x hint.right
    obtain ⟨y, y', hyy, hbottom, hfarY⟩ :=
      exists_displaced hm.y_ne_zero hy m.wAxis.y hint.bottom
    obtain ⟨-, -, hrightmost, hlowest⟩ := h ⟨x, y⟩ ⟨x', y'⟩ hxx hyy
      ⟨hright ▸ hwidth, hbottom ▸ hheight, hright.le, hbottom.le⟩
    dsimp only at hrightmost hlowest
    rw [hfarX] at hrightmost
    rw [hfarY] at hlowest
    exact ⟨le_of_add_le_add_left hrightmost, le_of_add_le_add_left hlowest⟩
  · rintro ⟨hfarX, hfarY⟩ p q hpx hpy ⟨hleft, htop, hright, hbottom⟩
    obtain ⟨hlowX, hhighX⟩ := mem_of_displaced hfarX hpx hleft hright
    obtain ⟨hlowY, hhighY⟩ := mem_of_displaced hfarY hpy htop hbottom
    exact ⟨hlowX, hlowY, hhighX, hhighY⟩

end Rect

/-! ## Blurs -/

namespace Blur

section

variable {α σ τ : Type} [Scalar α]

/-- What a blur does with what its first input has given it. -/
def renderFrom (b : Blur α) (r : SubpassRenderer α σ τ) (input : FilterInput α σ τ)
    (entity : Entity α) : Option (Snapshot α τ) → Action α σ (Option (Output α τ))
  | none => return none
  | some snapshot => b.renderSnapshot r (input.localTransform entity) entity snapshot

/-- A blur asks its first input once, and goes on from what it is given. -/
theorem render_cons (b : Blur α) (r : SubpassRenderer α σ τ) (input : FilterInput α σ τ)
    (rest : List (FilterInput α σ τ)) (entity : Entity α) (effect : Matrix4 α)
    {hint limit : Option (Rect α)} (hlimit : b.inputLimit entity effect hint = limit) :
    b.render r (input :: rest) entity effect hint =
      input.snapshot "Gaussian Blur Snapshot" entity limit >>= b.renderFrom r input entity := by
  subst hlimit
  unfold render
  refine bind_congr fun snapshot => ?_
  cases snapshot with
  | none => rfl
  | some snapshot => rfl

end

variable {σ τ : Type}

/-- When only the region `hint` will be drawn, an input that is placed by translations and
    scalings is asked for a region that contains everything within reach of the hint exactly if its
    own placement does not enlarge the radius of the kernel beyond the gutter. -/
theorem inputLimit_reaches_iff (b : Blur Rat) (r : SubpassRenderer Rat σ τ)
    (input : FilterInput Rat σ τ) (rest : List (FilterInput Rat σ τ)) (entity : Entity Rat)
    (hint : Rect Rat) (hwidth : hint.left ≤ hint.right) (hheight : hint.top ≤ hint.bottom)
    (htransform : input.transform entity = entity.transform * input.localTransform entity)
    (hentity : entity.transform.IsRectilinear)
    (hplacement : (input.localTransform entity).IsRectilinear) :
    let m := input.transform entity
    let reach := b.extent.radius
    ∃ limit,
      (b.render r (input :: rest) entity .identity (some hint) =
        input.snapshot "Gaussian Blur Snapshot" entity (some limit) >>=
          b.renderFrom r input entity) ∧
      ((∀ p q : Vec2 Rat, |p.x - q.x| ≤ reach.x → |p.y - q.y| ≤ reach.y →
          hint.Covers (m.transformPoint q) → limit.Covers (m.transformPoint p)) ↔
        |(input.localTransform entity).xAxis.x| * reach.x ≤ b.extent.padding.x ∧
          |(input.localTransform entity).yAxis.y| * reach.y ≤ b.extent.padding.y) := by
  intro m reach
  have hE := hentity.keepsAxes
  have hL := hplacement.keepsAxes
  have hm : m = entity.transform * input.localTransform entity := htransform
  obtain ⟨hfactorX, hfactorY⟩ := hE.factors_mul hL
  let limit : Rect Rat := hint.grow (entity.transform * .identity) b.extent.padding
  have hlimit : b.inputLimit entity .identity (some hint) = some limit := by
    unfold inputLimit
    rfl
  have hx : 0 ≤ reach.x := Kernel.radius_nonneg _
  have hy : 0 ≤ reach.y := Kernel.radius_nonneg _
  refine ⟨limit, b.render_cons r input rest entity .identity hlimit, ?_⟩
  simp only [limit]
  rw [Matrix4.mul_identity, hm, Rect.grow_reaches_iff hwidth hheight (hE.mul hL) hE hx hy, hfactorX,
    hfactorY]
  -- The factors of the entity are on both sides.
  obtain ⟨hpadX, hpadY⟩ := b.extent.padding_nonneg
  have hcancel {k l radius pad : Rat} (hk : k ≠ 0) (hpad : 0 ≤ pad) :
      |k * l| * radius ≤ |k * pad| ↔ |l| * radius ≤ pad := by
    rw [abs_mul, abs_mul, abs_of_nonneg hpad, mul_assoc]
    exact mul_le_mul_iff_right₀ (abs_pos.2 hk)
  rw [hcancel hE.x_ne_zero hpadX, hcancel hE.y_ne_zero hpadY]

/-- An input that has nothing to draw and remembers what it was last asked for. -/
def asked (placement : Matrix4 Rat) : FilterInput Rat (Option (Rect Rat)) Unit where
  snapshot _ _ limit := do
    Action.setState limit
    return none
  coverage _ := none
  localTransform _ := placement

/-- A renderer for it. -/
def blank : SubpassRenderer Rat (Option (Rect Rat)) Unit :=
  ⟨fun _ => ⟨100, 100⟩, fun _ => {}, fun _ => return ()⟩

/-- A blur with a sigma of ten. -/
def ofTen : Blur Rat := ⟨.splat 10, .decal⟩

/-- What the input is asked for when the blur is to draw the rectangle `hint`. -/
def askedFor (placement : Matrix4 Rat) (hint : Rect Rat) : Option (Rect Rat) :=
  ((ofTen.render blank [asked placement] default .identity (some hint)).start none).2.state

/-- A reflection that makes the input smaller. -/
theorem inputLimit_reaches_of_reflection :
    let small : Matrix4 Rat := .translation 3 4 0 * .scaling (-1 / 2) (1 / 2) 1
    askedFor small ⟨0, 0, 50, 50⟩ = some ⟨-16, -16, 66, 66⟩ ∧
      ∀ p q : Vec2 Rat, |p.x - q.x| ≤ ofTen.extent.radius.x →
        |p.y - q.y| ≤ ofTen.extent.radius.y →
        (⟨0, 0, 50, 50⟩ : Rect Rat).Covers ((.identity * small : Matrix4 Rat).transformPoint q) →
        (⟨-16, -16, 66, 66⟩ : Rect Rat).Covers
          ((.identity * small : Matrix4 Rat).transformPoint p) := by
  intro small
  have hidentity : (Matrix4.identity : Matrix4 Rat).IsRectilinear :=
    .scaling 1 (by decide) (by decide)
  have hsmall : small.IsRectilinear :=
    .mul (.translation 3 4 0) (.scaling 1 (by decide +kernel) (by decide +kernel))
  have hasked : askedFor small ⟨0, 0, 50, 50⟩ = some ⟨-16, -16, 66, 66⟩ := by decide +kernel
  obtain ⟨limit, hrender, hreach⟩ := ofTen.inputLimit_reaches_iff blank (asked small) [] default
    ⟨0, 0, 50, 50⟩ (by decide) (by decide) rfl hidentity hsmall
  have hlimit : askedFor small ⟨0, 0, 50, 50⟩ = some limit := by
    rw [askedFor, hrender]
    rfl
  obtain rfl : limit = ⟨-16, -16, 66, 66⟩ := Option.some.inj (hlimit.symm.trans hasked)
  exact ⟨hasked, hreach.2 (by decide +kernel)⟩

/-- An input that is placed twice as large. At the corner of the hint, the kernel reads what is
    thirty pixels further to the right, and the input was asked for sixteen. -/
theorem inputLimit_misses_of_double_size :
    let double : Matrix4 Rat := .scaling 2 2 1
    let p : Vec2 Rat := ⟨40, 25⟩
    let q : Vec2 Rat := ⟨25, 25⟩
    double.IsRectilinear ∧ |p.x - q.x| ≤ ofTen.extent.radius.x ∧
      |p.y - q.y| ≤ ofTen.extent.radius.y ∧
      (⟨0, 0, 50, 50⟩ : Rect Rat).Covers ((.identity * double : Matrix4 Rat).transformPoint q) ∧
      ∃ limit, askedFor double ⟨0, 0, 50, 50⟩ = some limit ∧
        ¬limit.Covers ((.identity * double : Matrix4 Rat).transformPoint p) := by
  intro double p q
  refine ⟨.scaling 1 (by decide) (by decide), by decide +kernel, by decide +kernel,
    by decide +kernel, ⟨-16, -16, 66, 66⟩, by decide +kernel, by decide +kernel⟩

end Blur

end SeparableBlur

-- SUMMARY: Regions that a blur grows contain what they were grown from, in rounded numbers and up to the infinite ends.
import SeparableBlur.Proofs.Hint
import SeparableBlur.Proofs.Line

/-!
# Grown regions

A blur answers for regions: what its result covers, what of the source a part of
the result needs, and what its input is asked for. Each answer is a region that
was grown by a reach. The edges are rounded, and the reach may be infinite where a
transform is, but an edge never moves inwards, so the grown region contains the
first one. It is not empty either, since a difference of edges that are in order
is never rounded to zero, and so one answer can be grown from another.
-/

namespace SeparableBlur

/-- Both components are numbers, perhaps infinite ones. -/
def Vec2.IsNumber (v : Vec2 Binary32) : Prop := v.x ≠ .nan ∧ v.y ≠ .nan

instance (v : Vec2 Binary32) : Decidable v.IsNumber :=
  inferInstanceAs (Decidable (v.x ≠ .nan ∧ v.y ≠ .nan))

namespace Rect

/-- All edges are finite. -/
def IsFinite (r : Rect Binary32) : Prop :=
  r.left.isFinite ∧ r.top.isFinite ∧ r.right.isFinite ∧ r.bottom.isFinite

instance (r : Rect Binary32) : Decidable r.IsFinite :=
  inferInstanceAs (Decidable (r.left.isFinite ∧ r.top.isFinite ∧ r.right.isFinite ∧
    r.bottom.isFinite))

/-- Each edge is a number that can still move outwards, or lies at the infinite end already. -/
structure CanGrow (r : Rect Binary32) : Prop where
  left : r.left < .infinite false
  top : r.top < .infinite false
  right : .infinite true < r.right
  bottom : .infinite true < r.bottom

variable {r s t : Rect Binary32}

theorem Contains.trans (h : r.Contains s) (h' : s.Contains t) : r.Contains t :=
  ⟨Binary.le_trans h.1 h'.1, Binary.le_trans h.2.1 h'.2.1, Binary.le_trans h'.2.2.1 h.2.2.1,
    Binary.le_trans h'.2.2.2 h.2.2.2⟩

/-! ## Regions that can grow -/

theorem IsFinite.canGrow (h : r.IsFinite) : r.CanGrow := by
  have hbelow {x : Binary32} (hx : x.isFinite) : x < .infinite false := by
    cases x with
    | nan => cases hx
    | infinite s => cases hx
    | finite s c => rfl
  have habove {x : Binary32} (hx : x.isFinite) : .infinite true < x := by
    cases x with
    | nan => cases hx
    | infinite s => cases hx
    | finite s c => rfl
  obtain ⟨hleft, htop, hright, hbottom⟩ := h
  exact ⟨hbelow hleft, hbelow htop, habove hright, habove hbottom⟩

/-- A region with an area has its edges in order. -/
theorem isEmpty_eq_false_iff : r.isEmpty = false ↔ r.left < r.right ∧ r.top < r.bottom := by
  have hsub (a b : Binary32) : 0 < a - b ↔ b < a := Binary.sub_pos_iff (by decide)
  simp [isEmpty, width, height, hsub]

theorem canGrow_of_isEmpty_eq_false (h : r.isEmpty = false) : r.CanGrow := by
  obtain ⟨hwidth, hheight⟩ := isEmpty_eq_false_iff.1 h
  have hbelow {x y : Binary32} (hxy : x < y) : x < .infinite false :=
    Binary.lt_of_lt_of_le hxy (Binary.le_infinite (Binary.ne_nan_of_lt hxy).2)
  have habove {x y : Binary32} (hxy : x < y) : .infinite true < y :=
    Binary.lt_of_le_of_lt (Binary.infinite_le (Binary.ne_nan_of_lt hxy).1) hxy
  exact ⟨hbelow hwidth, hbelow hheight, habove hwidth, habove hheight⟩

/-! ## Growing -/

/-- An edge never moves inwards. -/
theorem CanGrow.contains_grow (h : r.CanGrow) {m : Matrix4 Binary32} {reach : Vec2 Binary32}
    (hextent : (m.transformExtent reach).IsNumber) : (r.grow m reach).Contains r := by
  have hx : 0 ≤ (m.transformExtent reach).x := Binary.abs_nonneg (by decide) hextent.1
  have hy : 0 ≤ (m.transformExtent reach).y := Binary.abs_nonneg (by decide) hextent.2
  exact ⟨Binary.sub_le_of_nonneg (by decide) h.left hx,
    Binary.sub_le_of_nonneg (by decide) h.top hy,
    Binary.le_add_of_nonneg (by decide) h.right hx,
    Binary.le_add_of_nonneg (by decide) h.bottom hy⟩

/-- What contains a region with an area has an area. -/
theorem Contains.isEmpty_eq_false (h : r.Contains s) (hs : s.isEmpty = false) :
    r.isEmpty = false := by
  obtain ⟨hwidth, hheight⟩ := isEmpty_eq_false_iff.1 hs
  exact isEmpty_eq_false_iff.2
    ⟨Binary.lt_of_le_of_lt h.1 (Binary.lt_of_lt_of_le hwidth h.2.2.1),
      Binary.lt_of_le_of_lt h.2.1 (Binary.lt_of_lt_of_le hheight h.2.2.2)⟩

end Rect

/-! ## Blurs -/

namespace Blur

variable {σ τ : Type} (b : Blur Binary32)

/-- What a blur needs for all that it covers contains the bounds of its input. -/
theorem sourceCoverage_coverage (input : FilterInput Binary32 σ τ)
    (rest : List (FilterInput Binary32 σ τ)) (entity : Entity Binary32)
    (effect effect' : Matrix4 Binary32) {bounds : Rect Binary32}
    (hbounds : input.coverage entity = some bounds) (harea : bounds.isEmpty = false)
    (hextent : (((input.transform entity).basis * effect.basis).transformExtent
      b.extent.radius).IsNumber)
    (hextent' : (effect'.transformExtent b.extent.radius).IsNumber) :
    ∃ covered needed, b.coverage (input :: rest) entity effect = some covered ∧
      b.sourceCoverage effect' covered = some needed ∧ needed.Contains bounds := by
  let covered := bounds.grow ((input.transform entity).basis * effect.basis) b.extent.radius
  have hcovered : covered.Contains bounds :=
    (Rect.canGrow_of_isEmpty_eq_false harea).contains_grow hextent
  have hcoveredArea : covered.isEmpty = false := hcovered.isEmpty_eq_false harea
  have hneeded : (covered.grow effect' b.extent.radius).Contains covered :=
    (Rect.canGrow_of_isEmpty_eq_false hcoveredArea).contains_grow hextent'
  refine ⟨covered, covered.grow effect' b.extent.radius, ?_, ?_, hneeded.trans hcovered⟩
  · simp only [coverage, List.head?_cons, Option.bind_eq_bind, Option.bind_some, hbounds]
    rfl
  · rw [sourceCoverage, hcoveredArea]
    rfl

/-- What is asked of a blur is only ever grown: what it needs for all that it covers contains the
    bounds of its input, and what it asks its input for contains the region that will be drawn. -/
theorem regions_grow (input : FilterInput Binary32 σ τ) (rest : List (FilterInput Binary32 σ τ))
    (entity : Entity Binary32) :
    (∀ (effect effect' : Matrix4 Binary32) (bounds : Rect Binary32),
      input.coverage entity = some bounds → bounds.isEmpty = false →
      (((input.transform entity).basis * effect.basis).transformExtent b.extent.radius).IsNumber →
      (effect'.transformExtent b.extent.radius).IsNumber →
      ∃ covered needed, b.coverage (input :: rest) entity effect = some covered ∧
        b.sourceCoverage effect' covered = some needed ∧ needed.Contains bounds) ∧
    ∀ (r : SubpassRenderer Binary32 σ τ) (effect : Matrix4 Binary32) (hint : Rect Binary32),
      hint.IsFinite →
      ((entity.transform * effect).transformExtent b.extent.padding).IsNumber →
      ∃ limit, b.render r (input :: rest) entity effect (some hint) =
          input.snapshot "Gaussian Blur Snapshot" entity (some limit) >>=
            b.renderFrom r input entity ∧
        limit.Contains hint := by
  refine ⟨fun effect effect' bounds hbounds harea hextent hextent' => ?_,
    fun r effect hint hfinite hextent => ?_⟩
  · exact b.sourceCoverage_coverage input rest entity effect effect' hbounds harea hextent hextent'
  · exact ⟨hint.grow (entity.transform * effect) b.extent.padding,
      b.render_cons r input rest entity effect rfl, hfinite.canGrow.contains_grow hextent⟩

/-- A reflection so strong that the reach overflows to infinity on one axis. -/
def reflection : Matrix4 Binary32 := .scaling (.ofRat (-2 ^ 127)) (.ofRat 0.5) 1

/-- An input with these bounds that has nothing to draw. -/
def bounded (bounds : Rect Binary32) : FilterInput Binary32 Unit Unit where
  snapshot _ _ _ := return none
  coverage _ := some bounds
  localTransform _ := reflection

/-- The regions of a blur whose reach is infinite to the sides. -/
theorem regions_grow_of_overflow :
    let b : Blur Binary32 := ⟨⟨.ofRat 10, .ofRat 7⟩, .decal⟩
    let bounds : Rect Binary32 := ⟨.ofRat (-1), 0, .ofRat 3, .ofRat 0.1⟩
    let r : SubpassRenderer Binary32 Unit Unit := ⟨fun _ => ⟨1, 1⟩, fun _ => {}, fun _ => return ()⟩
    let entity : Entity Binary32 := ⟨reflection, .sourceOver, 0⟩
    (reflection.transformExtent b.extent.radius).x = .infinite false ∧
    (∃ covered needed, b.coverage [bounded bounds] default .identity = some covered ∧
      b.sourceCoverage reflection covered = some needed ∧ needed.Contains bounds) ∧
    ∃ limit, b.render r [bounded bounds] entity .identity (some bounds) =
        (bounded bounds).snapshot "Gaussian Blur Snapshot" entity (some limit) >>=
          b.renderFrom r (bounded bounds) entity ∧
      limit.Contains bounds := by
  intro b bounds r entity
  refine ⟨by decide +kernel, ?_, ?_⟩
  · exact (b.regions_grow (bounded bounds) [] default).1 .identity reflection bounds rfl
      (by decide +kernel) (by decide +kernel) (by decide +kernel)
  · exact (b.regions_grow (bounded bounds) [] entity).2 r .identity bounds
      (by decide +kernel) (by decide +kernel)

end Blur

end SeparableBlur

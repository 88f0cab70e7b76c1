-- SUMMARY: Affine transforms without rounding: how they move points, how they combine, and what bounds the image of a rectangle.
import SeparableBlur.Geometry.Rect
import SeparableBlur.Proofs.Binary
import SeparableBlur.Proofs.Extremes

/-!
# Affine transforms

Without rounding, a transform whose last row is that of the identity moves the
points of the plane by a linear map and a translation. An extreme of such a map
over a rectangle is attained at a corner, so the bounds of the moved corners are
the bounds of everything in between.
-/

namespace SeparableBlur

/-! ## Transforms -/

namespace Matrix4

/-- The last row of the transform is that of the identity. -/
structure IsAffine (m : Matrix4 Rat) : Prop where
  xAxis : m.xAxis.w = 0
  yAxis : m.yAxis.w = 0
  zAxis : m.zAxis.w = 0
  wAxis : m.wAxis.w = 1

variable {m n : Matrix4 Rat}

theorem isAffine_identity : IsAffine identity := ⟨rfl, rfl, rfl, rfl⟩

theorem isAffine_translation (x y z : Rat) : IsAffine (translation x y z) := ⟨rfl, rfl, rfl, rfl⟩

theorem isAffine_scaling (x y z : Rat) : IsAffine (scaling x y z) := ⟨rfl, rfl, rfl, rfl⟩

theorem IsAffine.apply_w (h : m.IsAffine) (v : Vec4 Rat) : (m.apply v).w = v.w := by
  change m.xAxis.w * v.x + m.yAxis.w * v.y + m.zAxis.w * v.z + m.wAxis.w * v.w = v.w
  rw [h.xAxis, h.yAxis, h.zAxis, h.wAxis]
  ring

theorem IsAffine.mul (hm : m.IsAffine) (hn : n.IsAffine) : (m * n).IsAffine where
  xAxis := (hm.apply_w n.xAxis).trans hn.xAxis
  yAxis := (hm.apply_w n.yAxis).trans hn.yAxis
  zAxis := (hm.apply_w n.zAxis).trans hn.zAxis
  wAxis := (hm.apply_w n.wAxis).trans hn.wAxis

variable (m)

theorem apply_eq (v : Vec4 Rat) :
    m.apply v = ⟨m.xAxis.x * v.x + m.yAxis.x * v.y + m.zAxis.x * v.z + m.wAxis.x * v.w,
      m.xAxis.y * v.x + m.yAxis.y * v.y + m.zAxis.y * v.z + m.wAxis.y * v.w,
      m.xAxis.z * v.x + m.yAxis.z * v.y + m.zAxis.z * v.z + m.wAxis.z * v.w,
      m.xAxis.w * v.x + m.yAxis.w * v.y + m.zAxis.w * v.z + m.wAxis.w * v.w⟩ := rfl

theorem mul_identity : m * identity = m := by
  change Matrix4.mk (m.apply ⟨1, 0, 0, 0⟩) (m.apply ⟨0, 1, 0, 0⟩) (m.apply ⟨0, 0, 1, 0⟩)
    (m.apply ⟨0, 0, 0, 1⟩) = m
  simp [apply_eq]

theorem linear_eq (v : Vec2 Rat) :
    m.linear v = ⟨m.xAxis.x * v.x + m.yAxis.x * v.y, m.xAxis.y * v.x + m.yAxis.y * v.y,
      m.xAxis.z * v.x + m.yAxis.z * v.y, m.xAxis.w * v.x + m.yAxis.w * v.y⟩ := by
  change Vec4.mk (_ + m.zAxis.x * (0 : Rat)) (_ + m.zAxis.y * (0 : Rat))
    (_ + m.zAxis.z * (0 : Rat)) (_ + m.zAxis.w * (0 : Rat)) = _
  simp only [mul_zero, add_zero]
  rfl

/-- Where an affine transform moves a point. -/
theorem IsAffine.transformPoint_eq {m : Matrix4 Rat} (h : m.IsAffine) (p : Vec2 Rat) :
    m.transformPoint p = ⟨m.xAxis.x * p.x + m.yAxis.x * p.y + m.wAxis.x,
      m.xAxis.y * p.x + m.yAxis.y * p.y + m.wAxis.y⟩ := by
  have hw : m.xAxis.w * p.x + m.yAxis.w * p.y + m.wAxis.w = 1 := by
    rw [h.xAxis, h.yAxis, h.wAxis]
    ring
  simp only [transformPoint, linear_eq]
  change Vec2.mk (_ / (m.xAxis.w * p.x + m.yAxis.w * p.y + m.wAxis.w))
    (_ / (m.xAxis.w * p.x + m.yAxis.w * p.y + m.wAxis.w)) = _
  rw [hw]
  simp only [div_one]
  rfl

/-- A displacement is moved by the linear part alone. -/
theorem IsAffine.transformPoint_add {m : Matrix4 Rat} (h : m.IsAffine) (p d : Vec2 Rat) :
    m.transformPoint (p + d) =
      ⟨(m.transformPoint p).x + (m.xAxis.x * d.x + m.yAxis.x * d.y),
        (m.transformPoint p).y + (m.xAxis.y * d.x + m.yAxis.y * d.y)⟩ := by
  have hpoint : p + d = ⟨p.x + d.x, p.y + d.y⟩ := rfl
  rw [h.transformPoint_eq, h.transformPoint_eq, hpoint]
  simp only [Vec2.mk.injEq]
  constructor <;> ring

/-- An affine transform that is not degenerate in the plane moves different points to different
    points. -/
theorem IsAffine.transformPoint_injective {m : Matrix4 Rat} (h : m.IsAffine)
    (hdet : m.xAxis.x * m.yAxis.y - m.yAxis.x * m.xAxis.y ≠ 0) :
    Function.Injective m.transformPoint := by
  intro p q hpq
  simp only [h.transformPoint_eq, Vec2.mk.injEq] at hpq
  obtain ⟨hx, hy⟩ := hpq
  -- The two equations are solved for the difference of the points.
  have hpx : (m.xAxis.x * m.yAxis.y - m.yAxis.x * m.xAxis.y) * (p.x - q.x) = 0 := by
    linear_combination m.yAxis.y * hx - m.yAxis.x * hy
  have hpy : (m.xAxis.x * m.yAxis.y - m.yAxis.x * m.xAxis.y) * (p.y - q.y) = 0 := by
    linear_combination m.xAxis.x * hy - m.xAxis.y * hx
  have hxx := sub_eq_zero.1 ((mul_eq_zero.1 hpx).resolve_left hdet)
  have hyy := sub_eq_zero.1 ((mul_eq_zero.1 hpy).resolve_left hdet)
  cases p
  cases q
  exact congrArg₂ Vec2.mk hxx hyy

/-- An affine transform that leaves three corners of a rectangle where they are leaves every point
    of the plane there. -/
theorem IsAffine.fixed_of_corners {m : Matrix4 Rat} (h : m.IsAffine) {w l : Rat} (hw : w ≠ 0)
    (hl : l ≠ 0) (htopLeft : m.transformPoint ⟨0, 0⟩ = ⟨0, 0⟩)
    (htopRight : m.transformPoint ⟨w, 0⟩ = ⟨w, 0⟩)
    (hbottomLeft : m.transformPoint ⟨0, l⟩ = ⟨0, l⟩) : ∀ p, m.transformPoint p = p := by
  simp only [h.transformPoint_eq, Vec2.mk.injEq, mul_zero, add_zero, zero_add] at *
  -- The first corner says that there is no translation, and the others give a column each.
  obtain ⟨hx, hy⟩ := htopLeft
  simp only [hx, hy, add_zero, mul_eq_right₀ hw, mul_eq_right₀ hl, mul_eq_zero, hw, hl,
    or_false] at htopRight hbottomLeft
  intro p
  rw [hx, hy, htopRight.1, htopRight.2, hbottomLeft.1, hbottomLeft.2]
  simp

/-- The transform moves no point out of the plane. -/
structure KeepsPlane (m : Matrix4 Rat) : Prop where
  xAxis : m.xAxis.z = 0
  yAxis : m.yAxis.z = 0
  wAxis : m.wAxis.z = 0

/-- Two transforms are applied one after the other, if the first one keeps to the plane. -/
theorem IsAffine.transformPoint_mul {m n : Matrix4 Rat} (hm : m.IsAffine) (hn : n.IsAffine)
    (hplane : n.KeepsPlane) (p : Vec2 Rat) :
    (m * n).transformPoint p = m.transformPoint (n.transformPoint p) := by
  rw [(hm.mul hn).transformPoint_eq, hn.transformPoint_eq, hm.transformPoint_eq]
  have hx : (m * n).xAxis = m.apply n.xAxis := rfl
  have hy : (m * n).yAxis = m.apply n.yAxis := rfl
  have hw : (m * n).wAxis = m.apply n.wAxis := rfl
  simp only [hx, hy, hw, apply_eq, hplane.xAxis, hplane.yAxis, hplane.wAxis, hn.xAxis, hn.yAxis,
    hn.wAxis, Vec2.mk.injEq]
  constructor <;> ring

@[simp] theorem transformPoint_translation (x y : Rat) (p : Vec2 Rat) :
    (translation x y 0).transformPoint p = ⟨p.x + x, p.y + y⟩ := by
  rw [(isAffine_translation x y 0).transformPoint_eq]
  change Vec2.mk (1 * p.x + 0 * p.y + x) (0 * p.x + 1 * p.y + y) = _
  simp

@[simp] theorem transformPoint_scaling (x y : Rat) (p : Vec2 Rat) :
    (scaling x y 1).transformPoint p = ⟨x * p.x, y * p.y⟩ := by
  rw [(isAffine_scaling x y 1).transformPoint_eq]
  change Vec2.mk (x * p.x + 0 * p.y + 0) (0 * p.x + y * p.y + 0) = _
  simp

@[simp] theorem transformPoint_identity (p : Vec2 Rat) : identity.transformPoint p = p := by
  have h := transformPoint_scaling 1 1 p
  simp only [one_mul] at h
  exact h

/-- A transform applied after a scaling and a translation. -/
theorem IsAffine.transformPoint_translation_scaling {m : Matrix4 Rat} (h : m.IsAffine)
    (x y sx sy : Rat) (p : Vec2 Rat) :
    (m * translation x y 0 * scaling sx sy 1).transformPoint p =
      m.transformPoint ⟨sx * p.x + x, sy * p.y + y⟩ := by
  have hm := h.mul (isAffine_translation x y 0)
  rw [hm.transformPoint_mul (isAffine_scaling sx sy 1) ⟨rfl, rfl, rfl⟩,
    h.transformPoint_mul (isAffine_translation x y 0) ⟨rfl, rfl, rfl⟩, transformPoint_scaling,
    transformPoint_translation]

@[simp] theorem transformPoint_anchorScale (anchor scale p : Vec2 Rat) :
    (anchorScale anchor scale).transformPoint p =
      ⟨scale.x * (p.x - anchor.x) + anchor.x, scale.y * (p.y - anchor.y) + anchor.y⟩ := by
  have h := isAffine_translation anchor.x anchor.y 0
  have hscale := isAffine_scaling scale.x scale.y 1
  have hback := isAffine_translation (-anchor.x) (-anchor.y) 0
  rw [anchorScale, (h.mul hscale).transformPoint_mul hback ⟨rfl, rfl, rfl⟩,
    h.transformPoint_mul hscale ⟨rfl, rfl, rfl⟩, transformPoint_translation, transformPoint_scaling,
    transformPoint_translation]
  simp only [sub_eq_add_neg]

/-- How far a displacement reaches. -/
theorem transformExtent_eq (v : Vec2 Rat) :
    m.transformExtent v = ⟨|m.xAxis.x * v.x + m.yAxis.x * v.y|,
      |m.xAxis.y * v.x + m.yAxis.y * v.y|⟩ := by
  simp only [transformExtent, linear_eq, ← Exact.abs_eq]
  rfl

end Matrix4

/-! ## Rectangles -/

theorem Vec2.max_eq (v w : Vec2 Rat) : v.max w = ⟨Max.max v.x w.x, Max.max v.y w.y⟩ := by
  have h (a b : Rat) : (if b < a then a else b) = Max.max a b := by
    rw [max_comm, max_def_lt]
  exact congrArg₂ Vec2.mk (h v.x w.x) (h v.y w.y)

namespace Rect

/-- The point lies in the rectangle, edges included. -/
structure Covers (r : Rect Rat) (p : Vec2 Rat) : Prop where
  left : r.left ≤ p.x
  top : r.top ≤ p.y
  right : p.x ≤ r.right
  bottom : p.y ≤ r.bottom

instance (r : Rect Rat) (p : Vec2 Rat) : Decidable (r.Covers p) :=
  decidable_of_iff (r.left ≤ p.x ∧ r.top ≤ p.y ∧ p.x ≤ r.right ∧ p.y ≤ r.bottom)
    ⟨fun ⟨left, top, right, bottom⟩ => ⟨left, top, right, bottom⟩,
      fun h => ⟨h.left, h.top, h.right, h.bottom⟩⟩

/-- The rectangle covers the points, and each of its edges passes through one of them. -/
structure Bounds (r : Rect Rat) (points : List (Vec2 Rat)) : Prop where
  covers : ∀ p ∈ points, r.Covers p
  left : ∃ p ∈ points, p.x = r.left
  top : ∃ p ∈ points, p.y = r.top
  right : ∃ p ∈ points, p.x = r.right
  bottom : ∃ p ∈ points, p.y = r.bottom

variable {r : Rect Rat} {points : List (Vec2 Rat)}

theorem Spans.bounds (h : r.Spans id points) : r.Bounds points where
  covers p hp := by
    have hx := List.mem_map_of_mem (f := (·.x)) hp
    have hy := List.mem_map_of_mem (f := (·.y)) hp
    exact ⟨h.left.2 p.x hx, h.top.2 p.y hy, h.right.2 p.x hx, h.bottom.2 p.y hy⟩
  left := List.mem_map.1 h.left.1
  top := List.mem_map.1 h.top.1
  right := List.mem_map.1 h.right.1
  bottom := List.mem_map.1 h.bottom.1

/-- The smallest rectangle around some points. -/
theorem hull_bounds (first : Vec2 Rat) (rest : List (Vec2 Rat)) :
    (hull first rest).Bounds (first :: rest) :=
  (hull_spans id (fun _ _ _ _ => Iff.rfl) fun _ _ _ _ => Iff.rfl).bounds

theorem transformBounds_bounds (r : Rect Rat) (m : Matrix4 Rat) :
    (r.transformBounds m).Bounds (r.corners.toList.map m.transformPoint) := by
  let q := r.transformedCorners m
  exact hull_bounds q.topLeft [q.topRight, q.bottomLeft, q.bottomRight]

theorem corners_covered (hwidth : r.left ≤ r.right) (hheight : r.top ≤ r.bottom) :
    ∀ q ∈ r.corners.toList, r.Covers q := by
  simp only [corners, Corners.toList, List.forall_mem_cons]
  refine ⟨?_, ?_, ?_, ?_, by simp⟩
  · exact ⟨le_refl _, le_refl _, hwidth, hheight⟩
  · exact ⟨hwidth, le_refl _, le_refl _, hheight⟩
  · exact ⟨le_refl _, hheight, hwidth, le_refl _⟩
  · exact ⟨hwidth, hheight, le_refl _, le_refl _⟩

theorem ofSize_left_le_right (s : Size) : (ofSize s : Rect Rat).left ≤ (ofSize s).right := by
  change (0 : Rat) ≤ 0 + (s.width.toNat : Rat)
  positivity

theorem ofSize_top_le_bottom (s : Size) : (ofSize s : Rect Rat).top ≤ (ofSize s).bottom := by
  change (0 : Rat) ≤ 0 + (s.height.toNat : Rat)
  positivity

/-! ### Affine images -/

/-- Between two ends, a linear function is nowhere below both of its values there. -/
theorem le_of_ends {a e x low high bound : Rat} (hlow : low ≤ x) (hhigh : x ≤ high)
    (h : bound ≤ a * low + e) (h' : bound ≤ a * high + e) : bound ≤ a * x + e := by
  rcases le_total 0 a with ha | ha
  · linarith [mul_le_mul_of_nonneg_left hlow ha]
  · linarith [mul_le_mul_of_nonpos_left hhigh ha]

/-- Within a rectangle, a linear function is nowhere below all of its values at the corners. -/
theorem Covers.le_of_corners {p : Vec2 Rat} (hp : r.Covers p) {a c e bound : Rat}
    (h : ∀ q ∈ r.corners.toList, bound ≤ a * q.x + c * q.y + e) :
    bound ≤ a * p.x + c * p.y + e := by
  simp only [corners, Corners.toList, List.forall_mem_cons] at h
  obtain ⟨htopLeft, htopRight, hbottomLeft, hbottomRight, -⟩ := h
  -- Along the upper and the lower edge first, and then from one to the other.
  have htop : bound ≤ a * p.x + (c * r.top + e) :=
    le_of_ends hp.left hp.right (by linarith) (by linarith)
  have hbottom : bound ≤ a * p.x + (c * r.bottom + e) :=
    le_of_ends hp.left hp.right (by linarith) (by linarith)
  have hmiddle : bound ≤ c * p.y + (a * p.x + e) :=
    le_of_ends hp.top hp.bottom (by linarith) (by linarith)
  linarith

theorem Covers.ge_of_corners {p : Vec2 Rat} (hp : r.Covers p) {a c e bound : Rat}
    (h : ∀ q ∈ r.corners.toList, a * q.x + c * q.y + e ≤ bound) :
    a * p.x + c * p.y + e ≤ bound := by
  have hneg : -bound ≤ -a * p.x + -c * p.y + -e := by
    apply hp.le_of_corners
    intro q hq
    linarith [h q hq]
  linarith

/-- The bounds of the moved corners cover every moved point. -/
theorem Covers.transform {m : Matrix4 Rat} (hm : m.IsAffine) {p : Vec2 Rat} (hp : r.Covers p) :
    (r.transformBounds m).Covers (m.transformPoint p) := by
  have hcovers := (r.transformBounds_bounds m).covers
  simp only [List.forall_mem_map, hm.transformPoint_eq] at hcovers
  rw [hm.transformPoint_eq]
  constructor
  · exact hp.le_of_corners fun q hq => (hcovers q hq).left
  · exact hp.le_of_corners fun q hq => (hcovers q hq).top
  · exact hp.ge_of_corners fun q hq => (hcovers q hq).right
  · exact hp.ge_of_corners fun q hq => (hcovers q hq).bottom

end Rect

end SeparableBlur

-- SUMMARY: The bounds of a transformed rectangle are the smallest rectangle around everything that is moved.
import SeparableBlur.Proofs.Affine

/-!
# Bounding boxes

The bounds of a transformed rectangle are computed from its four corners. Under an
affine transform they cover the images of all points in between, and since every
edge passes through the image of a corner, nothing smaller would do.
-/

namespace SeparableBlur

namespace Rect

/-! ## Boxes around sets of points -/

/-- The rectangle covers the points, and each of its edges passes through one of them. -/
structure Frames (box : Rect Rat) (points : Set (Vec2 Rat)) : Prop where
  covers : ∀ p ∈ points, box.Covers p
  left : ∃ p ∈ points, p.x = box.left
  top : ∃ p ∈ points, p.y = box.top
  right : ∃ p ∈ points, p.x = box.right
  bottom : ∃ p ∈ points, p.y = box.bottom

variable {box r s : Rect Rat} {points : Set (Vec2 Rat)}

/-- Bounds of some of the points that cover all of them. -/
theorem Bounds.frames {sample : List (Vec2 Rat)} (h : box.Bounds sample)
    (hsample : ∀ p ∈ sample, p ∈ points) (hcovers : ∀ p ∈ points, box.Covers p) :
    box.Frames points where
  covers := hcovers
  left := h.left.imp fun p hp => ⟨hsample p hp.1, hp.2⟩
  top := h.top.imp fun p hp => ⟨hsample p hp.1, hp.2⟩
  right := h.right.imp fun p hp => ⟨hsample p hp.1, hp.2⟩
  bottom := h.bottom.imp fun p hp => ⟨hsample p hp.1, hp.2⟩

/-- No other rectangle that covers the points leaves out any of it. -/
theorem Frames.least (h : box.Frames points) (hs : ∀ p ∈ points, s.Covers p) : s.Contains box := by
  obtain ⟨l, hl, hleft⟩ := h.left
  obtain ⟨t, ht, htop⟩ := h.top
  obtain ⟨r, hr, hright⟩ := h.right
  obtain ⟨b, hb, hbottom⟩ := h.bottom
  exact ⟨hleft ▸ (hs l hl).left, htop ▸ (hs t ht).top, hright ▸ (hs r hr).right,
    hbottom ▸ (hs b hb).bottom⟩

/-! ## Moved rectangles -/

/-- Where the transform moves the points of the rectangle. -/
def image (r : Rect Rat) (m : Matrix4 Rat) : Set (Vec2 Rat) :=
  m.transformPoint '' {p | r.Covers p}

theorem transformBounds_frames {m : Matrix4 Rat} (hm : m.IsAffine) (hwidth : r.left ≤ r.right)
    (hheight : r.top ≤ r.bottom) : (r.transformBounds m).Frames (r.image m) := by
  refine (r.transformBounds_bounds m).frames ?_ ?_
  · intro q hq
    obtain ⟨p, hp, rfl⟩ := List.mem_map.1 hq
    exact ⟨p, corners_covered hwidth hheight p hp, rfl⟩
  · rintro _ ⟨p, hp, rfl⟩
    exact Covers.transform hm hp

/-- Under an affine transform the bounds of a rectangle cover the image of each of its points. Each
    edge of the bounds passes through the image of one of them, so every rectangle that covers all
    the images contains the bounds. -/
theorem transformBounds_least {m : Matrix4 Rat} (hm : m.IsAffine) (hwidth : r.left ≤ r.right)
    (hheight : r.top ≤ r.bottom) :
    let box := r.transformBounds m
    (∀ p, r.Covers p → box.Covers (m.transformPoint p)) ∧
    (∃ p, r.Covers p ∧ (m.transformPoint p).x = box.left) ∧
    (∃ p, r.Covers p ∧ (m.transformPoint p).y = box.top) ∧
    (∃ p, r.Covers p ∧ (m.transformPoint p).x = box.right) ∧
    (∃ p, r.Covers p ∧ (m.transformPoint p).y = box.bottom) ∧
    ∀ s : Rect Rat, (∀ p, r.Covers p → s.Covers (m.transformPoint p)) → s.Contains box := by
  intro box
  have h : box.Frames (r.image m) := transformBounds_frames hm hwidth hheight
  refine ⟨fun p hp => h.covers _ ⟨p, hp, rfl⟩, ?_, ?_, ?_, ?_, fun s hs => h.least ?_⟩
  · simpa [image] using h.left
  · simpa [image] using h.top
  · simpa [image] using h.right
  · simpa [image] using h.bottom
  · rintro _ ⟨p, hp, rfl⟩
    exact hs p hp

/-- A shear that turns the plane over and moves it. -/
def flippedShear : Matrix4 Rat := ⟨⟨1, 0, 0, 0⟩, ⟨2, -1, 0, 0⟩, ⟨0, 0, 1, 0⟩, ⟨5, 7, 0, 1⟩⟩

theorem transformBounds_least_of_flippedShear :
    flippedShear.IsAffine ∧
    (⟨-1, 0, 3, 4⟩ : Rect Rat).transformBounds flippedShear = ⟨4, 3, 16, 7⟩ ∧
    (∀ p, (⟨-1, 0, 3, 4⟩ : Rect Rat).Covers p →
      (⟨4, 3, 16, 7⟩ : Rect Rat).Covers (flippedShear.transformPoint p)) ∧
    ∀ s : Rect Rat, (∀ p, (⟨-1, 0, 3, 4⟩ : Rect Rat).Covers p →
      s.Covers (flippedShear.transformPoint p)) → s.Contains ⟨4, 3, 16, 7⟩ := by
  have haffine : flippedShear.IsAffine := ⟨rfl, rfl, rfl, rfl⟩
  have hbounds : (⟨-1, 0, 3, 4⟩ : Rect Rat).transformBounds flippedShear = ⟨4, 3, 16, 7⟩ := by
    decide +kernel
  obtain ⟨hcovers, -, -, -, -, hleast⟩ :=
    transformBounds_least (r := ⟨-1, 0, 3, 4⟩) haffine (by norm_num) (by norm_num)
  rw [hbounds] at hcovers hleast
  exact ⟨haffine, hbounds, hcovers, hleast⟩

end Rect

end SeparableBlur

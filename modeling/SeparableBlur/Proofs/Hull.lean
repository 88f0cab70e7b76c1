-- SUMMARY: The bounds of a list of points are the smallest rectangle around them, whatever their order and however often each occurs.
import SeparableBlur.Proofs.Extremes
import SeparableBlur.Proofs.Growth

/-!
# The hull of points

Comparisons of numbers agree with their places on the line, so every edge of the
bounds passes through a point and none has a point outside.

Infinite coordinates are compared like any others. Two zeros of either sign compare
equal, and which of them becomes an edge depends on the order of the points. As
numbers the edges do not depend on it.
-/

namespace SeparableBlur

/-! ## Numbers on the line -/

namespace Binary

variable {f : Format} {a b : Binary f}

/-- Where a number lies. -/
def place (a : Binary f) : Line := a.place?.getD ⊥

theorem place?_eq_some_place (h : a ≠ .nan) : a.place? = some a.place := by
  obtain ⟨p, hp⟩ := exists_place? h
  rw [place, hp, Option.getD_some]

theorem lt_iff_place_lt (ha : a ≠ .nan) (hb : b ≠ .nan) : a < b ↔ a.place < b.place :=
  lt_iff_of_place? (place?_eq_some_place ha) (place?_eq_some_place hb)

theorem le_iff_place_le (ha : a ≠ .nan) (hb : b ≠ .nan) : a ≤ b ↔ a.place ≤ b.place :=
  le_iff_of_place? (place?_eq_some_place ha) (place?_eq_some_place hb)

theorem place?_eq_of_le (h : a ≤ b) (h' : b ≤ a) : a.place? = b.place? := by
  obtain ⟨p, q, hp, hq, hpq⟩ := exists_place?_of_le h
  rw [hp, hq, le_antisymm hpq ((le_iff_of_place? hq hp).1 h')]

end Binary

/-! ## Bounds of points -/

namespace Rect

/-- The point lies in the rectangle, edges included. -/
structure Encloses (r : Rect Binary32) (p : Vec2 Binary32) : Prop where
  left : r.left ≤ p.x
  top : r.top ≤ p.y
  right : p.x ≤ r.right
  bottom : p.y ≤ r.bottom

/-- The rectangle encloses the points, and each of its edges passes through one of them. -/
structure IsHull (box : Rect Binary32) (points : List (Vec2 Binary32)) : Prop where
  encloses : ∀ p ∈ points, box.Encloses p
  left : ∃ p ∈ points, p.x = box.left
  top : ∃ p ∈ points, p.y = box.top
  right : ∃ p ∈ points, p.x = box.right
  bottom : ∃ p ∈ points, p.y = box.bottom

/-- The edges are the same numbers. A zero may have either sign. -/
structure Agrees (r s : Rect Binary32) : Prop where
  left : r.left.place? = s.left.place?
  top : r.top.place? = s.top.place?
  right : r.right.place? = s.right.place?
  bottom : r.bottom.place? = s.bottom.place?

variable {box r s : Rect Binary32} {points others : List (Vec2 Binary32)}

theorem Contains.agrees (h : r.Contains s) (h' : s.Contains r) : r.Agrees s :=
  ⟨Binary.place?_eq_of_le h.1 h'.1, Binary.place?_eq_of_le h.2.1 h'.2.1,
    Binary.place?_eq_of_le h'.2.2.1 h.2.2.1, Binary.place?_eq_of_le h'.2.2.2 h.2.2.2⟩

theorem x_ne_nan (h : ∀ p ∈ points, p.IsNumber) : ∀ a ∈ points.map (·.x), a ≠ .nan :=
  List.forall_mem_map.2 fun p hp => (h p hp).1

theorem y_ne_nan (h : ∀ p ∈ points, p.IsNumber) : ∀ a ∈ points.map (·.y), a ≠ .nan :=
  List.forall_mem_map.2 fun p hp => (h p hp).2

theorem Spans.isHull (h : box.Spans Binary.place points) (hnumber : ∀ p ∈ points, p.IsNumber) :
    box.IsHull points := by
  have hx := x_ne_nan hnumber
  have hy := y_ne_nan hnumber
  obtain ⟨⟨hleft, hleftLe⟩, ⟨htop, htopLe⟩, ⟨hright, hrightLe⟩, ⟨hbottom, hbottomLe⟩⟩ := h
  refine ⟨fun p hp => ?_, List.mem_map.1 hleft, List.mem_map.1 htop, List.mem_map.1 hright,
    List.mem_map.1 hbottom⟩
  have hpx : p.x ∈ points.map (·.x) := List.mem_map_of_mem hp
  have hpy : p.y ∈ points.map (·.y) := List.mem_map_of_mem hp
  exact {
    left := (Binary.le_iff_place_le (hx _ hleft) (hx _ hpx)).2 (hleftLe _ hpx)
    top := (Binary.le_iff_place_le (hy _ htop) (hy _ hpy)).2 (htopLe _ hpy)
    right := (Binary.le_iff_place_le (hx _ hpx) (hx _ hright)).2 (hrightLe _ hpx)
    bottom := (Binary.le_iff_place_le (hy _ hpy) (hy _ hbottom)).2 (hbottomLe _ hpy) }

theorem hull_isHull {first : Vec2 Binary32} {rest : List (Vec2 Binary32)}
    (h : ∀ p ∈ first :: rest, p.IsNumber) : (hull first rest).IsHull (first :: rest) := by
  have hspans : (hull first rest).Spans Binary.place (first :: rest) := by
    refine hull_spans _ (fun a ha b hb => ?_) fun a ha b hb => ?_
    · exact Binary.lt_iff_place_lt (x_ne_nan h a ha) (x_ne_nan h b hb)
    · exact Binary.lt_iff_place_lt (y_ne_nan h a ha) (y_ne_nan h b hb)
  exact hspans.isHull h

theorem exists_boundsOf (hne : points ≠ []) (h : ∀ p ∈ points, p.IsNumber) :
    ∃ box, boundsOf points = some box ∧ box.IsHull points := by
  cases points with
  | nil => exact absurd rfl hne
  | cons first rest => exact ⟨hull first rest, rfl, hull_isHull h⟩

namespace IsHull

/-- Whatever encloses the points contains the hull. -/
theorem least (h : box.IsHull points) (hs : ∀ p ∈ points, s.Encloses p) : s.Contains box := by
  obtain ⟨l, hl, hleft⟩ := h.left
  obtain ⟨t, ht, htop⟩ := h.top
  obtain ⟨r, hr, hright⟩ := h.right
  obtain ⟨b, hb, hbottom⟩ := h.bottom
  exact ⟨hleft ▸ (hs l hl).left, htop ▸ (hs t ht).top, hright ▸ (hs r hr).right,
    hbottom ▸ (hs b hb).bottom⟩

/-- Two lists of the same points have the same hull. -/
theorem agrees (h : r.IsHull points) (h' : s.IsHull others) (hsame : ∀ p, p ∈ others ↔ p ∈ points) :
    r.Agrees s :=
  Contains.agrees (h'.least fun p hp => h.encloses p ((hsame p).1 hp))
    (h.least fun p hp => h'.encloses p ((hsame p).2 hp))

end IsHull

/-- Some points without a coordinate that is not a number have bounds. These enclose all the points,
    each edge is a coordinate of one of them, and whatever encloses the points contains the bounds.
    Any list of the same points, in another order or with repetitions, has the same bounds. -/
theorem boundsOf_least (points : List (Vec2 Binary32)) (hne : points ≠ [])
    (hnumber : ∀ p ∈ points, p.IsNumber) :
    ∃ box, boundsOf points = some box ∧
      (∀ p ∈ points, box.Encloses p) ∧
      (∃ p ∈ points, p.x = box.left) ∧ (∃ p ∈ points, p.y = box.top) ∧
      (∃ p ∈ points, p.x = box.right) ∧ (∃ p ∈ points, p.y = box.bottom) ∧
      (∀ s : Rect Binary32, (∀ p ∈ points, s.Encloses p) → s.Contains box) ∧
      ∀ others : List (Vec2 Binary32), (∀ p, p ∈ others ↔ p ∈ points) →
        ∃ box', boundsOf others = some box' ∧ box.Agrees box' := by
  obtain ⟨box, heq, hbox⟩ := exists_boundsOf hne hnumber
  refine ⟨box, heq, hbox.encloses, hbox.left, hbox.top, hbox.right, hbox.bottom,
    fun s hs => hbox.least hs, fun others hsame => ?_⟩
  have hothers : others ≠ [] := by
    rintro rfl
    obtain ⟨p, hp, -⟩ := hbox.left
    exact List.not_mem_nil ((hsame p).2 hp)
  obtain ⟨box', heq', hbox'⟩ := exists_boundsOf hothers fun p hp => hnumber p ((hsame p).1 hp)
  exact ⟨box', heq', hbox.agrees hbox' hsame⟩

/-- Points on zeros of both signs and at an infinite end. -/
def zerosAndEnd : List (Vec2 Binary32) :=
  [⟨0, .ofRat 2⟩, ⟨-0, .ofRat (-1)⟩, ⟨.infinite true, 0⟩]

/-- Turned around, and with one of them twice, they have an edge with the other zero. -/
theorem boundsOf_least_of_zerosAndEnd :
    let others : List (Vec2 Binary32) := ⟨0, .ofRat 2⟩ :: zerosAndEnd.reverse
    let box : Rect Binary32 := ⟨.infinite true, .ofRat (-1), -0, .ofRat 2⟩
    let box' : Rect Binary32 := ⟨.infinite true, .ofRat (-1), 0, .ofRat 2⟩
    zerosAndEnd ≠ [] ∧ (∀ p ∈ zerosAndEnd, p.IsNumber) ∧
    boundsOf zerosAndEnd = some box ∧ boundsOf others = some box' ∧ box ≠ box' ∧
    (∀ p ∈ zerosAndEnd, box.Encloses p) ∧
    (∀ s : Rect Binary32, (∀ p ∈ zerosAndEnd, s.Encloses p) → s.Contains box) ∧
    box.Agrees box' := by
  intro others box box'
  have hne : zerosAndEnd ≠ [] := nofun
  have hnumber : ∀ p ∈ zerosAndEnd, p.IsNumber := by decide +kernel
  have hbox : boundsOf zerosAndEnd = some box := by decide +kernel
  have hbox' : boundsOf others = some box' := by decide +kernel
  have hsame : ∀ p, p ∈ others ↔ p ∈ zerosAndEnd := by
    intro p
    rw [List.mem_cons, List.mem_reverse, or_iff_right_of_imp]
    rintro rfl
    exact List.mem_cons_self
  obtain ⟨found, hfound, hencloses, -, -, -, -, hleast, hothers⟩ :=
    boundsOf_least zerosAndEnd hne hnumber
  obtain rfl : found = box := Option.some.inj (hfound.symm.trans hbox)
  obtain ⟨found', hfound', hagrees⟩ := hothers others hsame
  obtain rfl : found' = box' := Option.some.inj (hfound'.symm.trans hbox')
  exact ⟨hne, hnumber, hbox, hbox', by decide +kernel, hencloses, hleast, hagrees⟩

end Rect

end SeparableBlur

-- SUMMARY: Axis-aligned rectangles and quads.
import SeparableBlur.Geometry.Matrix

/-!
# Rectangles and quads

A `Rect` is kept as its four edges. The edges may be in either order, and a
rectangle that encloses no area is empty. A `Quad` is four corner points.
-/

namespace SeparableBlur

/-! ## Quads -/

/-- One thing for each corner, in the order in which a triangle strip draws them. -/
structure Corners (β : Type) where
  topLeft : β
  topRight : β
  bottomLeft : β
  bottomRight : β
deriving DecidableEq

namespace Corners

variable {β γ δ : Type}

/-- The corners in strip order. -/
def toList (q : Corners β) : List β := [q.topLeft, q.topRight, q.bottomLeft, q.bottomRight]

def map (f : β → γ) (q : Corners β) : Corners γ :=
  ⟨f q.topLeft, f q.topRight, f q.bottomLeft, f q.bottomRight⟩

def map₂ (f : β → γ → δ) (p : Corners β) (q : Corners γ) : Corners δ :=
  ⟨f p.topLeft q.topLeft, f p.topRight q.topRight, f p.bottomLeft q.bottomLeft,
    f p.bottomRight q.bottomRight⟩

end Corners

/-- Four corner points. -/
abbrev Quad (α : Type) := Corners (Vec2 α)

namespace Quad

variable {α : Type} [Scalar α]

/-- The unit square. -/
def unit : Quad α := ⟨⟨0, 0⟩, ⟨1, 0⟩, ⟨0, 1⟩, ⟨1, 1⟩⟩

/-- The corners moved by `m`. -/
def transform (q : Quad α) (m : Matrix4 α) : Quad α := q.map m.transformPoint

end Quad

/-! ## Rectangles -/

/-- An axis-aligned rectangle. -/
structure Rect (α : Type) where
  left : α
  top : α
  right : α
  bottom : α
deriving DecidableEq

namespace Rect

variable {α : Type} [Scalar α]

instance : Inhabited (Rect α) := ⟨⟨0, 0, 0, 0⟩⟩

/-- The rectangle with this corner and these sides. -/
def ofCorner (x y width height : α) : Rect α := ⟨x, y, x + width, y + height⟩

/-- The rectangle of an image at the origin. -/
def ofSize (s : Size) : Rect α :=
  ofCorner 0 0 (Scalar.ofUInt32 s.width) (Scalar.ofUInt32 s.height)

/-- The smallest rectangle around `first` and the points of `rest`. -/
def hull (first : Vec2 α) (rest : List (Vec2 α)) : Rect α :=
  let (low, high) := rest.foldl (fun (low, high) p => (low.min p, high.max p)) (first, first)
  ⟨low.x, low.y, high.x, high.y⟩

/-- The smallest rectangle around the points, if there are any. -/
def boundsOf : List (Vec2 α) → Option (Rect α)
  | [] => none
  | first :: rest => some (hull first rest)

def width (r : Rect α) : α := r.right - r.left

def height (r : Rect α) : α := r.bottom - r.top

def size (r : Rect α) : Vec2 α := ⟨r.width, r.height⟩

/-- A rectangle is empty unless both of its sides are positive. -/
def isEmpty (r : Rect α) : Bool := !(decide (0 < r.width) && decide (0 < r.height))

/-- Every edge moved outwards. -/
def expand (r : Rect α) (amount : Vec2 α) : Rect α :=
  ⟨r.left - amount.x, r.top - amount.y, r.right + amount.x, r.bottom + amount.y⟩

/-- Whether `s` lies inside `r`, edges included. -/
def Contains (r s : Rect α) : Prop :=
  r.left ≤ s.left ∧ r.top ≤ s.top ∧ s.right ≤ r.right ∧ s.bottom ≤ r.bottom

instance (r s : Rect α) : Decidable (r.Contains s) := by
  unfold Contains; infer_instance

/-- The corners. -/
def corners (r : Rect α) : Quad α :=
  ⟨⟨r.left, r.top⟩, ⟨r.right, r.top⟩, ⟨r.left, r.bottom⟩, ⟨r.right, r.bottom⟩⟩

/-- The corners moved by `m`. -/
def transformedCorners (r : Rect α) (m : Matrix4 α) : Quad α := r.corners.transform m

/-- The smallest rectangle around the moved corners. -/
def transformBounds (r : Rect α) (m : Matrix4 α) : Rect α :=
  let q := r.transformedCorners m
  hull q.topLeft [q.topRight, q.bottomLeft, q.bottomRight]

end Rect

end SeparableBlur

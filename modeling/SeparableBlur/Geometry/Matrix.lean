-- SUMMARY: Four by four transforms and how they move points, displacements and extents.
import SeparableBlur.Geometry.Vec

/-!
# Transforms

A `Matrix4` acts on column vectors, so `a * b` applies `b` first. Points lie in
the plane `z = 0` and are divided by their fourth component after the transform;
displacements feel neither the translation nor the division.

Each formula adds its products from the first column to the last. The order is
part of the definition, since rounded sums depend on it.
-/

namespace SeparableBlur

/-- A column of a transform. -/
structure Vec4 (α : Type) where
  x : α
  y : α
  z : α
  w : α
deriving DecidableEq

/-- A transform, given by its columns. -/
structure Matrix4 (α : Type) where
  xAxis : Vec4 α
  yAxis : Vec4 α
  zAxis : Vec4 α
  wAxis : Vec4 α
deriving DecidableEq

namespace Vec4

variable {α : Type}

def toList (v : Vec4 α) : List α := [v.x, v.y, v.z, v.w]

def map {β : Type} (f : α → β) (v : Vec4 α) : Vec4 β := ⟨f v.x, f v.y, f v.z, f v.w⟩

variable [Scalar α]

instance : Add (Vec4 α) := ⟨fun v w => ⟨v.x + w.x, v.y + w.y, v.z + w.z, v.w + w.w⟩⟩

/-- Every component times `a`. -/
def scale (v : Vec4 α) (a : α) : Vec4 α := v.map (· * a)

end Vec4

namespace Matrix4

variable {α : Type}

/-- The entries, column by column. -/
def toList (m : Matrix4 α) : List α :=
  m.xAxis.toList ++ m.yAxis.toList ++ m.zAxis.toList ++ m.wAxis.toList

def map {β : Type} (f : α → β) (m : Matrix4 α) : Matrix4 β :=
  ⟨m.xAxis.map f, m.yAxis.map f, m.zAxis.map f, m.wAxis.map f⟩

variable [Scalar α]

/-! ## Construction -/

def scaling (x y z : α) : Matrix4 α :=
  ⟨⟨x, 0, 0, 0⟩, ⟨0, y, 0, 0⟩, ⟨0, 0, z, 0⟩, ⟨0, 0, 0, 1⟩⟩

def translation (x y z : α) : Matrix4 α :=
  ⟨⟨1, 0, 0, 0⟩, ⟨0, 1, 0, 0⟩, ⟨0, 0, 1, 0⟩, ⟨x, y, z, 1⟩⟩

def identity : Matrix4 α := scaling 1 1 1

instance : Inhabited (Matrix4 α) := ⟨identity⟩

/-- The combination of the columns with the components of `v`. -/
def apply (m : Matrix4 α) (v : Vec4 α) : Vec4 α :=
  m.xAxis.scale v.x + m.yAxis.scale v.y + m.zAxis.scale v.z + m.wAxis.scale v.w

instance : Mul (Matrix4 α) :=
  ⟨fun a b => ⟨a.apply b.xAxis, a.apply b.yAxis, a.apply b.zAxis, a.apply b.wAxis⟩⟩

/-- Scaling about `anchor`, which stays where it is. -/
def anchorScale (anchor scale : Vec2 α) : Matrix4 α :=
  translation anchor.x anchor.y 0 * scaling scale.x scale.y 1 * translation (-anchor.x) (-anchor.y) 0

/-- The projection of the rectangle from the origin to `size` onto clip space, with the
    origin at the top left and a constant depth. -/
def orthographic (size : Vec2 α) : Matrix4 α :=
  translation (-1) 1 (Scalar.ofRat (1 / 2)) *
    scaling (Scalar.ofRat 2 / size.x) (-Scalar.ofRat 2 / size.y) 0

/-- The transform without its translation. -/
def basis (m : Matrix4 α) : Matrix4 α := { m with wAxis := ⟨0, 0, 0, 1⟩ }

/-! ## Action -/

/-- The columns of the plane, combined with `v`. The third column contributes its product
    with zero. -/
def linear (m : Matrix4 α) (v : Vec2 α) : Vec4 α :=
  m.xAxis.scale v.x + m.yAxis.scale v.y + m.zAxis.scale 0

/-- Where a point goes. -/
def transformPoint (m : Matrix4 α) (p : Vec2 α) : Vec2 α :=
  let q := m.linear p + m.wAxis
  ⟨q.x / q.w, q.y / q.w⟩

/-- How far a displacement reaches along each axis, whatever its direction. -/
def transformExtent (m : Matrix4 α) (extent : Vec2 α) : Vec2 α :=
  let d := m.linear extent
  ⟨Scalar.abs d.x, Scalar.abs d.y⟩

end Matrix4

end SeparableBlur

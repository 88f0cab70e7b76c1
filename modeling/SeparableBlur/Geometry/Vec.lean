-- SUMMARY: Pairs of scalars and pixel sizes.
import SeparableBlur.Scalar.Basic

/-!
# Vectors and sizes

A `Vec2` is a point or a displacement, and its operations work on each axis. A
`Size` is the pixel size of an image, in machine words.
-/

namespace SeparableBlur

/-! ## Vectors -/

/-- A point or a displacement. -/
structure Vec2 (α : Type) where
  x : α
  y : α
deriving DecidableEq

namespace Vec2

variable {α β γ : Type}

/-- The same scalar on both axes. -/
def splat (a : α) : Vec2 α := ⟨a, a⟩

def toList (v : Vec2 α) : List α := [v.x, v.y]

def map (f : α → β) (v : Vec2 α) : Vec2 β := ⟨f v.x, f v.y⟩

def map₂ (f : α → β → γ) (v : Vec2 α) (w : Vec2 β) : Vec2 γ := ⟨f v.x w.x, f v.y w.y⟩

variable [Scalar α]

instance : Inhabited (Vec2 α) := ⟨splat 0⟩

instance : Add (Vec2 α) := ⟨map₂ (· + ·)⟩

instance : Sub (Vec2 α) := ⟨map₂ (· - ·)⟩

instance : Mul (Vec2 α) := ⟨map₂ (· * ·)⟩

instance : Div (Vec2 α) := ⟨map₂ (· / ·)⟩

instance : Neg (Vec2 α) := ⟨map (- ·)⟩

/-- Both components times `a`. -/
def scale (v : Vec2 α) (a : α) : Vec2 α := v.map (· * a)

/-- The component-wise minimum. Where the comparison fails, the second is taken. -/
def min (v w : Vec2 α) : Vec2 α := map₂ (fun a b => if a < b then a else b) v w

/-- The component-wise maximum. Where the comparison fails, the second is taken. -/
def max (v w : Vec2 α) : Vec2 α := map₂ (fun a b => if b < a then a else b) v w

end Vec2

/-! ## Sizes -/

/-- The size of an image in pixels. -/
structure Size where
  width : UInt32
  height : UInt32
deriving DecidableEq

namespace Size

/-- Whether an image of this size has no pixel. -/
def isEmpty (s : Size) : Bool := s.width == 0 || s.height == 0

/-- The size as a vector of scalars. -/
def toVec2 {α : Type} [Scalar α] (s : Size) : Vec2 α :=
  ⟨Scalar.ofUInt32 s.width, Scalar.ofUInt32 s.height⟩

/-- The size whose axes are the integer parts of `v`. -/
def ofVec2 {α : Type} [Scalar α] (v : Vec2 α) : Size :=
  ⟨Scalar.toUInt32 v.x, Scalar.toUInt32 v.y⟩

end Size

end SeparableBlur

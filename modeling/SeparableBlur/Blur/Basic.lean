-- SUMMARY: Blurs and the regions they read and cover.
import SeparableBlur.Input
import SeparableBlur.Kernel

/-!
# Blurs

A `Blur` is a requested sigma for each axis and a tile mode. Without rendering
anything it answers which region its result covers and which region of the
source a part of the result needs.
-/

namespace SeparableBlur

/-- A Gaussian blur, one axis after the other. -/
structure Blur (α : Type) where
  /-- The requested sigmas. -/
  sigma : Vec2 α
  tileMode : TileMode
deriving DecidableEq

/-- How far a region must grow in the space behind `m` to reach `reach` further. -/
def Rect.grow {α : Type} [Scalar α] (r : Rect α) (m : Matrix4 α) (reach : Vec2 α) : Rect α :=
  r.expand (m.transformExtent reach)

namespace Blur

variable {α σ τ : Type} [Scalar α]

/-- What is logged when the blur is made: a sigma above the largest that is rendered. -/
def warnings (b : Blur α) : List (Event α) :=
  if Kernel.maxSigma < b.sigma.x ∨ Kernel.maxSigma < b.sigma.y then [.sigmaClamped b.sigma] else []

/-- How far the blur reaches. -/
def extent (b : Blur α) : Extent α := .ofRequest b.sigma

/-- The region of the source that is needed to produce the region `limit`. -/
def sourceCoverage (b : Blur α) (effect : Matrix4 α) (limit : Rect α) : Option (Rect α) :=
  if limit.isEmpty then none else some (limit.grow effect b.extent.radius)

/-- The region that the blur of the first input covers. -/
def coverage (b : Blur α) (inputs : List (FilterInput α σ τ)) (entity : Entity α)
    (effect : Matrix4 α) : Option (Rect α) := do
  let input ← inputs.head?
  let bounds ← input.coverage entity
  return bounds.grow ((input.transform entity).basis * effect.basis) b.extent.radius

/-- The region that the input is asked for when the region `hint` will be drawn. -/
def inputLimit (b : Blur α) (entity : Entity α) (effect : Matrix4 α) (hint : Option (Rect α)) :
    Option (Rect α) :=
  hint.map (·.grow (entity.transform * effect) b.extent.padding)

end Blur

end SeparableBlur

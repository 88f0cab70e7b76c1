-- SUMMARY: The sigma model: from a requested blur strength to the rendered sigma, its radius and its resolution.
import SeparableBlur.Geometry.Vec

/-!
# The sigma model

A blur strength is the standard deviation, sigma, of a Gaussian kernel. Three
formulas turn a requested sigma into what the passes work with:

* `Kernel.falloff` is the sigma that is rendered. It leaves small sigmas nearly
  untouched and shrinks large ones, so that the kernel stays of a workable size.
* `Kernel.radius` is the distance in pixels beyond which samples are ignored.
* `Kernel.resolution` is the factor by which the blur may be shrunk, so that its
  sigma comes down to the threshold.

An `Extent` applies them to both axes.
-/

namespace SeparableBlur

namespace Kernel

variable {α : Type} [Scalar α]

/-! ## Constants -/

/-- Pixels of radius per unit of sigma: the square root of three. -/
def radiusPerSigma : α := Scalar.ofRat 1.7320508

/-- Requests above this sigma are rendered like it. -/
def maxSigma : α := Scalar.ofRat 500

/-- An axis with a smaller sigma is not blurred. -/
def epsilon : α := Scalar.ofRat 0.001

/-- Up to this sigma the full resolution is kept. -/
def threshold : α := Scalar.ofRat 4

/-- The sigma at which the kernel is a single pixel. -/
def pixelSigma : α := Scalar.ofRat 0.5

/-! ## Formulas -/

/-- The factor on a sigma between zero and `maxSigma`: a parabola that is one at zero and
    least at `maxSigma`. -/
def falloffFactor (sigma : α) : α :=
  1 + -Scalar.ofRat 0.0034 * sigma + Scalar.ofRat 0.0000034 * sigma * sigma

/-- The rendered sigma for a requested one. What is not a number counts as zero. -/
def falloff (sigma : α) : α :=
  let clamped := Scalar.minNumber (Scalar.maxNumber sigma 0) maxSigma
  clamped * falloffFactor clamped

/-- The radius of the kernel with this sigma. -/
def radius (sigma : α) : α :=
  if pixelSigma < sigma then (sigma - pixelSigma) * radiusPerSigma else 0

/-- The sigma of the kernel with this radius. -/
def sigmaOfRadius (radius : α) : α :=
  if 0 < radius then radius / radiusPerSigma + pixelSigma else 0

/-- The factor that brings a sigma down to the threshold, and one for smaller sigmas. -/
def resolution (sigma : α) : α :=
  if sigma ≤ threshold then 1 else threshold / sigma

end Kernel

/-! ## Extents -/

/-- How far a blur reaches, given by its rendered sigma on each axis. -/
structure Extent (α : Type) where
  sigma : Vec2 α
deriving DecidableEq

namespace Extent

variable {α : Type} [Scalar α]

/-- The extent for the requested sigmas. -/
def ofRequest (requested : Vec2 α) : Extent α := ⟨requested.map Kernel.falloff⟩

/-- The kernel radius on each axis. -/
def radius (e : Extent α) : Vec2 α := e.sigma.map Kernel.radius

/-- The width of the gutter around the source, in whole source pixels. -/
def padding (e : Extent α) : Vec2 α := e.radius.map Scalar.ceil

/-- Whether neither axis blurs enough to be visible. -/
def isNoop (e : Extent α) : Bool :=
  decide (e.sigma.x < Kernel.epsilon) && decide (e.sigma.y < Kernel.epsilon)

/-- The resolution that suits both axes. -/
def resolution (e : Extent α) : α :=
  Scalar.minNumber (Kernel.resolution e.sigma.x) (Kernel.resolution e.sigma.y)

end Extent

end SeparableBlur

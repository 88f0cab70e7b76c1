-- SUMMARY: The stages of a blur: target size, texture coordinates, kernels and placement.
import SeparableBlur.Blur.Basic

/-!
# Plans

A blur is rendered in at most three stages. The first copies the source, with a
gutter on every side that is wide enough for the kernel, into a smaller target.
The other two blur along one axis each, at that size, with kernels corrected for
the scale that was really achieved after rounding the target to whole pixels.

The plan of a blur depends on the source and the device alone, so it is computed
before anything is rendered; `Blur.stages` is the list of what there is to do.
-/

namespace SeparableBlur

variable {α : Type} [Scalar α]

/-! ## Target -/

/-- A source size with a gutter of `padding` on every side. -/
def Size.padded (source : Size) (padding : Vec2 α) : Vec2 α :=
  source.toVec2 + padding.scale (Scalar.ofRat 2)

/-- The size of a target and the scale it achieves on each axis. -/
structure TargetPlan (α : Type) where
  size : Size
  achieved : Vec2 α
deriving DecidableEq

/-- The target for a padded source at the given resolution: whole pixels, at least one on
    each axis. -/
def TargetPlan.ofSource (source : Size) (padding : Vec2 α) (resolution : α) : TargetPlan α :=
  let padded := source.padded padding
  let size := Size.ofVec2 (((padded.scale resolution).map Scalar.round).max (.splat 1))
  ⟨size, size.toVec2 / padded⟩

/-! ## Texture coordinates -/

/-- The corners of an image placed by `placement`, in the image's own texture coordinates. -/
def Size.textureCoords (s : Size) (placement : Matrix4 α) : Quad α :=
  ((Rect.ofSize s).transformedCorners placement).map (· / s.toVec2)

/-- The texture coordinates that take in `padding` more texels on every side. -/
def Quad.withGutter (uvs : Quad α) (s : Size) (padding : Vec2 α) : Quad α :=
  uvs.transform (.anchorScale (.splat (Scalar.ofRat 0.5)) (s.padded padding / s.toVec2))

/-! ## Stages -/

/-- One thing to do: a pass to render, or a pass that is left out. -/
inductive Stage (α : Type) where
  | draw (pass : Pass α)
  | skip (label : String)
deriving DecidableEq

/-- What a plan is made from. -/
structure Source (α : Type) where
  size : Size
  /-- The input's placement before the entity's own transform. -/
  placement : Matrix4 α
  sampler : Sampler
deriving DecidableEq

namespace Blur

/-- Every stage draws its quad as a strip. -/
def strip (label : String) (size : Size) (pipeline : Pipeline) (uvs : Quad α)
    (kernel : Option (AxisKernel α)) (sampler : Sampler) : Pass α :=
  ⟨label, size, pipeline, .triangleStrip, uvs.vertices, .unit, kernel, sampler⟩

/-- The target for a source of this size. -/
def target (b : Blur α) (source : Size) : TargetPlan α :=
  .ofSource source b.extent.padding b.extent.resolution

/-- The program of the blurring stages. A decal blur needs its own program where samplers
    cannot read transparent black. -/
def pipeline (b : Blur α) (capabilities : Capabilities) : Pipeline :=
  if b.tileMode = .decal ∧ ¬capabilities.decalAddressing then .decalBlur else .blur

/-- The copy of the source with its gutter. -/
def downsample (b : Blur α) (capabilities : Capabilities) (source : Source α) : Pass α :=
  let uvs := (source.size.textureCoords source.placement).withGutter source.size b.extent.padding
  let sampler := (source.sampler.withFilter .linear).withTileMode b.tileMode capabilities
  strip "Gaussian Blur Downsample" (b.target source.size).size .fill uvs none sampler

/-- The blur along one axis. An axis whose corrected sigma is too small to matter is left out. -/
def axisStage (b : Blur α) (capabilities : Capabilities) (source : Source α) (label : String)
    (kernel : AxisKernel α) : Stage α :=
  if kernel.sigma < Kernel.epsilon then .skip label
  else .draw <| strip label (b.target source.size).size (b.pipeline capabilities) .unit
    (some kernel) (source.sampler.withFilter .linear)

/-- The kernel of the vertical stage for a source of this size. -/
def verticalKernel (b : Blur α) (source : Size) : AxisKernel α :=
  let t := b.target source
  ⟨⟨0, 1 / t.size.toVec2.y⟩, b.extent.sigma.y * t.achieved.y, b.extent.radius.y * t.achieved.y, 1⟩

/-- The kernel of the horizontal stage for a source of this size. -/
def horizontalKernel (b : Blur α) (source : Size) : AxisKernel α :=
  let t := b.target source
  ⟨⟨1 / t.size.toVec2.x, 0⟩, b.extent.sigma.x * t.achieved.x, b.extent.radius.x * t.achieved.x, 1⟩

/-- Everything there is to do, in order. Each stage reads what the one before it rendered. -/
def stages (b : Blur α) (capabilities : Capabilities) (source : Source α) : List (Stage α) :=
  [.draw (b.downsample capabilities source),
    b.axisStage capabilities source "Gaussian Blur Vertical" (b.verticalKernel source.size),
    b.axisStage capabilities source "Gaussian Blur Horizontal" (b.horizontalKernel source.size)]

/-- Where the last target goes, for a source of this size placed by `transform`: the scale and
    the gutter are undone first. -/
def placement (b : Blur α) (source : Size) (transform : Matrix4 α) : Matrix4 α :=
  let padding := b.extent.padding
  let back := Vec2.splat 1 / (b.target source).achieved
  transform * .translation (-padding.x) (-padding.y) 0 * .scaling back.x back.y 1

end Blur

end SeparableBlur

-- SUMMARY: The record of one rendering stage.
import SeparableBlur.Geometry.Rect
import SeparableBlur.Sampler

/-!
# Subpasses

A blur is rendered in stages. Each draws one quad into a target of its own and
reads one texture. A `Pass` says how, and a `Subpass` adds the texture that is
read.
-/

namespace SeparableBlur

/-- The program that a quad is drawn with. -/
inductive Pipeline where
  /-- Copies the texture. -/
  | fill
  /-- Blurs along one axis. -/
  | blur
  /-- Blurs along one axis and reads transparent black outside the texture, whatever the
      sampler does there. -/
  | decalBlur
deriving DecidableEq

/-- How vertices make up triangles. -/
inductive Primitive where
  | triangles
  | triangleStrip
deriving DecidableEq, Inhabited

/-- A corner of the quad. -/
structure Vertex (α : Type) where
  position : Vec2 α
  textureCoords : Vec2 α
deriving DecidableEq

def Vertex.map {α β : Type} (f : α → β) (v : Vertex α) : Vertex β :=
  ⟨v.position.map f, v.textureCoords.map f⟩

/-- What every program reads. -/
structure Frame (α : Type) where
  projection : Matrix4 α
  /-- Minus one flips the texture upside down, and one leaves it. -/
  textureYScale : α
  opacity : α
deriving DecidableEq

def Frame.map {α β : Type} (f : α → β) (frame : Frame α) : Frame β :=
  ⟨frame.projection.map f, f frame.textureYScale, f frame.opacity⟩

/-- The kernel of a blur along one axis. -/
structure AxisKernel (α : Type) where
  /-- One texel along the axis, in texture coordinates. -/
  uvOffset : Vec2 α
  sigma : α
  radius : α
  step : α
deriving DecidableEq

def AxisKernel.map {α β : Type} (f : α → β) (k : AxisKernel α) : AxisKernel β :=
  ⟨k.uvOffset.map f, f k.sigma, f k.radius, f k.step⟩

instance {α : Type} [Scalar α] : Inhabited (AxisKernel α) := ⟨⟨default, 0, 0, 0⟩⟩

/-- How a stage is rendered. -/
structure Pass (α : Type) where
  label : String
  /-- The size of the target. -/
  size : Size
  pipeline : Pipeline
  primitive : Primitive
  vertices : Corners (Vertex α)
  frame : Frame α
  /-- The kernel, which only the blur pipelines read. -/
  kernel : Option (AxisKernel α)
  sampler : Sampler
deriving DecidableEq

/-- A stage together with the texture it reads. -/
structure Subpass (α τ : Type) extends Pass α where
  input : τ
deriving DecidableEq

/-- The frame of a quad that fills its target. -/
def Frame.unit {α : Type} [Scalar α] : Frame α := ⟨Matrix4.orthographic (Vec2.splat 1), 1, 1⟩

/-- The unit square with these texture coordinates. -/
def Quad.vertices {α : Type} [Scalar α] (uvs : Quad α) : Corners (Vertex α) :=
  Corners.map₂ Vertex.mk Quad.unit uvs

end SeparableBlur

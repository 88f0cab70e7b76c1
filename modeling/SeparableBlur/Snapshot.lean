-- SUMMARY: Placed textures, the objects they belong to, and how results are composited.
import SeparableBlur.Geometry.Matrix
import SeparableBlur.Sampler

/-!
# Snapshots

A `Snapshot` is a texture together with where it goes: a transform from its
pixels, the sampler it is read with and an opacity. An `Entity` is the scene
object that a blur is applied to, and an `Output` is a snapshot with the
compositing state of its entity.
-/

namespace SeparableBlur

/-- How a result is combined with what lies under it. -/
inductive BlendMode where
  | clear
  | source
  | destination
  | sourceOver
  | destinationOver
  | sourceIn
  | destinationIn
  | sourceOut
  | destinationOut
  | sourceATop
  | destinationATop
  | xor
  | plus
  | modulate
  | screen
  | overlay
  | darken
  | lighten
  | colorDodge
  | colorBurn
  | hardLight
  | softLight
  | difference
  | exclusion
  | multiply
deriving DecidableEq

instance : Inhabited BlendMode := ⟨.sourceOver⟩

/-- A scene object. -/
structure Entity (α : Type) where
  /-- From the object's own space to the screen. -/
  transform : Matrix4 α
  blendMode : BlendMode
  clipDepth : UInt32
deriving DecidableEq

instance {α : Type} [Scalar α] : Inhabited (Entity α) := ⟨⟨.identity, .sourceOver, 0⟩⟩

/-- A placed texture. -/
structure Snapshot (α τ : Type) where
  texture : τ
  /-- From the pixels of the texture to the space it is placed in. -/
  transform : Matrix4 α
  sampler : Sampler
  opacity : α
deriving DecidableEq

/-- A placed result and how it is composited. -/
structure Output (α τ : Type) extends Snapshot α τ where
  blendMode : BlendMode
  clipDepth : UInt32
deriving DecidableEq

/-- The snapshot, composited like the entity. -/
def Output.ofSnapshot {α τ : Type} (s : Snapshot α τ) (e : Entity α) : Output α τ :=
  ⟨s, e.blendMode, e.clipDepth⟩

end SeparableBlur

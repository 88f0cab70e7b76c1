-- SUMMARY: What a blur can read pixels from.
import SeparableBlur.Geometry.Rect
import SeparableBlur.Renderer
import SeparableBlur.Snapshot

/-!
# Inputs

A `FilterInput` is anything that can be blurred: a finished texture, the output of
another blur, or contents that are rendered when they are asked for.
-/

namespace SeparableBlur

/-- A source of pixels on a renderer with the state `σ` and the textures `τ`. -/
structure FilterInput (α σ τ : Type) [Scalar α] where
  /-- The placed texture, for a purpose named by the label. The rectangle is the region that
      is needed, if it is known. There may be nothing to draw. -/
  snapshot : String → Entity α → Option (Rect α) → Action α σ (Option (Snapshot α τ))
  /-- The bounds on the screen, if there are any. -/
  coverage : Entity α → Option (Rect α)
  /-- The placement before the entity's own transform. -/
  localTransform : Entity α → Matrix4 α
  /-- From the input to the screen. -/
  transform : Entity α → Matrix4 α := fun e => e.transform * localTransform e

namespace FilterInput

variable {α σ τ : Type} [Scalar α]

/-- A finished texture of the given size, placed by `placement`. -/
def ofTexture (texture : τ) (size : Size) (placement : Matrix4 α) : FilterInput α σ τ where
  snapshot _ entity _ := return some ⟨texture, entity.transform * placement, .linearClamp, 1⟩
  coverage entity := some ((Rect.ofSize size).transformBounds (entity.transform * placement))
  localTransform _ := placement

end FilterInput

end SeparableBlur

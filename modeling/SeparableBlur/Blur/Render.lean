-- SUMMARY: Rendering a blur on any renderer, and blurs as inputs of blurs.
import SeparableBlur.Blur.Plan

/-!
# Rendering

`Blur.render` asks its first input for a snapshot and renders the stages of the
plan one after the other. There is nothing to draw without an input, without a
snapshot or with an empty one, and a blur that is too weak to be visible hands
its snapshot on untouched.
-/

namespace SeparableBlur

variable {α σ τ : Type} [Scalar α]

/-- Does one stage, reading `texture`, and returns the texture for the next stage. -/
def Stage.run (r : SubpassRenderer α σ τ) (texture : τ) : Stage α → Action α σ τ
  | .draw pass => r.run ⟨pass, texture⟩
  | .skip label => do
    Action.emit (.skipped label)
    return texture

namespace Blur

/-- Renders the stages for a snapshot that has pixels to blur. -/
def renderStages (b : Blur α) (r : SubpassRenderer α σ τ) (placement : Matrix4 α)
    (snapshot : Snapshot α τ) : Action α σ (Snapshot α τ) := do
  let source : Source α := ⟨r.size snapshot.texture, placement, snapshot.sampler⟩
  let capabilities := r.capabilities (← Action.state)
  let target := b.target source.size
  Action.emit (.planned source.size b.extent.padding target.size target.achieved)
  let texture ← (b.stages capabilities source).foldlM (Stage.run r) snapshot.texture
  return ⟨texture, b.placement source.size snapshot.transform, .linearClamp, snapshot.opacity⟩

/-- Renders the blur of a snapshot, if there is anything to draw. -/
def renderSnapshot (b : Blur α) (r : SubpassRenderer α σ τ) (placement : Matrix4 α)
    (entity : Entity α) (snapshot : Snapshot α τ) : Action α σ (Option (Output α τ)) := do
  let size := r.size snapshot.texture
  if size.isEmpty then
    Action.emit (.emptySnapshot size)
    return none
  else if b.extent.isNoop then
    Action.emit .belowEpsilon
    return some (.ofSnapshot snapshot entity)
  else
    let blurred ← b.renderStages r placement snapshot
    return some (.ofSnapshot blurred entity)

/-- Renders the blur of the first input. Only the region `hint` will be drawn, if it is known. -/
def render (b : Blur α) (r : SubpassRenderer α σ τ) (inputs : List (FilterInput α σ τ))
    (entity : Entity α) (effect : Matrix4 α) (hint : Option (Rect α)) :
    Action α σ (Option (Output α τ)) := do
  match inputs with
  | [] => return none
  | input :: _ =>
    match ← input.snapshot "Gaussian Blur Snapshot" entity (b.inputLimit entity effect hint) with
    | none => return none
    | some snapshot => b.renderSnapshot r (input.localTransform entity) entity snapshot

end Blur

/-- The blur of some inputs, as an input of another blur. -/
def FilterInput.ofBlur (b : Blur α) (r : SubpassRenderer α σ τ) (effect : Matrix4 α)
    (inputs : List (FilterInput α σ τ)) : FilterInput α σ τ where
  snapshot _ entity limit := do
    let output ← b.render r inputs entity effect limit
    return output.map (·.toSnapshot)
  coverage entity := b.coverage inputs entity effect
  localTransform _ := .identity

end SeparableBlur

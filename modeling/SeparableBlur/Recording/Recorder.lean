-- SUMMARY: A renderer that renders nothing and writes down what it was asked for.
import SeparableBlur.Blur.Render

/-!
# The recorder

A `Recorder` stands in for a device. Its textures are `Picture`s, which have a
number and a size and no pixels. It keeps every stage it was given, and every
request that reached an input, and it can be told to refuse a stage.
-/

namespace SeparableBlur.Recording

/-- A texture without pixels. -/
structure Picture where
  id : Nat
  size : Size
deriving DecidableEq

/-- A stage and the picture that was returned for it. -/
structure StageRecord (α : Type) where
  subpass : Subpass α Picture
  output : Picture
deriving DecidableEq

/-- A request for a snapshot. -/
structure Request (α : Type) where
  label : String
  limit : Option (Rect α)
deriving DecidableEq

structure Recorder (α : Type) where
  capabilities : Capabilities := {}
  /-- The number of the next picture. -/
  nextId : Nat := 1
  /-- How many more stages are accepted before one is refused, if one is to be. -/
  acceptsBeforeRefusal : Option Nat := none
  stages : List (StageRecord α) := []
  requests : List (Request α) := []
deriving DecidableEq

namespace Recorder

variable {α : Type}

/-- A new picture. -/
def newPicture (r : Recorder α) (size : Size) : Picture × Recorder α :=
  (⟨r.nextId, size⟩, { r with nextId := r.nextId + 1 })

/-- Writes down a stage and returns a new picture for it. -/
def accept (r : Recorder α) (subpass : Subpass α Picture) : Picture × Recorder α :=
  let (picture, r) := r.newPicture subpass.size
  (picture, { r with stages := r.stages ++ [⟨subpass, picture⟩] })

def run (subpass : Subpass α Picture) : Action α (Recorder α) Picture := do
  let r ← Action.state
  match r.acceptsBeforeRefusal with
  | some 0 =>
    Action.setState { r with acceptsBeforeRefusal := none }
    throw (.subpassFailed subpass.label (.other "injected"))
  | count =>
    let (picture, r) := r.accept subpass
    Action.setState { r with acceptsBeforeRefusal := count.map (· - 1) }
    return picture

/-- The recorder as something to render blurs on. -/
def subpassRenderer : SubpassRenderer α (Recorder α) Picture where
  size := Picture.size
  capabilities := Recorder.capabilities
  run := run

/-- Writes down a request. -/
def request (label : String) (limit : Option (Rect α)) : Action α (Recorder α) Unit := do
  let r ← Action.state
  Action.setState { r with requests := r.requests ++ [⟨label, limit⟩] }

end Recorder

end SeparableBlur.Recording

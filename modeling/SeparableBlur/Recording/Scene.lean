-- SUMMARY: Scenes of described inputs, blurred on a recorder.
import SeparableBlur.Recording.Recorder

/-!
# Scenes

A scene is a recorder together with pictures that are kept under names. Inputs are
given by an `InputSpec`, which also describes inputs that answer in unusual ways
and blurs of other inputs. A `Command` asks one question about a blur or renders
one.
-/

namespace SeparableBlur.Recording

/-! ## Inputs -/

/-- A new picture, or one that is kept. -/
inductive PictureSpec where
  | fresh (size : Size)
  | named (name : String)

/-- How a scripted input answers a request for a snapshot. -/
inductive Answer where
  | picture
  | nothing
  | failure

/-- An input that answers as it is told. -/
structure Script (α : Type) where
  placement : Matrix4 α
  opacity : α
  sampler : Sampler
  answer : Answer
  /-- The placement of the snapshot, where it is not the one of the input. -/
  snapshotTransform : Option (Matrix4 α)
  /-- The bounds, where they are not those of the picture. -/
  coverage : Option (Option (Rect α))

/-- The description of an input. -/
inductive InputSpec (α : Type) where
  | texture (picture : PictureSpec) (placement : Matrix4 α)
  | scripted (picture : PictureSpec) (script : Script α)
  | blurred (blur : Blur α) (effect : Matrix4 α) (inputs : List (InputSpec α))

/-- Pictures that are kept under names. -/
abbrev Album := List (String × Picture)

/-- Making inputs, which may need new pictures and names that are kept. -/
abbrev Making (α : Type) := StateT (Recorder α) (Except String)

variable {α : Type} [Scalar α]

def PictureSpec.make (album : Album) : PictureSpec → Making α Picture
  | .fresh size => modifyGet (·.newPicture size)
  | .named name =>
    match album.lookup name with
    | some picture => return picture
    | none => throw name

/-- The scripted input with this picture. -/
def Script.input (s : Script α) (picture : Picture) : FilterInput α (Recorder α) Picture where
  snapshot label entity limit := do
    Recorder.request label limit
    match s.answer with
    | .nothing => return none
    | .failure => throw (.readbackFailed (.other "input failed"))
    | .picture =>
      let transform := s.snapshotTransform.getD (entity.transform * s.placement)
      return some ⟨picture, transform, s.sampler, s.opacity⟩
  coverage entity :=
    match s.coverage with
    | some bounds => bounds
    | none => some ((Rect.ofSize picture.size).transformBounds (entity.transform * s.placement))
  localTransform _ := s.placement

namespace InputSpec

mutual

/-- Makes the input, inner ones first. -/
def make (album : Album) : InputSpec α → Making α (FilterInput α (Recorder α) Picture)
  | .texture spec placement => do
    let picture ← spec.make album
    return .ofTexture picture picture.size placement
  | .scripted spec script => do
    let picture ← spec.make album
    return script.input picture
  | .blurred blur effect specs => do
    let inputs ← makeAll album specs
    return .ofBlur blur Recorder.subpassRenderer effect inputs

/-- Makes the inputs in order. -/
def makeAll (album : Album) :
    List (InputSpec α) → Making α (List (FilterInput α (Recorder α) Picture))
  | [] => return []
  | spec :: specs => do
    let input ← spec.make album
    let inputs ← makeAll album specs
    return input :: inputs

end

mutual

/-- What is logged when the blurs of the input are made, outer before inner. -/
def warnings : InputSpec α → List (Event α)
  | .texture .. | .scripted .. => []
  | .blurred blur _ specs => blur.warnings ++ warningsAll specs

/-- What is logged when the blurs of the inputs are made. -/
def warningsAll : List (InputSpec α) → List (Event α)
  | [] => []
  | spec :: specs => spec.warnings ++ warningsAll specs

end

end InputSpec

/-! ## Commands -/

structure Scene (α : Type) where
  recorder : Recorder α := {}
  album : Album := []

inductive Command (α : Type) where
  | newPicture (name : String) (size : Size)
  /-- Refuses a stage after this many more. -/
  | refuseAfter (count : Nat)
  | setCapabilities (capabilities : Capabilities)
  | sourceCoverage (blur : Blur α) (effect : Matrix4 α) (limit : Rect α)
  | coverage (blur : Blur α) (inputs : List (InputSpec α)) (entity : Entity α) (effect : Matrix4 α)
  /-- Asks an input where it is, and for the texture coordinates of an image it places. -/
  | inspect (input : InputSpec α) (entity : Entity α) (image : Option Size)
  | render (blur : Blur α) (inputs : List (InputSpec α)) (entity : Entity α) (effect : Matrix4 α)
      (hint : Option (Rect α)) (name : Option String)

/-- Where an input is. -/
structure Location (α : Type) where
  coverage : Option (Rect α)
  transform : Matrix4 α
  localTransform : Matrix4 α
  textureCoords : Option (Quad α)

/-- What came of rendering, with what the recorder wrote down meanwhile. -/
structure Rendering (α : Type) where
  result : Except RenderError (Option (Output α Picture))
  stages : List (StageRecord α)
  requests : List (Request α)

inductive Reply (α : Type) where
  | picture (picture : Picture)
  | done
  | region (region : Option (Rect α))
  | location (location : Location α)
  | rendering (rendering : Rendering α)
  /-- The command names a picture that is not kept. -/
  | unknown (name : String)

namespace Scene

/-- Makes inputs and goes on with them. -/
def withInputs {β : Type} (s : Scene α) (making : Making α β)
    (next : Scene α → β → Scene α × Reply α × List (Event α)) :
    Scene α × Reply α × List (Event α) :=
  match making.run s.recorder with
  | .ok (inputs, recorder) => next { s with recorder } inputs
  | .error name => (s, .unknown name, [])

/-- Renders a blur of some inputs. -/
def render (s : Scene α) (blur : Blur α) (inputs : List (FilterInput α (Recorder α) Picture))
    (entity : Entity α) (effect : Matrix4 α) (hint : Option (Rect α)) (name : Option String) :
    Scene α × Rendering α × List (Event α) :=
  let (result, after) :=
    (blur.render Recorder.subpassRenderer inputs entity effect hint).start
      { s.recorder with stages := [], requests := [] }
  let album := match name, result with
    | some name, .ok (some output) => (name, output.texture) :: s.album
    | _, _ => s.album
  (⟨after.state, album⟩, ⟨result, after.state.stages, after.state.requests⟩, after.log)

def step (s : Scene α) : Command α → Scene α × Reply α × List (Event α)
  | .newPicture name size =>
    let (picture, recorder) := s.recorder.newPicture size
    (⟨recorder, (name, picture) :: s.album⟩, .picture picture, [])
  | .refuseAfter count =>
    ({ s with recorder := { s.recorder with acceptsBeforeRefusal := some count } }, .done, [])
  | .setCapabilities capabilities =>
    ({ s with recorder := { s.recorder with capabilities } }, .done, [])
  | .sourceCoverage blur effect limit =>
    (s, .region (blur.sourceCoverage effect limit), blur.warnings)
  | .coverage blur specs entity effect =>
    s.withInputs (InputSpec.makeAll s.album specs) fun s inputs =>
      (s, .region (blur.coverage inputs entity effect), blur.warnings ++ InputSpec.warningsAll specs)
  | .inspect spec entity image =>
    s.withInputs (spec.make s.album) fun s input =>
      let placement := input.localTransform entity
      (s, .location ⟨input.coverage entity, input.transform entity, placement,
        image.map (·.textureCoords placement)⟩, spec.warnings)
  | .render blur specs entity effect hint name =>
    s.withInputs (InputSpec.makeAll s.album specs) fun s inputs =>
      let (s, rendering, log) := s.render blur inputs entity effect hint name
      (s, .rendering rendering, blur.warnings ++ InputSpec.warningsAll specs ++ log)

end Scene

end SeparableBlur.Recording

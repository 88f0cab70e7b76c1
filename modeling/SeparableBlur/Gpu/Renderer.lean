-- SUMMARY: The renderer on a device: checks, targets, caches, uploads and readback.
import SeparableBlur.Gpu.Bindings
import SeparableBlur.Gpu.Pool
import SeparableBlur.Gpu.Readback
import SeparableBlur.Gpu.Uniform
import SeparableBlur.Renderer

/-!
# The device renderer

A stage is checked before anything else happens. An accepted one takes a target
from the pool, binds its input, gets its pipeline from the cache and becomes a
`Draw`, which is all that the device is told. A rejected one leaves no trace.

The work of a renderer is an action on a `Host`: the renderer together with the
counter of identities, which it shares with all others.
-/

namespace SeparableBlur.Gpu

/-! ## State -/

structure RendererSettings where
  /-- The format of every target. -/
  format : TextureFormat := .rgba8Unorm
  /-- What the labels of device objects start with. -/
  labelPrefix : Option String := none
  /-- How many frames a free target is kept. -/
  maxIdleFrames : UInt32 := 3
deriving DecidableEq

instance : Inhabited RendererSettings := ⟨{}⟩

/-- What a pipeline is compiled for. -/
structure PipelineKey where
  pipeline : Pipeline
  primitive : Primitive
  format : TextureFormat
deriving DecidableEq

/-- A renderer on a device. -/
structure Renderer where
  settings : RendererSettings
  capabilities : Capabilities
  /-- The largest width or height of a texture. -/
  maxDimension : UInt32
  pool : Pool := {}
  bindings : Bindings := {}
  /-- The pipelines that were compiled, in order. -/
  pipelines : List PipelineKey := []
deriving DecidableEq

/-- A renderer and the counter that identities are drawn from. -/
structure Host where
  ids : Identities
  renderer : Renderer
deriving DecidableEq

/-- One quad to draw, as the device is told. -/
structure Draw where
  label : String
  target : Texture
  pipeline : PipelineKey
  binding : Binding
  uniforms : List (List UInt8)
  vertices : List UInt8
deriving DecidableEq

/-- Work on a host. -/
abbrev Work := Action Binary32 Host

namespace Renderer

/-- A label with the prefix that tells renderers apart. -/
def label (r : Renderer) (text : String) : String :=
  match r.settings.labelPrefix with
  | some start => start ++ " " ++ text
  | none => text

/-- Why the pass cannot be rendered, if it cannot: the first of an empty target, a target that
    is too large, and a missing kernel. -/
def refusal? (r : Renderer) (pass : Pass Binary32) : Option RenderError :=
  if pass.size.isEmpty then some (.emptyTarget pass.label pass.size)
  else if r.maxDimension < pass.size.width ∨ r.maxDimension < pass.size.height then
    some (.subpassFailed pass.label (.exceedsLimit pass.size r.maxDimension))
  else if pass.pipeline ≠ .fill ∧ pass.kernel.isNone then
    some (.subpassFailed pass.label .missingKernel)
  else none

/-- What a target for a stage of this size must be like. -/
def targetKey (r : Renderer) (size : Size) : TextureKey := ⟨size, r.settings.format, .target⟩

/-- Forgets the bindings of the frame. -/
def unbind (r : Renderer) : Renderer := { r with bindings := r.bindings.endFrame }

/-- Returns the targets that are not held to the pool, and destroys those that were free for too
    long. -/
def reclaim (r : Renderer) (held : Texture → Bool) : Renderer :=
  { r with pool := (r.pool.reset held).trim r.settings.maxIdleFrames }

end Renderer

namespace Host

/-- A renderer on a new device. An identity goes to the layout that its bindings share. -/
def create (ids : Identities) (settings : RendererSettings) (capabilities : Capabilities)
    (maxDimension : UInt32) : Host × List (Event Binary32) :=
  (⟨ids.draw.2, { settings, capabilities, maxDimension }⟩, [.capabilities capabilities])

/-! ## Stages -/

/-- Takes a target from the pool. -/
def takeTarget (label : String) (key : TextureKey) : Work Texture := do
  let host ← Action.state
  let a := host.renderer.pool.allocate host.ids key
  Action.setState ⟨a.ids, { host.renderer with pool := a.pool }⟩
  if a.created then
    Action.emit (.creating label key.size)
  return a.texture

/-- Binds the input of a stage. -/
def bindInput (texture : Texture) (sampler : Sampler) : Work Binding := do
  let host ← Action.state
  let (binding, bindings, ids) := host.renderer.bindings.bind host.ids texture sampler
  Action.setState ⟨ids, { host.renderer with bindings }⟩
  return binding

/-- Gets a pipeline, which is compiled on first request. -/
def getPipeline (key : PipelineKey) : Work Unit := do
  let host ← Action.state
  if key ∈ host.renderer.pipelines then
    return ()
  else
    Action.emit (.compiling key.pipeline key.primitive key.format)
    Action.setState
      { host with renderer := { host.renderer with pipelines := host.renderer.pipelines ++ [key] } }

/-- The uniforms of a pass. The kernel is sent to the programs that read it. -/
def uniforms (pass : Pass Binary32) : List (List UInt8) :=
  let frame := (pass.frame.map Binary32.word).bytes
  match pass.pipeline, pass.kernel with
  | .fill, _ | _, none => [frame]
  | _, some kernel => [frame, (kernel.map Binary32.word).bytes]

/-- Makes everything ready that a stage needs. -/
def prepare (subpass : Subpass Binary32 Texture) : Work Draw := do
  let renderer := (← Action.state).renderer
  if let some refusal := renderer.refusal? subpass.toPass then
    throw refusal
  Action.emit (.rendering subpass.label subpass.pipeline subpass.size)
  let label := renderer.label subpass.label
  let target ← takeTarget label (renderer.targetKey subpass.size)
  let binding ← bindInput subpass.input subpass.sampler
  let pipeline : PipelineKey := ⟨subpass.pipeline, subpass.primitive, renderer.settings.format⟩
  getPipeline pipeline
  return { label, target, pipeline, binding
           uniforms := uniforms subpass.toPass
           vertices := subpass.vertices.toList.flatMap fun v => (v.map Binary32.word).bytes }

/-- Renders a stage and returns its target. -/
def runSubpass (subpass : Subpass Binary32 Texture) : Work Texture := do
  let draw ← prepare subpass
  return draw.target

/-! ## Textures from and to outside -/

/-- A texture that was made elsewhere. -/
def importTexture (key : TextureKey) : Work Texture := do
  let host ← Action.state
  let (texture, ids) := Texture.create key host.ids
  Action.setState { host with ids }
  return texture

/-- The number of bytes of an image with four bytes a pixel, in a 64-bit word. -/
def uploadBytes (size : Size) : UInt64 := size.width.toUInt64 * size.height.toUInt64 * 4

/-- A new texture with these pixels. -/
def upload (size : Size) (pixels : ByteArray) : Work Texture := do
  if size.isEmpty then
    throw (.emptyTarget "Upload" size)
  else if pixels.size ≠ (uploadBytes size).toNat then
    throw (.subpassFailed "Upload" (.wrongLength (uploadBytes size) size pixels.size))
  else
    importTexture ⟨size, .rgba8Unorm, .upload⟩

/-- The pixels of a texture. The device copies them into a buffer with padded rows first;
    `copied` is what it puts there. -/
def readPixels (texture : Texture) (copied : Texture → ByteArray) : Except RenderError ByteArray :=
  if texture.format.isRgba8 then .ok (Readback.pixels texture.size (copied texture))
  else .error (.readbackFailed (.format texture.format))

end Host

/-- The device renderer as something to render blurs on. -/
def Host.subpassRenderer : SubpassRenderer Binary32 Host Texture where
  size := Texture.size
  capabilities host := host.renderer.capabilities
  run := Host.runSubpass

end SeparableBlur.Gpu

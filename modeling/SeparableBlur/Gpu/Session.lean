-- SUMMARY: Runs of a device renderer and of a pool, with textures kept under names.
import SeparableBlur.Blur.Render
import SeparableBlur.Gpu.Renderer

/-!
# Sessions

A session is a renderer together with the textures that are kept outside it. A
`Command` does one thing with it: it renders, makes a texture, or lets one go. A
texture that a command returns and that is given no name is let go at once.

Outside the pool, `Session.references` are all the textures that a session has to do
with. The end of a frame frees the targets that are not among them.

`PoolSession` is the same for a pool on its own.
-/

namespace SeparableBlur.Gpu

/-! ## Renderer sessions -/

structure Session where
  host : Host
  handles : Handles := {}
deriving DecidableEq

/-- A kept texture with its placement, as an input of a blur. -/
structure NamedInput where
  name : String
  placement : Matrix4 Binary32

inductive Command where
  | upload (size : Size) (pixels : ByteArray) (name : Option String)
  | importTexture (key : TextureKey) (name : Option String)
  | subpass (input : String) (pass : Pass Binary32) (name : Option String)
  | render (blur : Blur Binary32) (inputs : List NamedInput) (entity : Entity Binary32)
      (effect : Matrix4 Binary32) (hint : Option (Rect Binary32)) (name : Option String)
  /-- Asks which region a blur covers. -/
  | coverage (blur : Blur Binary32) (inputs : List NamedInput) (entity : Entity Binary32)
      (effect : Matrix4 Binary32)
  /-- Keeps a texture under a second name. -/
  | copy (source : String) (name : String)
  | drop (name : String)
  | read (name : String)
  | endFrame

/-- What a command comes to. -/
inductive Reply where
  | texture (texture : Texture)
  | output (output : Option (Output Binary32 Texture))
  | region (region : Option (Rect Binary32))
  | pixels (pixels : ByteArray)
  | dropped (existed : Bool)
  | done
  | failed (error : RenderError)
  /-- The command names a texture that is not kept. -/
  | unknown (name : String)

namespace Session

/-- A session with a new renderer. -/
def create (settings : RendererSettings) (capabilities : Capabilities) (maxDimension : UInt32) :
    Session × List (Event Binary32) :=
  let (host, log) := Host.create {} settings capabilities maxDimension
  ({ host }, log)

/-- The inputs that the names stand for, or the first name that stands for nothing. -/
def inputs (s : Session) (named : List NamedInput) :
    Except String (List (FilterInput Binary32 Host Texture)) :=
  named.mapM fun n =>
    match s.handles.find? n.name with
    | some t => .ok (.ofTexture t t.size n.placement)
    | none => .error n.name

/-- Does work on the renderer. What it comes to is kept under a name if there is something to
    keep and a name for it. -/
def perform {β : Type} (s : Session) (work : Work β) (name : Option String)
    (kept : β → Option Texture) (reply : β → Reply) : Session × Reply × List (Event Binary32) :=
  match work.start s.host with
  | (.ok b, after) =>
    let handles := match kept b with
      | some t => s.handles.keep? name t
      | none => s.handles
    (⟨after.state, handles⟩, reply b, after.log)
  | (.error e, after) => (⟨after.state, s.handles⟩, .failed e, after.log)

/-- All textures that the session refers to outside of the pool: those that are bound and those
    that are kept. -/
def references (s : Session) : List Texture :=
  s.host.renderer.bindings.textures ++ s.handles.textures

/-- Whether the session refers to the texture outside of the pool. -/
def refersTo (s : Session) (t : Texture) : Bool := s.references.any (·.id == t.id)

/-- Ends the frame. The bindings go first, so that none of them holds a target back. -/
def endFrame (s : Session) : Session :=
  let unbound : Session := { s with host := { s.host with renderer := s.host.renderer.unbind } }
  let renderer := unbound.host.renderer.reclaim unbound.refersTo
  { unbound with host := { unbound.host with renderer } }

/-- What a device that draws nothing copies out of a texture. -/
def blank (t : Texture) : ByteArray :=
  ⟨Array.replicate (Readback.bufferBytes t.size).toNat 0⟩

def step (s : Session) : Command → Session × Reply × List (Event Binary32)
  | .upload size pixels name => s.perform (Host.upload size pixels) name some .texture
  | .importTexture key name => s.perform (Host.importTexture key) name some .texture
  | .subpass input pass name =>
    match s.handles.find? input with
    | some texture => s.perform (Host.runSubpass ⟨pass, texture⟩) name some .texture
    | none => (s, .unknown input, [])
  | .render blur named entity effect hint name =>
    match s.inputs named with
    | .ok inputs =>
      let work : Work (Option (Output Binary32 Texture)) := do
        blur.warnings.forM Action.emit
        blur.render Host.subpassRenderer inputs entity effect hint
      s.perform work name (Option.map (·.texture)) .output
    | .error name => (s, .unknown name, [])
  | .coverage blur named entity effect =>
    match s.inputs named with
    | .ok inputs => (s, .region (blur.coverage inputs entity effect), blur.warnings)
    | .error name => (s, .unknown name, [])
  | .copy source name =>
    match s.handles.find? source with
    | some texture => ({ s with handles := s.handles.keep name texture }, .done, [])
    | none => (s, .unknown source, [])
  | .drop name =>
    ({ s with handles := s.handles.drop name }, .dropped (s.handles.find? name).isSome, [])
  | .read name =>
    match s.handles.find? name with
    | some texture =>
      match Host.readPixels texture blank with
      | .ok pixels => (s, .pixels pixels, [])
      | .error e => (s, .failed e, [])
    | none => (s, .unknown name, [])
  | .endFrame => (s.endFrame, .done, [])

/-- The session after some commands. -/
def run (s : Session) (commands : List Command) : Session :=
  commands.foldl (fun s c => (s.step c).1) s

end Session

/-! ## Pool sessions -/

structure PoolSession where
  pool : Pool := {}
  ids : Identities := {}
  handles : Handles := {}
deriving DecidableEq, Inhabited

inductive PoolCommand where
  | allocate (key : TextureKey) (label : String) (name : Option String)
  /-- Keeps a texture under a second name. -/
  | copy (source : String) (name : String)
  | drop (name : String)
  | reset
  | trim (limit : UInt32)

namespace PoolSession

def step (s : PoolSession) : PoolCommand → PoolSession × Reply × List (Event Binary32)
  | .allocate key label name =>
    let a := s.pool.allocate s.ids key
    let log := if a.created then [.creating label key.size] else []
    (⟨a.pool, a.ids, s.handles.keep? name a.texture⟩, .texture a.texture, log)
  | .copy source name =>
    match s.handles.find? source with
    | some texture => ({ s with handles := s.handles.keep name texture }, .done, [])
    | none => (s, .unknown source, [])
  | .drop name =>
    ({ s with handles := s.handles.drop name }, .dropped (s.handles.find? name).isSome, [])
  | .reset => ({ s with pool := s.pool.reset s.handles.holds }, .done, [])
  | .trim limit => ({ s with pool := s.pool.trim limit }, .done, [])

/-- The session after some commands. -/
def run (s : PoolSession) (commands : List PoolCommand) : PoolSession :=
  commands.foldl (fun s c => (s.step c).1) s

end PoolSession

end SeparableBlur.Gpu

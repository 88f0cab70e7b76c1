-- SUMMARY: Several device renderers that draw identities from one counter.
import SeparableBlur.Gpu.Session

/-!
# Fleets

Renderers work independently of each other, but all draw their identities from one
counter, and a texture that is kept outside may come from any of them.
-/

namespace SeparableBlur.Gpu

structure Fleet where
  ids : Identities := {}
  renderers : List Renderer := []
  handles : Handles := {}
deriving DecidableEq, Inhabited

inductive FleetCommand where
  | create (settings : RendererSettings) (capabilities : Capabilities) (maxDimension : UInt32)
  /-- Lets a renderer go with all that it has made. -/
  | discard (index : Nat)
  /-- Does something with one of the renderers. -/
  | on (index : Nat) (command : Command)
  /-- Draws an identity for something outside the renderers. -/
  | draw

namespace Fleet

/-- One of the renderers, with the counter and the textures that are kept. -/
def session? (f : Fleet) (index : Nat) : Option Session :=
  f.renderers[index]?.map fun renderer => ⟨⟨f.ids, renderer⟩, f.handles⟩

def step (f : Fleet) : FleetCommand → Fleet
  | .create settings capabilities maxDimension =>
    let (host, _) := Host.create f.ids settings capabilities maxDimension
    { f with ids := host.ids, renderers := f.renderers ++ [host.renderer] }
  | .discard index => { f with renderers := f.renderers.eraseIdx index }
  | .on index command =>
    match f.session? index with
    | some s =>
      let (after, _) := s.step command
      ⟨after.host.ids, f.renderers.set index after.host.renderer, after.handles⟩
    | none => f
  | .draw => { f with ids := f.ids.draw.2 }

/-- The fleet after some commands. -/
def run (f : Fleet) (commands : List FleetCommand) : Fleet := commands.foldl step f

end Fleet

end SeparableBlur.Gpu

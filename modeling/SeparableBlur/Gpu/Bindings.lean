-- SUMMARY: The caches of samplers and of texture bindings.
import SeparableBlur.Gpu.Texture
import SeparableBlur.Sampler

/-!
# Texture bindings

A stage reads its input through a binding of a texture and a sampler. Samplers
are made once for each description and kept. Bindings are kept until the end of
the frame, under the identities of what they bind, so a binding is found again
without comparing device objects.
-/

namespace SeparableBlur.Gpu

/-- A sampler on the device. -/
structure SamplerObject where
  id : Nat
  descriptor : Sampler
deriving DecidableEq

/-- A texture bound together with the sampler it is read with. -/
structure Binding where
  texture : Texture
  sampler : SamplerObject
deriving DecidableEq

/-- The identities of a bound texture and its sampler. -/
abbrev BindingKey := Nat × Nat

/-- What has been made so far. -/
structure Bindings where
  samplers : List SamplerObject := []
  cached : List (BindingKey × Binding) := []
deriving DecidableEq, Inhabited

namespace Bindings

/-- The sampler with this description, made on first request. -/
def sampler (b : Bindings) (ids : Identities) (descriptor : Sampler) :
    SamplerObject × Bindings × Identities :=
  match b.samplers.find? (·.descriptor = descriptor) with
  | some s => (s, b, ids)
  | none =>
    let (id, ids) := ids.draw
    let s : SamplerObject := ⟨id, descriptor⟩
    (s, { b with samplers := b.samplers ++ [s] }, ids)

/-- The binding of the texture and the sampler with this description, made on first request
    in a frame. -/
def bind (b : Bindings) (ids : Identities) (texture : Texture) (descriptor : Sampler) :
    Binding × Bindings × Identities :=
  let (s, b, ids) := b.sampler ids descriptor
  match b.cached.lookup (texture.id, s.id) with
  | some binding => (binding, b, ids)
  | none =>
    let binding : Binding := ⟨texture, s⟩
    (binding, { b with cached := ((texture.id, s.id), binding) :: b.cached }, ids)

/-- The textures that are bound. -/
def textures (b : Bindings) : List Texture := b.cached.map (·.2.texture)

/-- Forgets the bindings and keeps the samplers. -/
def endFrame (b : Bindings) : Bindings := { b with cached := [] }

end Bindings

end SeparableBlur.Gpu

-- SUMMARY: Device textures, their identities, and named handles to them.
import SeparableBlur.Geometry.Vec
import SeparableBlur.Gpu.Format

/-!
# Textures

A texture is an object on the device. What tells two textures with the same size
and format apart is an identity, a number that was drawn for it when it was made
and is never drawn again.

Whoever was handed a texture may keep it. `Handles` are the textures that are
kept under names outside the renderer, and `Handles.holds` says whether one of
them is a given texture.
-/

namespace SeparableBlur.Gpu

/-! ## Identities -/

/-- The counter that identities are drawn from. Every renderer draws from the same one. -/
structure Identities where
  next : Nat := 1
deriving DecidableEq

instance : Inhabited Identities := ⟨{}⟩

/-- A fresh identity, and the counter after it. -/
def Identities.draw (ids : Identities) : Nat × Identities := (ids.next, ⟨ids.next + 1⟩)

/-! ## Textures -/

/-- What textures must agree on to stand in for each other. -/
structure TextureKey where
  size : Size
  format : TextureFormat
  usage : Usage
deriving DecidableEq

/-- A texture on the device. -/
structure Texture where
  id : Nat
  size : Size
  format : TextureFormat
  usage : Usage
deriving DecidableEq

namespace Texture

def key (t : Texture) : TextureKey := ⟨t.size, t.format, t.usage⟩

/-- A new texture, and the counter after its identity was drawn. -/
def create (key : TextureKey) (ids : Identities) : Texture × Identities :=
  let (id, ids) := ids.draw
  (⟨id, key.size, key.format, key.usage⟩, ids)

end Texture

/-! ## Handles -/

/-- The textures that are kept outside, each under a name. -/
structure Handles where
  entries : List (String × Texture) := []
deriving DecidableEq, Inhabited

namespace Handles

/-- The texture with this name. -/
def find? (h : Handles) (name : String) : Option Texture := h.entries.lookup name

/-- Forgets a name. -/
def drop (h : Handles) (name : String) : Handles := ⟨h.entries.filter (·.1 ≠ name)⟩

/-- Keeps a texture under a name, in place of what was kept there. -/
def keep (h : Handles) (name : String) (t : Texture) : Handles :=
  ⟨(name, t) :: (h.drop name).entries⟩

/-- Keeps a texture if there is a name for it. -/
def keep? (h : Handles) (name : Option String) (t : Texture) : Handles :=
  match name with
  | some name => h.keep name t
  | none => h

/-- The textures that are kept. -/
def textures (h : Handles) : List Texture := h.entries.map (·.2)

/-- Whether the texture is kept under some name. -/
def holds (h : Handles) (t : Texture) : Bool := h.textures.any (·.id == t.id)

end Handles

end SeparableBlur.Gpu

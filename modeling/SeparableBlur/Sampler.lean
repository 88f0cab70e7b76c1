-- SUMMARY: How a texture is read: tiling, filtering and addressing.

/-!
# Samplers

A `Sampler` says how texels are combined and what is read outside a texture. A
`TileMode` is the policy that a blur asks for; it becomes an address mode, and
reading transparent black outside the texture needs a device that can do it.
-/

namespace SeparableBlur

/-- What a blur sees beyond the edges of its source. -/
inductive TileMode where
  /-- The texel at the edge, repeated. -/
  | clamp
  /-- The opposite edge. -/
  | wrap
  /-- The reflection at the edge. -/
  | mirror
  /-- Transparent black. -/
  | decal
deriving DecidableEq

instance : Inhabited TileMode := ⟨.decal⟩

/-- How the texels around a position are combined. -/
inductive TexelFilter where
  | nearest
  | linear
deriving DecidableEq, Inhabited

/-- What is read outside a texture along one axis. -/
inductive AddressMode where
  | clampToEdge
  | wrap
  | mirror
  /-- Transparent black, on devices that can. -/
  | decal
deriving DecidableEq, Inhabited

/-- The features of a device that the passes are planned by. -/
structure Capabilities where
  /-- Samplers can read transparent black outside a texture. -/
  decalAddressing : Bool := false
deriving DecidableEq, Inhabited

/-- The complete state of a sampler. -/
structure Sampler where
  minFilter : TexelFilter
  magFilter : TexelFilter
  widthMode : AddressMode
  heightMode : AddressMode
deriving DecidableEq, Inhabited

namespace Sampler

/-- The same filter and the same addressing throughout. -/
def uniform (filter : TexelFilter) (mode : AddressMode) : Sampler := ⟨filter, filter, mode, mode⟩

/-- Linear filtering, clamped to the edges. -/
def linearClamp : Sampler := uniform .linear .clampToEdge

def withFilter (s : Sampler) (filter : TexelFilter) : Sampler :=
  { s with minFilter := filter, magFilter := filter }

def withAddressMode (s : Sampler) (mode : AddressMode) : Sampler :=
  { s with widthMode := mode, heightMode := mode }

end Sampler

/-- The address mode for a tile mode. A device without decal addressing clamps instead. -/
def TileMode.addressMode (capabilities : Capabilities) : TileMode → AddressMode
  | .clamp => .clampToEdge
  | .wrap => .wrap
  | .mirror => .mirror
  | .decal => if capabilities.decalAddressing then .decal else .clampToEdge

/-- The sampler with both axes addressed for the tile mode. -/
def Sampler.withTileMode (s : Sampler) (mode : TileMode) (capabilities : Capabilities) : Sampler :=
  s.withAddressMode (mode.addressMode capabilities)

end SeparableBlur

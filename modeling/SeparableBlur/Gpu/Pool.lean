-- SUMMARY: The pool that render targets are taken from and return to.
import SeparableBlur.Gpu.Texture

/-!
# The texture pool

Every stage asks for a fresh target. The pool hands out a free texture with the
right key if it has one, and a new one otherwise. At the end of a frame the
active textures that nobody outside the pool holds become free, and free ones
that were not wanted for a while are destroyed.

The free textures of one key form a bucket. Textures enter it at the back and
are taken from the back, so those at the front have been free the longest.
-/

namespace SeparableBlur.Gpu

/-! ## Buckets -/

/-- A free texture, and how many frames it has been free. -/
structure IdleTexture where
  texture : Texture
  frames : UInt32
deriving DecidableEq

/-- The free textures of one key. -/
structure Bucket where
  key : TextureKey
  idle : List IdleTexture
deriving DecidableEq

namespace Bucket

/-- The free textures of the key. -/
def find (buckets : List Bucket) (key : TextureKey) : List IdleTexture :=
  match buckets.find? (·.key = key) with
  | some bucket => bucket.idle
  | none => []

/-- Replaces the free textures of the key, in a new bucket if there is none for it. -/
def update (key : TextureKey) (f : List IdleTexture → List IdleTexture) :
    List Bucket → List Bucket
  | [] => [⟨key, f []⟩]
  | bucket :: rest =>
    if bucket.key = key then ⟨key, f bucket.idle⟩ :: rest else bucket :: update key f rest

/-- Puts a texture at the back of its bucket. -/
def release (buckets : List Bucket) (t : Texture) : List Bucket :=
  update t.key (· ++ [⟨t, 0⟩]) buckets

/-- One more frame for every free texture; those past the limit are destroyed. -/
def age (limit : UInt32) (bucket : Bucket) : Bucket :=
  { bucket with
    idle := (bucket.idle.map fun t => { t with frames := t.frames + 1 }).filter (·.frames ≤ limit) }

end Bucket

/-! ## The pool -/

structure Pool where
  /-- The textures that were handed out and not yet released. -/
  active : List Texture := []
  free : List Bucket := []
deriving DecidableEq, Inhabited

/-- What came of a request for a texture. -/
structure Allocation where
  texture : Texture
  /-- Whether the texture had to be created. -/
  created : Bool
  pool : Pool
  ids : Identities
deriving DecidableEq

namespace Pool

/-- Hands out a texture with this key: the one freed last, or a new one. -/
def allocate (p : Pool) (ids : Identities) (key : TextureKey) : Allocation :=
  match (Bucket.find p.free key).getLast? with
  | some idle =>
    { texture := idle.texture, created := false, ids := ids
      pool := ⟨p.active ++ [idle.texture], Bucket.update key List.dropLast p.free⟩ }
  | none =>
    let (texture, ids) := Texture.create key ids
    { texture := texture, created := true, ids := ids, pool := { p with active := p.active ++ [texture] } }

/-- Frees every active texture that is not held outside. -/
def reset (p : Pool) (held : Texture → Bool) : Pool :=
  ⟨p.active.filter held, (p.active.filter (!held ·)).foldl Bucket.release p.free⟩

/-- Destroys the free textures that have been free for more than `limit` calls. -/
def trim (p : Pool) (limit : UInt32) : Pool :=
  { p with free := (p.free.map (Bucket.age limit)).filter (!·.idle.isEmpty) }

/-- The number of textures that are handed out. -/
def activeCount (p : Pool) : Nat := p.active.length

/-- The number of textures that are free. -/
def freeCount (p : Pool) : Nat := (p.free.flatMap (·.idle)).length

/-- The number of textures in the pool. -/
def totalCount (p : Pool) : Nat := p.activeCount + p.freeCount

end Pool

end SeparableBlur.Gpu

-- SUMMARY: Texture formats and usages.

/-!
# Texture formats and usages
-/

namespace SeparableBlur.Gpu

/-- The layout of a texel. -/
inductive TextureFormat where
  | rgba8Unorm
  | rgba8UnormSrgb
  | bgra8Unorm
  | bgra8UnormSrgb
  | rgba16Float
  | r8Unorm
  | rg8Unorm
deriving DecidableEq, Inhabited

namespace TextureFormat

def name : TextureFormat → String
  | rgba8Unorm => "Rgba8Unorm"
  | rgba8UnormSrgb => "Rgba8UnormSrgb"
  | bgra8Unorm => "Bgra8Unorm"
  | bgra8UnormSrgb => "Bgra8UnormSrgb"
  | rgba16Float => "Rgba16Float"
  | r8Unorm => "R8Unorm"
  | rg8Unorm => "Rg8Unorm"

/-- Whether a texel is four bytes: red, green, blue and alpha. -/
def isRgba8 : TextureFormat → Bool
  | rgba8Unorm | rgba8UnormSrgb => true
  | _ => false

end TextureFormat

/-- What a texture may be used for. -/
structure Usage where
  renderAttachment : Bool := false
  textureBinding : Bool := false
  copySource : Bool := false
  copyTarget : Bool := false
deriving DecidableEq

namespace Usage

/-- Targets are rendered to, sampled and read back. -/
def target : Usage := { renderAttachment := true, textureBinding := true, copySource := true }

/-- Uploads are targets that may also be written by a copy. -/
def upload : Usage := { target with copyTarget := true }

end Usage

end SeparableBlur.Gpu

-- SUMMARY: What can go wrong while rendering, and the messages for it.
import SeparableBlur.Gpu.Format
import SeparableBlur.Text.Message

/-!
# Rendering errors

Each error is a cause; `RenderError.message` gives the wording.
-/

namespace SeparableBlur

/-- Why a stage could not be rendered. -/
inductive SubpassFailure where
  /-- The target is larger than the device allows. -/
  | exceedsLimit (target : Size) (limit : UInt32)
  /-- A blur pipeline was given no kernel. -/
  | missingKernel
  /-- The pixel data has the wrong length for its size. -/
  | wrongLength (expected : UInt64) (size : Size) (length : Nat)
  | other (reason : String)
deriving DecidableEq

/-- Why a texture could not be read back. -/
inductive ReadbackFailure where
  | format (format : Gpu.TextureFormat)
  | other (reason : String)
deriving DecidableEq

inductive RenderError where
  /-- No device could be found. -/
  | noAdapter (reason : String)
  /-- A stage has a target without pixels. -/
  | emptyTarget (label : String) (size : Size)
  | subpassFailed (label : String) (failure : SubpassFailure)
  | readbackFailed (failure : ReadbackFailure)
deriving DecidableEq

def SubpassFailure.message : SubpassFailure → String
  | exceedsLimit target limit =>
    "target " ++ target.toText ++ " exceeds the device limit of " ++ toString limit.toNat
  | missingKernel => "blur pipeline without blur parameters"
  | wrongLength expected size length =>
    "expected " ++ toString expected.toNat ++ " bytes for " ++ size.toText ++ ", got " ++
      toString length
  | other reason => reason

def ReadbackFailure.message : ReadbackFailure → String
  | format f => "cannot read " ++ f.name ++ " as RGBA8"
  | other reason => reason

def RenderError.message : RenderError → String
  | noAdapter reason => "Failed to request WGPU adapter: " ++ reason
  | emptyTarget label size =>
    "Subpass '" ++ label ++ "' has an empty target (" ++ toString size.width.toNat ++ "x" ++
      toString size.height.toNat ++ ")"
  | subpassFailed label failure => "Subpass '" ++ label ++ "' failed: " ++ failure.message
  | readbackFailed failure => "Texture readback failed: " ++ failure.message

end SeparableBlur

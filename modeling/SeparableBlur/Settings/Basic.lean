-- SUMMARY: Blur settings, their validation, and the document they are written as.
import SeparableBlur.Blur.Basic
import SeparableBlur.Json.Error

/-!
# Settings

`Settings` are what a blur is configured by. Valid ones have finite sigmas that
are not negative, and make a blur. They are written as a small document, with
two spaces of indentation.
-/

namespace SeparableBlur

/-- The configuration of a blur. -/
structure Settings where
  sigmaX : Binary32
  sigmaY : Binary32
  tileMode : TileMode
deriving DecidableEq

instance : Inhabited Settings := ⟨⟨0, 0, .decal⟩⟩

/-- What can be wrong with settings. -/
inductive SettingsError where
  | invalidSigma (sigma : Binary32)
  /-- The document cannot be read. -/
  | document (error : Json.Error)
deriving DecidableEq

def SettingsError.message : SettingsError → String
  | invalidSigma sigma => "Invalid blur sigma: " ++ sigma.toText
  | document error => "JSON parse error: " ++ error.message

/-- The name of a tile mode in a document. -/
def TileMode.name : TileMode → String
  | .clamp => "clamp"
  | .wrap => "repeat"
  | .mirror => "mirror"
  | .decal => "decal"

namespace Settings

/-- The same sigma on both axes. -/
def uniform (sigma : Binary32) : Settings := ⟨sigma, sigma, default⟩

/-- A sigma that can be rendered is finite and not negative. -/
def validateSigma (sigma : Binary32) : Except SettingsError Unit :=
  if !sigma.isFinite ∨ sigma < 0 then .error (.invalidSigma sigma) else .ok ()

/-- Refuses settings with an invalid sigma, the horizontal one first. -/
def validate (s : Settings) : Except SettingsError Unit := do
  validateSigma s.sigmaX
  validateSigma s.sigmaY

/-- The blur that valid settings configure. -/
def toBlur (s : Settings) : Except SettingsError (Blur Binary32) := do
  s.validate
  return ⟨⟨s.sigmaX, s.sigmaY⟩, s.tileMode⟩

/-- The document of the settings. -/
def toJson (s : Settings) : String :=
  "\x7b\n  \"sigma_x\": " ++ s.sigmaX.toDocument .document ++
    ",\n  \"sigma_y\": " ++ s.sigmaY.toDocument .document ++
    ",\n  \"tile_mode\": \"" ++ s.tileMode.name ++ "\"\n\x7d"

end Settings

end SeparableBlur

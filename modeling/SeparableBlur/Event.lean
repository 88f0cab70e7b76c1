-- SUMMARY: What is logged while a blur is set up and rendered.
import SeparableBlur.Gpu.Format
import SeparableBlur.Kernel
import SeparableBlur.Text.Message

/-!
# Events

The log is a list of events in the order in which they happened. `Event.level`
says how important one is, and `Event.message` puts it into words.
-/

namespace SeparableBlur

inductive Level where
  | warn
  | debug
  | trace
deriving DecidableEq

/-- A thing worth logging. -/
inductive Event (α : Type) where
  /-- A requested sigma is above the largest that is rendered. -/
  | sigmaClamped (requested : Vec2 α)
  /-- The features of a new renderer's device. -/
  | capabilities (capabilities : Capabilities)
  /-- The source of a blur has no pixels. -/
  | emptySnapshot (size : Size)
  /-- A blur is too weak to be visible. -/
  | belowEpsilon
  /-- A blur is about to be rendered. -/
  | planned (source : Size) (padding : Vec2 α) (target : Size) (achieved : Vec2 α)
  /-- One axis of a blur is too weak to be visible. -/
  | skipped (label : String)
  /-- A stage is being rendered on the device. -/
  | rendering (label : String) (pipeline : Pipeline) (target : Size)
  /-- A target had to be created. -/
  | creating (label : String) (size : Size)
  /-- A pipeline had to be compiled. -/
  | compiling (pipeline : Pipeline) (primitive : Primitive) (format : Gpu.TextureFormat)
deriving DecidableEq

namespace Event

def level {α : Type} : Event α → Level
  | sigmaClamped _ => .warn
  | capabilities _ | emptySnapshot _ | belowEpsilon | compiling .. => .debug
  | planned .. | skipped _ | rendering .. | creating .. => .trace

/-- The wording. -/
def message {f : Format} : Event (Binary f) → String
  | sigmaClamped requested =>
    "Blur sigma (" ++ requested.x.toText ++ ", " ++ requested.y.toText ++
      ") exceeds " ++ (Kernel.maxSigma : Binary f).toText ++ " and will be clamped"
  | capabilities c =>
    "Subpass renderer capabilities: DeviceCapabilities \x7b supports_decal_sampler_address_mode: " ++
      toString c.decalAddressing ++ " \x7d"
  | emptySnapshot size =>
    "Gaussian blur input snapshot is empty (" ++ size.toText ++ "), nothing to draw"
  | belowEpsilon => "Gaussian blur sigma below epsilon, passing input through"
  | planned source padding target achieved =>
    "Gaussian blur plan: source " ++ source.toText ++ ", padding " ++ padding.toText ++
      ", target " ++ target.toText ++ ", scalar " ++ achieved.toText
  | skipped label => label ++ ": skipped"
  | rendering label pipeline target =>
    "Subpass '" ++ label ++ "': " ++ pipeline.name ++ " into " ++ target.toText
  | creating label size =>
    "Creating transient texture '" ++ label ++ "' (" ++ size.toText ++ ")"
  | compiling pipeline primitive format =>
    "Compiling " ++ pipeline.name ++ " pipeline for PipelineOptions \x7b primitive_type: " ++
      primitive.name ++ " \x7d, format " ++ format.name

end Event

end SeparableBlur

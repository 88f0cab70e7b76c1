import SeparableBlur.Blur.Basic
import SeparableBlur.Blur.Plan
import SeparableBlur.Blur.Render
import SeparableBlur.Decimal.Shortest
import SeparableBlur.Decimal.Text
import SeparableBlur.Error
import SeparableBlur.Event
import SeparableBlur.Geometry.Matrix
import SeparableBlur.Geometry.Rect
import SeparableBlur.Geometry.Vec
import SeparableBlur.Gpu.Bindings
import SeparableBlur.Gpu.Format
import SeparableBlur.Gpu.Pool
import SeparableBlur.Gpu.Readback
import SeparableBlur.Gpu.Renderer
import SeparableBlur.Gpu.Session
import SeparableBlur.Gpu.Fleet
import SeparableBlur.Gpu.Texture
import SeparableBlur.Gpu.Uniform
import SeparableBlur.Input
import SeparableBlur.Json.Error
import SeparableBlur.Json.Number
import SeparableBlur.Json.Quoted
import SeparableBlur.Json.Skip
import SeparableBlur.Kernel
import SeparableBlur.Proofs.Binary
import SeparableBlur.Proofs.Rounding
import SeparableBlur.Proofs.SigmaModel
import SeparableBlur.Recording.Recorder
import SeparableBlur.Recording.Scene
import SeparableBlur.Renderer
import SeparableBlur.Sampler
import SeparableBlur.Scalar.Basic
import SeparableBlur.Scalar.Binary
import SeparableBlur.Scalar.Exact
import SeparableBlur.Scalar.Rounding
import SeparableBlur.Settings.Basic
import SeparableBlur.Settings.Reader
import SeparableBlur.Snapshot
import SeparableBlur.Subpass
import SeparableBlur.Text.Escaped
import SeparableBlur.Text.Invisible
import SeparableBlur.Text.Message
import SeparableBlur.Proofs.Target
import SeparableBlur.Proofs.KernelCost
import SeparableBlur.Proofs.Calls
import SeparableBlur.Proofs.Render
import SeparableBlur.Proofs.Device
import SeparableBlur.Proofs.Pool
import SeparableBlur.Proofs.SafeWork
import SeparableBlur.Proofs.Session
import SeparableBlur.Proofs.Symmetry
import SeparableBlur.Proofs.Extremes
import SeparableBlur.Proofs.Affine
import SeparableBlur.Proofs.Coverage
import SeparableBlur.Proofs.Placement
import SeparableBlur.Proofs.Activation
import SeparableBlur.Proofs.Serving
import SeparableBlur.Proofs.Retention
import SeparableBlur.Proofs.Lifetime
import SeparableBlur.Proofs.Demand
import SeparableBlur.Proofs.Compilation
import SeparableBlur.Proofs.Identity
import SeparableBlur.Proofs.Gutter
import SeparableBlur.Proofs.Hint
import SeparableBlur.Proofs.Midpoint
import SeparableBlur.Proofs.Separation
import SeparableBlur.Proofs.Shortest
import SeparableBlur.Proofs.ReadBack
import SeparableBlur.Proofs.NumberLayout
import SeparableBlur.Proofs.SettingsRoundTrip
import SeparableBlur.Proofs.Line
import SeparableBlur.Proofs.Growth
import SeparableBlur.Proofs.Halo
import SeparableBlur.Proofs.SettingsRefusal
import SeparableBlur.Proofs.Grammar
import SeparableBlur.Proofs.SettingsDocument
import SeparableBlur.Proofs.Visible
import SeparableBlur.Proofs.Upload
import SeparableBlur.Proofs.Refusal
import SeparableBlur.Proofs.BoundingBox
import SeparableBlur.Proofs.PaddedRows
import SeparableBlur.Proofs.SigmaRadius
import SeparableBlur.Proofs.Aging
import SeparableBlur.Proofs.Strength
import SeparableBlur.Proofs.Hull

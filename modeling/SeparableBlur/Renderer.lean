-- SUMMARY: What a blur is rendered on: actions that log and may fail, and the renderer interface.
import SeparableBlur.Error
import SeparableBlur.Event
import SeparableBlur.Subpass

/-!
# Renderers

An `Action` works on the state of a renderer, adds to the log and may fail. What
it did before it failed stays done.

A `SubpassRenderer` is all that a blur knows of the device it is rendered on: how
large a texture is, what the device can do, and how to render one stage into a
target of its own.
-/

namespace SeparableBlur

/-- The state of a renderer together with the log. -/
structure Logged (α σ : Type) where
  state : σ
  log : List (Event α)

/-- Work on a renderer with the state `σ`. -/
abbrev Action (α σ : Type) := ExceptT RenderError (StateM (Logged α σ))

namespace Action

variable {α σ β : Type}

/-- Adds to the log. -/
def emit (e : Event α) : Action α σ Unit := modify fun s => { s with log := s.log ++ [e] }

/-- The current state of the renderer. -/
def state : Action α σ σ := return (← get).state

/-- Replaces the state of the renderer. -/
def setState (t : σ) : Action α σ Unit := modify fun s => { s with state := t }

/-- What the action comes to, from the state `t` and an empty log. -/
def start (a : Action α σ β) (t : σ) : Except RenderError β × Logged α σ := a.run.run ⟨t, []⟩

end Action

/-- A device that blurs can be rendered on. -/
structure SubpassRenderer (α σ τ : Type) where
  /-- The size of a texture. -/
  size : τ → Size
  capabilities : σ → Capabilities
  /-- Renders a stage into a fresh target. -/
  run : Subpass α τ → Action α σ τ

end SeparableBlur

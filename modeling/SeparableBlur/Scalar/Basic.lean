-- SUMMARY: The number interface every blur computation is written over.

/-!
# Scalars

All geometry and all kernel formulas are written once, over a `Scalar`. Two
readings matter: at `Binary32` (`SeparableBlur/Scalar/Binary.lean`) they are the
numbers that are rendered, and at `Rat` (`SeparableBlur/Scalar/Exact.lean`) they
are the same formulas without rounding.

No law is part of the class: a rounded sum is not associative, and a comparison
with a value that is not a number is false both ways.
-/

namespace SeparableBlur

/-- The operations a blur is computed with. `<` and `≤` are the comparisons the
    computation branches on, `round` takes halves away from zero, and `toUInt32`
    cuts the fraction off and clamps to the range of the word. -/
class Scalar (α : Type) extends
    Zero α, One α, Add α, Sub α, Mul α, Div α, Neg α, LT α, LE α where
  decidableLT : DecidableLT α
  decidableLE : DecidableLE α
  abs : α → α
  ceil : α → α
  round : α → α
  ofRat : Rat → α
  toUInt32 : α → UInt32

attribute [reducible, instance] Scalar.decidableLT Scalar.decidableLE

namespace Scalar

variable {α : Type} [Scalar α]

/-- A dimension or another machine word as a scalar. -/
def ofUInt32 (n : UInt32) : α := ofRat n.toNat

/-- The larger of two scalars. A value that is not comparable with itself loses
    against any other, and of two equal values the second is taken. -/
def maxNumber (a b : α) : α :=
  if a ≤ b then b else if a ≤ a then a else b

/-- The smaller of two scalars. A value that is not comparable with itself loses
    against any other, and of two equal values the first is taken. -/
def minNumber (a b : α) : α :=
  if a ≤ b then a else if b ≤ b then b else a

end Scalar

end SeparableBlur

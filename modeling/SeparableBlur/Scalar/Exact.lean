-- SUMMARY: Rational numbers as scalars, the reading of every formula without rounding.
import SeparableBlur.Scalar.Basic

/-!
# Exact scalars

At `Rat` no operation rounds, so a law of the geometry is a law of rational
arithmetic. A quotient by zero is zero here; the formulas that divide are used
with divisors that are positive.
-/

namespace SeparableBlur

/-- The nearest integer to `x`, halves away from zero. -/
def Exact.round (x : Rat) : Rat :=
  if x < 0 then -((-x + 1 / 2).floor : Rat) else ((x + 1 / 2).floor : Rat)

/-- `x` without its fraction, clamped to the range of a 32-bit word. -/
def Exact.toUInt32 (x : Rat) : UInt32 := .ofNatClamp x.floor.toNat

instance : Scalar Rat where
  zero := 0
  one := 1
  decidableLT := inferInstance
  decidableLE := inferInstance
  abs := Rat.abs
  ceil x := x.ceil
  round := Exact.round
  ofRat x := x
  toUInt32 := Exact.toUInt32

end SeparableBlur

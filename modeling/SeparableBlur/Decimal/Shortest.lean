-- SUMMARY: The shortest decimal that reads back as a given binary value.
import SeparableBlur.Scalar.Rounding

/-!
# Shortest decimals

A decimal reads back as a binary magnitude if it lies between the midpoints to
the magnitudes below and above it. A midpoint itself counts if the code is even,
since ties are read as the even code.

`Format.shortest` takes the coarsest decimal grid that has a point between the
midpoints, and on it the point nearest to the magnitude. A coarser grid is a
shorter decimal, so no shorter one reads back.
-/

namespace SeparableBlur

/-- The decimal `digits * 10 ^ exponent`. -/
structure Decimal where
  digits : Nat
  exponent : Int
deriving DecidableEq

/-- Which of two equally near decimals is taken. -/
inductive Tie where
  | away
  | toEven
deriving DecidableEq

/-- Whether the upper of two neighbours is taken, given its digits and the distances to the
    lower and to the upper one. -/
def Tie.TakesUpper (tie : Tie) (upper : Nat) (toLower toUpper : Rat) : Prop :=
  toUpper < toLower ∨ toUpper = toLower ∧ (tie = .away ∨ upper % 2 = 0)

instance (tie : Tie) (upper : Nat) (toLower toUpper : Rat) :
    Decidable (tie.TakesUpper upper toLower toUpper) := by
  unfold Tie.TakesUpper; infer_instance

namespace Decimal

/-- The rational that the decimal stands for. -/
def toRat (d : Decimal) : Rat := d.digits * (10 : Rat) ^ d.exponent

end Decimal

namespace Format

/-- The midpoint between the magnitude with this code and the one below it. -/
def midpointBelow (f : Format) (code : Nat) : Rat :=
  (f.magnitude (code - 1) + f.magnitude code) / 2

/-- The midpoint between the magnitude with this code and the one above it. -/
def midpointAbove (f : Format) (code : Nat) : Rat :=
  (f.magnitude code + f.magnitude (code + 1)) / 2

/-- Whether `x` is read as the magnitude with this code. -/
def ReadsAs (f : Format) (code : Nat) (x : Rat) : Prop :=
  if code % 2 = 0 then f.midpointBelow code ≤ x ∧ x ≤ f.midpointAbove code
  else f.midpointBelow code < x ∧ x < f.midpointAbove code

instance (f : Format) (code : Nat) (x : Rat) : Decidable (f.ReadsAs code x) := by
  unfold ReadsAs; infer_instance

/-- The multiple of `10 ^ exponent` that reads as this code and is nearest to its magnitude. -/
def onGrid? (f : Format) (tie : Tie) (code : Nat) (exponent : Int) : Option Decimal :=
  let step : Rat := 10 ^ exponent
  let value := f.magnitude code
  let low := (value / step).floor.toNat
  let high := low + 1
  let below := f.ReadsAs code (low * step)
  let above := f.ReadsAs code (high * step)
  if below ∧ ¬(above ∧ tie.TakesUpper high (value - low * step) (high * step - value)) then
    some ⟨low, exponent⟩
  else if above then some ⟨high, exponent⟩
  else none

/-- The first decimal found on the grids from `10 ^ exponent` down, at most `steps` finer. -/
def shortestFrom (f : Format) (tie : Tie) (code : Nat) (exponent : Int) : Nat → Decimal
  | 0 => ⟨(f.magnitude code / (10 : Rat) ^ exponent).floor.toNat, exponent⟩
  | steps + 1 =>
    match f.onGrid? tie code exponent with
    | some d => d
    | none => shortestFrom f tie code (exponent - 1) steps

/-- The shortest decimal for the magnitude with this code. The search starts above the
    magnitude and ends on the grid of all magnitudes of the format. -/
def shortest (f : Format) (tie : Tie) (code : Nat) : Decimal :=
  let top := (toString (f.magnitude code).floor.toNat).length
  f.shortestFrom tie code top (top + f.unitExponent)

end Format

end SeparableBlur

-- SUMMARY: Binary formats: which rationals they hold and which of those is nearest to a rational.

/-!
# Rounding to a binary format

The magnitudes of a binary format are numbered in increasing order: code `0` is
zero and each next code is the next larger magnitude, up to `infinityCode`, the
first that is not finite. All magnitudes are multiples of the smallest positive
one, `2 ^ (-unitExponent)`. From code `2 ^ fractionBits` on they come in binades
of `2 ^ fractionBits` codes, and the spacing doubles from each to the next.

`Format.magnitude` reads a code, and `Format.code` finds the code nearest to a
rational, with ties to the even code. It first finds the spacing around the
rational and then rounds on that grid; the last code of a binade plus one is the
first of the next, so a carry needs no case of its own.
-/

namespace SeparableBlur

/-- The integer nearest to `x`, with ties to the even one. -/
def halfEven (x : Rat) : Int :=
  let below := x.floor
  let rest := x - below
  if rest < 1 / 2 then below
  else if 1 / 2 < rest then below + 1
  else if below % 2 = 0 then below
  else below + 1

/-- A binary interchange format: a sign, `exponentBits` and `fractionBits`. -/
structure Format where
  exponentBits : Nat
  fractionBits : Nat
deriving DecidableEq

namespace Format

/-- The 32-bit format. -/
def single : Format := ⟨8, 23⟩

/-- The 64-bit format. -/
def double : Format := ⟨11, 52⟩

/-- The smallest positive magnitude is two to the minus `unitExponent`. -/
def unitExponent (f : Format) : Nat := 1 <<< (f.exponentBits - 1) + f.fractionBits - 2

/-- The smallest positive magnitude. -/
def unit (f : Format) : Rat := 1 / 2 ^ f.unitExponent

/-- The code of infinity: one past the codes of the finite magnitudes. -/
def infinityCode (f : Format) : Nat := (1 <<< f.exponentBits - 1) <<< f.fractionBits

/-- How many times the spacing has doubled at the magnitude with this code. -/
def doublings (f : Format) (code : Nat) : Nat := code >>> f.fractionBits - 1

/-- The magnitude with this code, as a multiple of the unit. -/
def multiple (f : Format) (code : Nat) : Nat :=
  let k := f.doublings code
  (code - k <<< f.fractionBits) <<< k

/-- The magnitude with this code. -/
def magnitude (f : Format) (code : Nat) : Rat := f.multiple code * f.unit

/-- How many times the spacing has doubled at the magnitude `x`. -/
def doublingsAt (f : Format) (x : Rat) : Nat :=
  (x * 2 ^ f.unitExponent).floor.toNat.log2 - f.fractionBits

/-- The code whose magnitude is nearest to `x ≥ 0`, with ties to the even code.
    Codes from `infinityCode` on mean that `x` is too large for the format. -/
def code (f : Format) (x : Rat) : Nat :=
  let k := f.doublingsAt x
  (halfEven (x * 2 ^ f.unitExponent / 2 ^ k)).toNat + k <<< f.fractionBits

end Format

end SeparableBlur

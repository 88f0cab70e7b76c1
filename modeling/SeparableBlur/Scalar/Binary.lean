-- SUMMARY: Binary floating-point numbers with correctly rounded operations.
import SeparableBlur.Scalar.Basic
import SeparableBlur.Scalar.Rounding

/-!
# Binary floating-point numbers

`Binary f` holds the values of the format `f`: signed magnitudes, signed
infinities and one value that is not a number. Each arithmetic operation is the
exact rational result, rounded once by `Format.code`; the sign of a zero result
and the cases with infinities follow the usual rules of binary interchange
formats.
-/

namespace SeparableBlur

/-- A value of the format `f`. A finite one is a sign and the code of its magnitude. -/
inductive Binary (f : Format) where
  | nan
  | infinite (negative : Bool)
  | finite (negative : Bool) (code : Fin f.infinityCode)
deriving DecidableEq

/-- The numbers that are rendered. -/
abbrev Binary32 := Binary .single

/-- The numbers that decimal text is first read as. -/
abbrev Binary64 := Binary .double

namespace Binary

variable {f : Format}

/-! ## Values -/

/-- `x` with the sign `negative`. -/
def signed (negative : Bool) (x : Rat) : Rat := if negative then -x else x

/-- The rational that a finite value stands for. -/
def toRat? : Binary f → Option Rat
  | .nan | .infinite _ => none
  | .finite s c => some (signed s (f.magnitude c))

/-- The value with the sign `negative` nearest to the magnitude `x ≥ 0`. -/
def round (negative : Bool) (x : Rat) : Binary f :=
  if h : f.code x < f.infinityCode then .finite negative ⟨f.code x, h⟩ else .infinite negative

/-- The value nearest to `x`; zero becomes the positive zero. -/
def ofRat (x : Rat) : Binary f := round (x < 0) x.abs

def isFinite : Binary f → Bool
  | .finite .. => true
  | _ => false

/-! ## Interchange bits -/

/-- The weight of the sign bit. -/
def signWeight (f : Format) : Nat := 1 <<< (f.exponentBits + f.fractionBits)

/-- The interchange encoding. The value that is not a number is written with the
    first fraction bit set. -/
def toBits : Binary f → Nat
  | .nan => f.infinityCode + 1 <<< (f.fractionBits - 1)
  | .infinite s => s.toNat * signWeight f + f.infinityCode
  | .finite s c => s.toNat * signWeight f + c

/-- The value with this interchange encoding. -/
def ofBits (bits : Nat) : Binary f :=
  let negative := bits / signWeight f % 2 = 1
  let code := bits % signWeight f
  if h : code < f.infinityCode then .finite negative ⟨code, h⟩
  else if code = f.infinityCode then .infinite negative
  else .nan

/-! ## Arithmetic -/

def neg : Binary f → Binary f
  | .nan => .nan
  | .infinite s => .infinite !s
  | .finite s c => .finite (!s) c

def abs : Binary f → Binary f
  | .nan => .nan
  | .infinite _ => .infinite false
  | .finite _ c => .finite false c

/-- The rounded sum. A sum that is exactly zero is negative only if both terms are. -/
def add : Binary f → Binary f → Binary f
  | .nan, _ | _, .nan => .nan
  | .infinite s, .infinite t => if s = t then .infinite s else .nan
  | .infinite s, .finite .. => .infinite s
  | .finite .., .infinite t => .infinite t
  | .finite s c, .finite t d =>
    let sum := signed s (f.magnitude c) + signed t (f.magnitude d)
    round (if sum = 0 then s && t else sum < 0) sum.abs

def sub (a b : Binary f) : Binary f := add a (neg b)

/-- The rounded product. -/
def mul : Binary f → Binary f → Binary f
  | .nan, _ | _, .nan => .nan
  | .infinite s, .infinite t => .infinite (s ^^ t)
  | .infinite s, .finite t d => if d.val = 0 then .nan else .infinite (s ^^ t)
  | .finite s c, .infinite t => if c.val = 0 then .nan else .infinite (s ^^ t)
  | .finite s c, .finite t d => round (s ^^ t) (f.magnitude c * f.magnitude d)

/-- The rounded quotient. -/
def div : Binary f → Binary f → Binary f
  | .nan, _ | _, .nan => .nan
  | .infinite _, .infinite _ => .nan
  | .infinite s, .finite t _ => .infinite (s ^^ t)
  | .finite s _, .infinite t => round (s ^^ t) 0
  | .finite s c, .finite t d =>
    if d.val = 0 then
      if c.val = 0 then .nan else .infinite (s ^^ t)
    else round (s ^^ t) (f.magnitude c / f.magnitude d)

/-! ## Comparison -/

def lt : Binary f → Binary f → Bool
  | .nan, _ | _, .nan => false
  | .infinite s, .infinite t => s && !t
  | .infinite s, .finite .. => s
  | .finite .., .infinite t => !t
  | .finite s c, .finite t d => signed s (f.magnitude c) < signed t (f.magnitude d)

def le : Binary f → Binary f → Bool
  | .nan, _ | _, .nan => false
  | .infinite s, .infinite t => s || !t
  | .infinite s, .finite .. => s
  | .finite .., .infinite t => !t
  | .finite s c, .finite t d => signed s (f.magnitude c) ≤ signed t (f.magnitude d)

/-! ## Integers and other formats -/

/-- The least integer that is not smaller; a zero keeps the sign of the argument. -/
def ceil : Binary f → Binary f
  | .finite s c =>
    round s (if s then (f.magnitude c).floor else (f.magnitude c).ceil)
  | x => x

/-- The nearest integer, halves away from zero; a zero keeps the sign of the argument. -/
def nearestInteger : Binary f → Binary f
  | .finite s c => round s (f.magnitude c + 1 / 2).floor
  | x => x

/-- The integer part, clamped to the range of the word; zero for what is not a number. -/
def toUInt32 : Binary f → UInt32
  | .nan => 0
  | .infinite s => if s then 0 else .ofNatClamp UInt32.size
  | .finite s c =>
    if s then 0 else .ofNatClamp (f.magnitude c).floor.toNat

/-- The same number in another format, rounded. -/
def convert {g : Format} : Binary f → Binary g
  | .nan => .nan
  | .infinite s => .infinite s
  | .finite s c => round s (f.magnitude c)

/-! ## As scalars -/

instance : Scalar (Binary f) where
  zero := round false 0
  one := round false 1
  add := add
  sub := sub
  mul := mul
  div := div
  neg := neg
  lt a b := lt a b
  le a b := le a b
  decidableLT a b := inferInstanceAs (Decidable (lt a b = true))
  decidableLE a b := inferInstanceAs (Decidable (le a b = true))
  abs := abs
  ceil := ceil
  round := nearestInteger
  ofRat := ofRat
  toUInt32 := toUInt32

end Binary

end SeparableBlur

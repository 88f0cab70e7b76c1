-- SUMMARY: Writing binary floating-point numbers as decimal text.
import SeparableBlur.Scalar.Binary
import SeparableBlur.Decimal.Shortest

/-!
# Decimal text

A number is written with its shortest digits, in a layout given by a
`NumberStyle`: for which powers of ten the digits are written out around a point
and for which they are followed by an exponent, and whether a whole number shows
that it may have a fraction. A style also says which of two equally near digits
is written.
-/

namespace SeparableBlur

/-- How numbers are laid out. -/
structure NumberStyle where
  /-- The range of the power of ten of the first digit in which no exponent is written;
      everywhere, if there is none. -/
  positional : Option (Int × Int)
  /-- Whether a whole number ends in a point and a zero, where no exponent is written. -/
  pointZero : Bool
  tie : Tie
deriving DecidableEq

namespace NumberStyle

/-- Messages write every number out, and whole numbers without a point. -/
def plain : NumberStyle := ⟨none, false, .away⟩

/-- Settings documents write numbers of moderate size out, and always with a point. -/
def document : NumberStyle := ⟨some (-6, 12), true, .toEven⟩

/-- Messages about a number in a document lay it out like the document does, with the
    wider range of the 64-bit numbers it is read as. -/
def documentWide : NumberStyle := ⟨some (-5, 15), true, .toEven⟩

end NumberStyle

namespace Decimal

/-- The digits without an exponent. -/
def writePositional (d : Decimal) (pointZero : Bool) : String :=
  let text := (toString d.digits).toList
  let zeros (n : Int) := List.replicate n.toNat '0'
  let whole := text.length + d.exponent
  String.ofList <|
    if 0 ≤ d.exponent then
      text ++ zeros d.exponent ++ (if pointZero then ['.', '0'] else [])
    else if 0 < whole then
      text.take whole.toNat ++ ['.'] ++ text.drop whole.toNat
    else
      ['0', '.'] ++ zeros (-whole) ++ text

/-- The first digit, the others behind a point, and the exponent with its sign. -/
def writeScientific (d : Decimal) : String :=
  let text := (toString d.digits).toList
  let exponent := d.exponent + (text.length - 1)
  let sign := if exponent < 0 then "-" else "+"
  let fraction := if text.length = 1 then [] else '.' :: text.drop 1
  String.ofList (text.take 1 ++ fraction) ++ "e" ++ sign ++ toString exponent.natAbs

def write (style : NumberStyle) (d : Decimal) : String :=
  let leading := d.exponent + ((toString d.digits).length - 1)
  match style.positional with
  | none => d.writePositional style.pointZero
  | some (least, greatest) =>
    if least ≤ leading ∧ leading ≤ greatest then d.writePositional style.pointZero
    else d.writeScientific

end Decimal

namespace Binary

variable {f : Format}

/-- The text of a finite value. Zero keeps its sign. -/
def writeFinite (style : NumberStyle) (negative : Bool) (code : Fin f.infinityCode) : String :=
  (if negative then "-" else "") ++
    (if code.val = 0 then Decimal.writePositional ⟨0, 0⟩ style.pointZero
     else (f.shortest style.tie code).write style)

/-- The text of a value in a message. -/
def toText : Binary f → String
  | .nan => "NaN"
  | .infinite s => if s then "-inf" else "inf"
  | .finite s c => writeFinite .plain s c

/-- The text of a value in a document, where only finite values can be written. -/
def toDocument (style : NumberStyle) : Binary f → String
  | .finite s c => writeFinite style s c
  | _ => "null"

end Binary

end SeparableBlur

-- SUMMARY: How sizes, vectors and names appear in messages.
import SeparableBlur.Decimal.Text
import SeparableBlur.Subpass

/-!
# Message text

Pairs are written in brackets, component by component.
-/

namespace SeparableBlur

/-- A pair of texts in brackets. -/
def bracketed (x y : String) : String := "[" ++ x ++ ", " ++ y ++ "]"

def Size.toText (s : Size) : String := bracketed (toString s.width.toNat) (toString s.height.toNat)

def Vec2.toText {f : Format} (v : Vec2 (Binary f)) : String := bracketed v.x.toText v.y.toText

def Pipeline.name : Pipeline → String
  | .fill => "TextureFill"
  | .blur => "GaussianBlur"
  | .decalBlur => "GaussianBlurDecal"

def Primitive.name : Primitive → String
  | .triangles => "Triangle"
  | .triangleStrip => "TriangleStrip"

end SeparableBlur

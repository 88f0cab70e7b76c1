-- SUMMARY: What can be wrong with a document, and the messages for it.
import SeparableBlur.Decimal.Text
import SeparableBlur.Text.Escaped

/-!
# Document errors

A document is read from front to back, and the first thing wrong with it is
reported: where it is cut off, what was expected instead, or which value has the
wrong type.
-/

namespace SeparableBlur.Json

/-- What was being read when the document ended. -/
inductive Part where
  | value
  | string
  | list
  | object
deriving DecidableEq

/-- A value of a type that is not expected. -/
inductive Found where
  | null
  | bool (b : Bool)
  | integer (n : Int)
  | real (x : Binary64)
  | string (s : String)
  | sequence
  | map
deriving DecidableEq

inductive Error where
  | cutOff (part : Part)
  | expectedValue
  /-- A letter that does not belong to `null`, `true` or `false`. -/
  | expectedWord
  | expectedColon
  | expectedCommaOrListEnd
  | expectedCommaOrObjectEnd
  | keyMustBeString
  | trailingComma
  | trailingCharacters
  | invalidNumber
  | numberOutOfRange
  | invalidEscape
  /-- The second half of a surrogate pair stands first, or a first half is followed by an
      escape that is no second half. -/
  | unpairedSurrogate
  /-- The first half of a surrogate pair is not followed by an escape. -/
  | unfinishedSurrogate
  | controlCharacter
  | duplicateField (name : String)
  | unknownVariant (name : String) (known : List String)
  | invalidType (found : Found) (expected : String)
deriving DecidableEq

def Part.message : Part → String
  | value => "a value"
  | string => "a string"
  | list => "a list"
  | object => "an object"

/-- A name in backquotes. -/
def backquoted (text : String) : String := "`" ++ text ++ "`"

def Found.message : Found → String
  | null => "null"
  | bool b => "boolean " ++ backquoted (toString b)
  | integer n => "integer " ++ backquoted (toString n)
  | real x => "floating point " ++ backquoted (x.toDocument .documentWide)
  | string s => "string " ++ Text.quoted s
  | sequence => "sequence"
  | map => "map"

def Error.message : Error → String
  | cutOff part => "EOF while parsing " ++ part.message
  | expectedValue => "expected value"
  | expectedWord => "expected ident"
  | expectedColon => "expected " ++ backquoted ":"
  | expectedCommaOrListEnd => "expected " ++ backquoted "," ++ " or " ++ backquoted "]"
  | expectedCommaOrObjectEnd => "expected " ++ backquoted "," ++ " or " ++ backquoted "\x7d"
  | keyMustBeString => "key must be a string"
  | trailingComma => "trailing comma"
  | trailingCharacters => "trailing characters"
  | invalidNumber => "invalid number"
  | numberOutOfRange => "number out of range"
  | invalidEscape => "invalid escape"
  | unpairedSurrogate => "lone leading surrogate in hex escape"
  | unfinishedSurrogate => "unexpected end of hex escape"
  | controlCharacter => "control character (\\u0000-\\u001F) found while parsing a string"
  | duplicateField name => "duplicate field " ++ backquoted name
  | unknownVariant name known =>
    "unknown variant " ++ backquoted name ++ ", expected one of " ++
      String.intercalate ", " (known.map backquoted)
  | invalidType found expected => "invalid type: " ++ found.message ++ ", expected " ++ expected

/-! ## Steps of reading -/

/-- A step that succeeds after another had a result of the other to go on with. -/
theorem ok_of_bind_eq_ok {β γ : Type} {x : Except Error β} {f : β → Except Error γ} {c : γ}
    (h : x >>= f = .ok c) : ∃ b, x = .ok b ∧ f b = .ok c := by
  cases x with
  | error e => cases h
  | ok b => exact ⟨b, rfl, h⟩

/-- A mapped step that succeeds had a result to map. -/
theorem ok_of_map_eq_ok {β γ : Type} {x : Except Error β} {f : β → γ} {c : γ}
    (h : x.map f = .ok c) : ∃ b, x = .ok b ∧ f b = c := by
  cases x with
  | error e => cases h
  | ok b => exact ⟨b, rfl, Except.ok.inj h⟩

end SeparableBlur.Json

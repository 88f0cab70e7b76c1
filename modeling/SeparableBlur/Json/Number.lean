-- SUMMARY: Numbers in a document: their grammar and their value.
import SeparableBlur.Json.Error

/-!
# Numbers

`NumberText.scan` takes a number apart by the grammar: a sign, digits without
leading zeros, and optionally a fraction and an exponent. `NumberText.value` is
what it stands for. The digits make up a 64-bit significand as far as they fit;
a number that is more than an integer in range becomes the significand, rounded
to 64-bit floating point and then scaled by a rounded power of ten.
-/

namespace SeparableBlur.Json

/-! ## Grammar -/

/-- The parts of a number. -/
structure NumberText where
  negative : Bool
  whole : List Char
  fraction : Option (List Char)
  /-- The sign of the exponent and its digits. -/
  exponent : Option (Bool × List Char)
deriving DecidableEq

namespace NumberText

/-- The digits at the front, of which there must be one. -/
def scanDigits (cutOff : Error) : List Char → Except Error (List Char × List Char)
  | [] => .error cutOff
  | c :: rest =>
    if c.isDigit then .ok (c :: rest.takeWhile Char.isDigit, rest.dropWhile Char.isDigit)
    else .error .invalidNumber

/-- The digits before the point. A zero stands alone. -/
def scanWhole (cutOff : Error) (input : List Char) : Except Error (List Char × List Char) := do
  let (digits, rest) ← scanDigits cutOff input
  if digits.head? = some '0' ∧ digits.length ≠ 1 then throw .invalidNumber
  return (digits, rest)

/-- The point and the digits behind it, if there is a point. -/
def scanFraction (cutOff : Error) : List Char → Except Error (Option (List Char) × List Char)
  | '.' :: rest => do
    let (digits, rest) ← scanDigits cutOff rest
    return (some digits, rest)
  | input => .ok (none, input)

/-- The sign of an exponent. -/
def scanSign : List Char → Bool × List Char
  | '-' :: rest => (true, rest)
  | '+' :: rest => (false, rest)
  | input => (false, input)

/-- The exponent, if there is one. -/
def scanExponent (cutOff : Error) (input : List Char) :
    Except Error (Option (Bool × List Char) × List Char) :=
  match input with
  | c :: rest =>
    if c = 'e' ∨ c = 'E' then do
      let signed := scanSign rest
      let (digits, rest) ← scanDigits cutOff signed.2
      return (some (signed.1, digits), rest)
    else .ok (none, input)
  | [] => .ok (none, [])

/-- The number at the front. `cutOff` is the error for a number that the document ends in. -/
def scan (cutOff : Error) (input : List Char) : Except Error (NumberText × List Char) := do
  let negative := input.head? = some '-'
  let (whole, input) ← scanWhole cutOff (if negative then input.drop 1 else input)
  let (fraction, input) ← scanFraction cutOff input
  let (exponent, input) ← scanExponent cutOff input
  return (⟨negative, whole, fraction, exponent⟩, input)

end NumberText

/-! ## What is read makes the input shorter -/

theorem scanDigits_length {cutOff : Error} {input digits rest : List Char}
    (h : NumberText.scanDigits cutOff input = .ok (digits, rest)) : rest.length < input.length := by
  cases input with
  | nil => cases h
  | cons c tail =>
    simp only [NumberText.scanDigits] at h
    split at h
    · obtain ⟨_, rfl⟩ := Prod.mk.inj (Except.ok.inj h)
      exact Nat.lt_succ_of_le (List.dropWhile_sublist _).length_le
    · cases h

theorem scanWhole_length {cutOff : Error} {input digits rest : List Char}
    (h : NumberText.scanWhole cutOff input = .ok (digits, rest)) : rest.length < input.length := by
  obtain ⟨⟨ds, tail⟩, hd, h⟩ := ok_of_bind_eq_ok h
  have := scanDigits_length hd
  dsimp only at h
  split at h
  · cases h
  · obtain ⟨_, rfl⟩ := Prod.mk.inj (Except.ok.inj h)
    exact this

theorem scanFraction_length {cutOff : Error} {input rest : List Char} {digits : Option (List Char)}
    (h : NumberText.scanFraction cutOff input = .ok (digits, rest)) :
    rest.length ≤ input.length := by
  unfold NumberText.scanFraction at h
  split at h
  · obtain ⟨⟨ds, tail⟩, hd, h⟩ := ok_of_bind_eq_ok h
    obtain ⟨_, rfl⟩ := Prod.mk.inj (Except.ok.inj h)
    exact Nat.le_succ_of_le (Nat.le_of_lt (scanDigits_length hd))
  · obtain ⟨_, rfl⟩ := Prod.mk.inj (Except.ok.inj h)
    exact Nat.le_refl _

theorem scanSign_length (input : List Char) :
    (NumberText.scanSign input).2.length ≤ input.length := by
  unfold NumberText.scanSign
  split <;> simp

theorem scanExponent_length {cutOff : Error} {input rest : List Char}
    {exponent : Option (Bool × List Char)}
    (h : NumberText.scanExponent cutOff input = .ok (exponent, rest)) :
    rest.length ≤ input.length := by
  unfold NumberText.scanExponent at h
  split at h
  · next c tail =>
    split at h
    · obtain ⟨⟨ds, more⟩, hd, h⟩ := ok_of_bind_eq_ok h
      obtain ⟨_, rfl⟩ := Prod.mk.inj (Except.ok.inj h)
      have := scanDigits_length hd
      have := scanSign_length tail
      simp only [List.length_cons]
      omega
    · obtain ⟨_, rfl⟩ := Prod.mk.inj (Except.ok.inj h)
      exact Nat.le_refl _
  · obtain ⟨_, rfl⟩ := Prod.mk.inj (Except.ok.inj h)
    exact Nat.le_refl _

/-- A number takes at least one character. -/
theorem scan_length {cutOff : Error} {input rest : List Char} {t : NumberText}
    (h : NumberText.scan cutOff input = .ok (t, rest)) : rest.length < input.length := by
  obtain ⟨⟨whole, rest₁⟩, h₁, h⟩ := ok_of_bind_eq_ok h
  obtain ⟨⟨fraction, rest₂⟩, h₂, h⟩ := ok_of_bind_eq_ok h
  obtain ⟨⟨exponent, rest₃⟩, h₃, h⟩ := ok_of_bind_eq_ok h
  obtain ⟨_, rfl⟩ := Prod.mk.inj (Except.ok.inj h)
  have := scanWhole_length h₁
  have := scanFraction_length h₂
  have := scanExponent_length h₃
  have : (if input.head? = some '-' then input.drop 1 else input).length ≤ input.length := by
    split
    · simp
    · exact Nat.le_refl _
  omega

/-! ## Value -/

/-- What a number stands for: an integer of 64 bits, or a floating-point number. -/
inductive Number where
  | integer (n : Int)
  | real (x : Binary64)
deriving DecidableEq

/-- The value of a digit. -/
def digitValue (c : Char) : Nat := c.toNat - '0'.toNat

/-- The natural number that some digits write. -/
def digitsValue (digits : List Char) : Nat := digits.foldl (fun n c => n * 10 + digitValue c) 0

/-- Appends digits to a significand as long as it fits into 64 bits, and counts those that were
    taken. -/
def absorb (significand : Nat) : List Char → Nat × Nat
  | [] => (significand, 0)
  | c :: rest =>
    let next := significand * 10 + digitValue c
    if next < UInt64.size then
      let (total, taken) := absorb next rest
      (total, taken + 1)
    else (significand, 0)

/-- The rounded power of ten. -/
def powerOfTen (n : Nat) : Binary64 := .ofRat (10 ^ n)

/-- The largest power of ten of the 64-bit format. -/
def maxPower : Nat := 308

/-- `x` divided by a power of ten, in steps that the format has powers for. -/
def scaleDown (x : Binary64) (n : Nat) : Binary64 :=
  if n ≤ maxPower then x / powerOfTen n
  else if x = 0 then x
  else scaleDown (x / powerOfTen maxPower) (n - maxPower)
termination_by n
decreasing_by simp only [maxPower] at *; omega

/-- `x` times a power of ten, which must stay finite. -/
def scaleUp (x : Binary64) (n : Nat) : Except Error Binary64 :=
  if n ≤ maxPower then
    let y := x * powerOfTen n
    if y.isFinite then .ok y else .error .numberOutOfRange
  else if x = 0 then .ok x
  else .error .numberOutOfRange

namespace NumberText

/-- Whether there is neither a fraction nor an exponent. -/
def isPlain (t : NumberText) : Bool := t.fraction.isNone && t.exponent.isNone

/-- The exponent that is written, or zero. -/
def writtenExponent (t : NumberText) : Int :=
  match t.exponent with
  | none => 0
  | some (true, digits) => -(digitsValue digits : Int)
  | some (false, digits) => digitsValue digits

/-- The number that a significand of 64 bits stands for. A negative integer out of range is
    floating, and so is the negative zero. -/
def integerValue (negative : Bool) (significand : Nat) : Number :=
  if !negative then .integer significand
  else if 0 < significand ∧ 2 * significand ≤ UInt64.size then .integer (-significand)
  else .real (-.ofRat significand)

/-- The number that the text stands for. Digits that do not fit are dropped, which before the
    point raises the power of ten. -/
def value (t : NumberText) : Except Error Number := do
  let (whole, takenBefore) := absorb 0 t.whole
  let dropped := t.whole.length - takenBefore
  if t.isPlain ∧ dropped = 0 then
    return integerValue t.negative whole
  let (significand, takenBehind) := absorb whole (t.fraction.getD [])
  let exponent : Int := dropped - takenBehind + t.writtenExponent
  let x : Binary64 := .ofRat significand
  let scaled ← if 0 ≤ exponent then scaleUp x exponent.toNat else pure (scaleDown x (-exponent).toNat)
  return .real (if t.negative then -scaled else scaled)

end NumberText

/-- The 32-bit number nearest to a number. -/
def Number.toBinary32 : Number → Binary32
  | .integer n => .ofRat n
  | .real x => x.convert

/-- How a number appears in a message about its type. -/
def Number.found : Number → Found
  | .integer n => .integer n
  | .real x => .real x

end SeparableBlur.Json

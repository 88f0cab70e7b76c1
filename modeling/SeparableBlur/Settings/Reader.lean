-- SUMMARY: Reading settings from a document.
import SeparableBlur.Json.Skip
import SeparableBlur.Settings.Basic

/-!
# Reading settings

The document is an object whose members are settings, in any order, or a list of
the settings in their own order. Whatever is not given has its default. Members
with other names are skipped, and a setting may be given only once. The settings
are validated once the whole document has been read.
-/

namespace SeparableBlur

open Json

/-! ## Values -/

/-- The error for a value that should be something else, found at the front of the input. The
    value is read first, unless it has brackets. -/
def mismatch (expected : String) (c : Char) (rest : List Char) : Json.Error :=
  let found : Except Json.Error Found :=
    if c = 'n' then (skipWord "ull".toList rest).map fun _ => .null
    else if c = 't' then (skipWord "rue".toList rest).map fun _ => .bool true
    else if c = 'f' then (skipWord "alse".toList rest).map fun _ => .bool false
    else if c = '"' then (readQuoted rest).map fun (s, _) => .string (String.ofList s)
    else if c = '[' then .ok .sequence
    else if c = '{' then .ok .map
    else if c = '-' ∨ c.isDigit then do
      let (text, _) ← NumberText.scan (.cutOff .value) (c :: rest)
      return (← text.value).found
    else .error .expectedValue
  match found with
  | .ok found => .invalidType found expected
  | .error e => e

/-- A number of 32 bits. -/
def readSigma (input : List Char) : Except Json.Error (Binary32 × List Char) :=
  match skipBlanks input with
  | [] => .error (.cutOff .value)
  | c :: rest =>
    if c = '-' ∨ c.isDigit then do
      let (text, rest) ← NumberText.scan (.cutOff .value) (c :: rest)
      return ((← text.value).toBinary32, rest)
    else .error (mismatch "f32" c rest)

/-- The names of the tile modes. -/
def TileMode.known : List TileMode := [.clamp, .wrap, .mirror, .decal]

/-- The tile mode with this name. -/
def TileMode.ofName (name : List Char) : Except Json.Error TileMode :=
  match TileMode.known.find? (·.name.toList = name) with
  | some mode => .ok mode
  | none => .error (.unknownVariant (String.ofList name) (TileMode.known.map TileMode.name))

/-- The word `null`. -/
def readNull (input : List Char) : Except Json.Error (List Char) :=
  match skipBlanks input with
  | [] => .error (.cutOff .value)
  | c :: rest => if c = 'n' then skipWord "ull".toList rest else .error (mismatch "unit" c rest)

/-- A tile mode as an object: its name as the only key, with the value `null`. Starts behind the
    opening bracket. -/
def readTaggedTileMode (input : List Char) : Except Json.Error (TileMode × List Char) :=
  match skipBlanks input with
  | [] => .error (.cutOff .object)
  | '}' :: _ => .error .expectedValue
  | '"' :: rest => do
    let (name, rest) ← readQuoted rest
    let mode ← TileMode.ofName name
    let rest ← skipColon rest
    let rest ← readNull rest
    match skipBlanks rest with
    | '}' :: rest => return (mode, rest)
    | [] => throw (.cutOff .object)
    | _ => throw .expectedValue
  | _ => .error .keyMustBeString

/-- A tile mode, by its name alone or as an object. -/
def readTileMode (input : List Char) : Except Json.Error (TileMode × List Char) :=
  match skipBlanks input with
  | [] => .error (.cutOff .value)
  | '"' :: rest => do
    let (name, rest) ← readQuoted rest
    return (← TileMode.ofName name, rest)
  | '{' :: rest => readTaggedTileMode rest
  | _ => .error .expectedValue

/-! ## Fields -/

/-- A setting. -/
inductive Field where
  | sigmaX
  | sigmaY
  | tileMode
deriving DecidableEq

/-- The settings that were read so far. -/
structure Draft where
  sigmaX : Option Binary32 := none
  sigmaY : Option Binary32 := none
  tileMode : Option TileMode := none
deriving DecidableEq

namespace Field

/-- The settings in their own order. -/
def all : List Field := [sigmaX, sigmaY, tileMode]

def name : Field → String
  | sigmaX => "sigma_x"
  | sigmaY => "sigma_y"
  | tileMode => "tile_mode"

/-- The setting with this name. -/
def ofName? (name : List Char) : Option Field := all.find? (·.name.toList = name)

/-- Whether the setting was read already. -/
def isRead (draft : Draft) : Field → Bool
  | sigmaX => draft.sigmaX.isSome
  | sigmaY => draft.sigmaY.isSome
  | tileMode => draft.tileMode.isSome

/-- Reads the value of a setting. -/
def read (draft : Draft) (input : List Char) : Field → Except Json.Error (Draft × List Char)
  | sigmaX => (readSigma input).map fun (x, rest) => ({ draft with sigmaX := some x }, rest)
  | sigmaY => (readSigma input).map fun (y, rest) => ({ draft with sigmaY := some y }, rest)
  | tileMode => (readTileMode input).map fun (m, rest) => ({ draft with tileMode := some m }, rest)

end Field

/-- The settings, with defaults for what was not read. -/
def Draft.settings (d : Draft) : Settings :=
  let fallback : Settings := default
  ⟨d.sigmaX.getD fallback.sigmaX, d.sigmaY.getD fallback.sigmaY,
    d.tileMode.getD fallback.tileMode⟩

/-! ## Lists -/

/-- The input at the next element of a list, or nothing at its end. -/
def nextElement? (first : Bool) (input : List Char) : Except Json.Error (Option (List Char)) :=
  match skipBlanks input with
  | [] => .error (.cutOff .list)
  | c :: rest =>
    if c = ']' then .ok none
    else if first then .ok (some (c :: rest))
    else if c = ',' then
      match skipBlanks rest with
      | [] => .error (.cutOff .value)
      | d :: tail => if d = ']' then .error .trailingComma else .ok (some (d :: tail))
    else .error .expectedCommaOrListEnd

/-- The end of a list that has all its elements. -/
def readListEnd (input : List Char) : Except Json.Error (List Char) :=
  match skipBlanks input with
  | ']' :: rest => .ok rest
  | ',' :: rest =>
    match skipBlanks rest with
    | ']' :: _ => .error .trailingComma
    | _ => .error .trailingCharacters
  | [] => .error (.cutOff .list)
  | _ => .error .trailingCharacters

/-- Reads settings from the elements of a list, as long as there are elements. -/
def readElements (first : Bool) (draft : Draft) (input : List Char) :
    List Field → Except Json.Error (Draft × List Char)
  | [] => (readListEnd input).map (draft, ·)
  | field :: fields => do
    match ← nextElement? first input with
    | none => (readListEnd input).map (draft, ·)
    | some rest =>
      let (draft, rest) ← field.read draft rest
      readElements false draft rest fields

/-! ## Objects -/

/-- The input behind the opening quote of the next key, or nothing at the end of the object. -/
def nextKey? (first : Bool) (input : List Char) : Except Json.Error (Option (List Char)) :=
  match skipBlanks input with
  | [] => .error (.cutOff .object)
  | c :: rest =>
    if c = '}' then .ok none
    else if first then if c = '"' then .ok (some rest) else .error .keyMustBeString
    else if c = ',' then
      match skipBlanks rest with
      | [] => .error (.cutOff .value)
      | d :: tail =>
        if d = '"' then .ok (some tail)
        else if d = '}' then .error .trailingComma
        else .error .keyMustBeString
    else .error .expectedCommaOrObjectEnd

/-- A member, from behind the opening quote of its key. -/
def readMember (draft : Draft) (input : List Char) : Except Json.Error (Draft × List Char) := do
  let (name, rest) ← readQuoted input
  match Field.ofName? name with
  | some field =>
    if field.isRead draft then throw (.duplicateField field.name)
    field.read draft (← skipColon rest)
  | none => return (draft, ← skipValue (← skipColon rest))

/-! ## What is read makes the input shorter -/

theorem readQuoted_length {input name rest : List Char} (h : readQuoted input = .ok (name, rest)) :
    rest.length < input.length :=
  @scanQuoted_length _ _ _ (readEscape_length readCodePoint_length) _ _ _ h

theorem readSigma_length {input rest : List Char} {x : Binary32}
    (h : readSigma input = .ok (x, rest)) : rest.length ≤ input.length := by
  unfold readSigma at h
  have := skipBlanks_length input
  split at h
  · cases h
  · next c tail hb =>
    split at h
    · obtain ⟨⟨text, more⟩, hs, h⟩ := ok_of_bind_eq_ok h
      obtain ⟨n, _, h⟩ := ok_of_bind_eq_ok h
      obtain ⟨_, rfl⟩ := Prod.mk.inj (Except.ok.inj h)
      have := scan_length hs
      rw [← hb] at this
      omega
    · cases h

theorem readNull_length {input rest : List Char} (h : readNull input = .ok rest) :
    rest.length ≤ input.length := by
  unfold readNull at h
  have := skipBlanks_length input
  split at h
  · cases h
  · next c tail hb =>
    split at h
    · have := skipWord_length h
      simp only [hb, List.length_cons] at *
      omega
    · cases h

theorem readTaggedTileMode_length {input rest : List Char} {mode : TileMode}
    (h : readTaggedTileMode input = .ok (mode, rest)) : rest.length ≤ input.length := by
  unfold readTaggedTileMode at h
  have hlt := skipBlanks_length input
  split at h
  · cases h
  · cases h
  · next tail hb =>
    obtain ⟨⟨name, r₁⟩, h₁, h⟩ := ok_of_bind_eq_ok h
    obtain ⟨m, _, h⟩ := ok_of_bind_eq_ok h
    obtain ⟨r₂, h₂, h⟩ := ok_of_bind_eq_ok h
    obtain ⟨r₃, h₃, h⟩ := ok_of_bind_eq_ok h
    have := readQuoted_length h₁
    have := skipColon_length h₂
    have := readNull_length h₃
    have hend := skipBlanks_length r₃
    simp only [hb, List.length_cons] at hlt
    split at h
    · next more he =>
      obtain ⟨_, rfl⟩ := Prod.mk.inj (Except.ok.inj h)
      simp only [he, List.length_cons] at hend
      omega
    · cases h
    · cases h
  · cases h

theorem readTileMode_length {input rest : List Char} {mode : TileMode}
    (h : readTileMode input = .ok (mode, rest)) : rest.length ≤ input.length := by
  unfold readTileMode at h
  have hlt := skipBlanks_length input
  split at h
  · cases h
  · next tail hb =>
    obtain ⟨⟨name, more⟩, hq, h⟩ := ok_of_bind_eq_ok h
    obtain ⟨m, _, h⟩ := ok_of_bind_eq_ok h
    obtain ⟨_, rfl⟩ := Prod.mk.inj (Except.ok.inj h)
    have := readQuoted_length hq
    simp only [hb, List.length_cons] at hlt
    omega
  · next tail hb =>
    have := readTaggedTileMode_length h
    simp only [hb, List.length_cons] at hlt
    omega
  · cases h

theorem read_length {field : Field} {draft draft' : Draft} {input rest : List Char}
    (h : field.read draft input = .ok (draft', rest)) : rest.length ≤ input.length := by
  cases field with
  | sigmaX =>
    obtain ⟨⟨x, tail⟩, hx, hr⟩ := ok_of_map_eq_ok h
    obtain ⟨_, rfl⟩ := Prod.mk.inj hr
    exact readSigma_length hx
  | sigmaY =>
    obtain ⟨⟨y, tail⟩, hy, hr⟩ := ok_of_map_eq_ok h
    obtain ⟨_, rfl⟩ := Prod.mk.inj hr
    exact readSigma_length hy
  | tileMode =>
    obtain ⟨⟨m, tail⟩, hm, hr⟩ := ok_of_map_eq_ok h
    obtain ⟨_, rfl⟩ := Prod.mk.inj hr
    exact readTileMode_length hm

theorem nextKey?_length {first : Bool} {input rest : List Char}
    (h : nextKey? first input = .ok (some rest)) : rest.length < input.length := by
  unfold nextKey? at h
  have hlt := skipBlanks_length input
  split at h
  · cases h
  · next c tail hb =>
    simp only [hb, List.length_cons] at hlt
    split at h
    · cases h
    split at h
    · split at h
      · cases h
        exact hlt
      · cases h
    split at h
    · have hmore := skipBlanks_length tail
      split at h
      · cases h
      · next d more hd =>
        simp only [hd, List.length_cons] at hmore
        split at h
        · cases h
          omega
        split at h
        · cases h
        · cases h
    · cases h

theorem readMember_length {draft draft' : Draft} {input rest : List Char}
    (h : readMember draft input = .ok (draft', rest)) : rest.length < input.length := by
  obtain ⟨⟨name, r₁⟩, h₁, h⟩ := ok_of_bind_eq_ok h
  have hq := readQuoted_length h₁
  dsimp only at h
  split at h
  · split at h
    · cases h
    · obtain ⟨r₂, h₂, h⟩ := ok_of_bind_eq_ok h
      have := skipColon_length h₂
      have := read_length h
      omega
  · obtain ⟨r₂, h₂, h⟩ := ok_of_bind_eq_ok h
    obtain ⟨r₃, h₃, h⟩ := ok_of_bind_eq_ok h
    obtain ⟨_, rfl⟩ := Prod.mk.inj (Except.ok.inj h)
    have := skipColon_length h₂
    have := skipValue_length h₃
    omega

/-! ## Documents -/

/-- Reads settings from the members of an object. -/
def readMembers (first : Bool) (draft : Draft) (input : List Char) :
    Except Json.Error (Draft × List Char) :=
  match hkey : nextKey? first input with
  | .error e => .error e
  | .ok none => .ok (draft, (skipBlanks input).drop 1)
  | .ok (some key) =>
    match hmember : readMember draft key with
    | .error e => .error e
    | .ok (draft, rest) =>
      have := nextKey?_length hkey
      have := readMember_length hmember
      readMembers false draft rest
termination_by input.length

/-- The settings at the front. -/
def readSettings (input : List Char) : Except Json.Error (Draft × List Char) :=
  match skipBlanks input with
  | [] => .error (.cutOff .value)
  | '[' :: rest => readElements true {} rest Field.all
  | '{' :: rest => readMembers true {} rest
  | c :: rest => .error (mismatch "struct BlurSettings" c rest)

/-- The settings that are the whole document. -/
def readDocument (input : List Char) : Except Json.Error Settings := do
  let (draft, rest) ← readSettings input
  if skipBlanks rest ≠ [] then throw .trailingCharacters
  return draft.settings

/-- The valid settings that a document gives. -/
def Settings.ofJson (document : String) : Except SettingsError Settings := do
  let settings ← (readDocument document.toList).mapError .document
  settings.validate
  return settings

end SeparableBlur

-- SUMMARY: Strings in a document: reading them, and skipping them.
import SeparableBlur.Json.Number

/-!
# Strings

Both readers start behind the opening quote. `readQuoted` gives the characters,
with escapes resolved; `skipQuoted` only finds the closing quote, and does not
look at what the escapes of code points stand for.
-/

namespace SeparableBlur.Json

/-! ## Escapes -/

/-- The value of a hexadecimal digit. -/
def hexValue? (c : Char) : Option Nat :=
  if c.isDigit then some (c.toNat - '0'.toNat)
  else if 'a' ≤ c ∧ c ≤ 'f' then some (c.toNat - 'a'.toNat + 10)
  else if 'A' ≤ c ∧ c ≤ 'F' then some (c.toNat - 'A'.toNat + 10)
  else none

/-- The value of four hexadecimal digits at the front. -/
def hexWord? : List Char → Option (Nat × List Char)
  | a :: b :: c :: d :: rest => do
    let a ← hexValue? a
    let b ← hexValue? b
    let c ← hexValue? c
    let d ← hexValue? d
    return (((a * 16 + b) * 16 + c) * 16 + d, rest)
  | _ => none

/-- The number of bytes that some characters are stored in. -/
def byteLength (cs : List Char) : Nat := (String.ofList cs).utf8ByteSize

/-- The four hexadecimal digits of an escape. The document is cut off if it has not even four
    more bytes. -/
def readHexWord (input : List Char) : Except Error (Nat × List Char) :=
  match hexWord? input with
  | some word => .ok word
  | none => .error (if byteLength input < 4 then .cutOff .string else .invalidEscape)

/-- Whether a code unit is the first half of a surrogate pair. -/
def isFirstSurrogate (n : Nat) : Bool := 0xD800 ≤ n && n < 0xDC00

/-- Whether a code unit is the second half of a surrogate pair. -/
def isSecondSurrogate (n : Nat) : Bool := 0xDC00 ≤ n && n < 0xE000

/-- The second half of a surrogate pair, with its escape. -/
def readSecondSurrogate : List Char → Except Error (Nat × List Char)
  | [] | ['\\'] => .error (.cutOff .string)
  | '\\' :: 'u' :: rest => do
    let (n, rest) ← readHexWord rest
    if isSecondSurrogate n then return (n, rest) else throw .unpairedSurrogate
  | _ => .error .unfinishedSurrogate

/-- The character that an escape of a code point stands for. -/
def readCodePoint (input : List Char) : Except Error (Char × List Char) := do
  let (n, rest) ← readHexWord input
  if isSecondSurrogate n then throw .unpairedSurrogate
  if isFirstSurrogate n then
    let (m, rest) ← readSecondSurrogate rest
    return (Char.ofNat (0x10000 + (n - 0xD800) * 0x400 + (m - 0xDC00)), rest)
  return (Char.ofNat n, rest)

/-- The character that a letter behind a backslash stands for. -/
def simpleEscape? : Char → Option Char
  | '"' => some '"'
  | '\\' => some '\\'
  | '/' => some '/'
  | 'b' => some '\x08'
  | 'f' => some '\x0c'
  | 'n' => some '\n'
  | 'r' => some '\r'
  | 't' => some '\t'
  | _ => none

/-- What stands behind a backslash. `codePoint` reads the digits of a code point. -/
def readEscape {β : Type} (simple : Char → β)
    (codePoint : List Char → Except Error (β × List Char)) : List Char → Except Error (β × List Char)
  | [] => .error (.cutOff .string)
  | 'u' :: rest => codePoint rest
  | c :: rest =>
    match simpleEscape? c with
    | some d => .ok (simple d, rest)
    | none => .error .invalidEscape

/-! ## What is read becomes shorter -/

theorem hexWord?_length {input rest : List Char} {n : Nat}
    (h : hexWord? input = some (n, rest)) : rest.length < input.length := by
  unfold hexWord? at h
  split at h
  · simp only [Option.bind_eq_bind, Option.bind_eq_some_iff, Option.pure_def, Option.some.injEq,
      Prod.mk.injEq] at h
    obtain ⟨_, _, _, _, _, _, _, _, _, rfl⟩ := h
    simp only [List.length_cons]
    omega
  · cases h

theorem readHexWord_length {input rest : List Char} {n : Nat}
    (h : readHexWord input = .ok (n, rest)) : rest.length < input.length := by
  unfold readHexWord at h
  split at h
  · next word hw =>
    cases h
    exact hexWord?_length hw
  · cases h

theorem readSecondSurrogate_length {input rest : List Char} {n : Nat}
    (h : readSecondSurrogate input = .ok (n, rest)) : rest.length < input.length := by
  unfold readSecondSurrogate at h
  split at h
  · cases h
  · cases h
  · next tail =>
    obtain ⟨⟨m, more⟩, hw, h⟩ := ok_of_bind_eq_ok h
    have := readHexWord_length hw
    dsimp only at h
    split at h
    · obtain ⟨rfl, rfl⟩ := Prod.mk.inj (Except.ok.inj h)
      simp only [List.length_cons]
      omega
    · cases h
  · cases h

theorem readCodePoint_length {input rest : List Char} {c : Char}
    (h : readCodePoint input = .ok (c, rest)) : rest.length < input.length := by
  obtain ⟨⟨n, tail⟩, hw, h⟩ := ok_of_bind_eq_ok h
  have htail := readHexWord_length hw
  dsimp only at h
  split at h
  · cases h
  · split at h
    · obtain ⟨⟨m, more⟩, hs, h⟩ := ok_of_bind_eq_ok h
      have := readSecondSurrogate_length hs
      obtain ⟨_, rfl⟩ := Prod.mk.inj (Except.ok.inj h)
      exact Nat.lt_trans this htail
    · obtain ⟨_, rfl⟩ := Prod.mk.inj (Except.ok.inj h)
      exact htail

theorem readEscape_length {β : Type} {simple : Char → β}
    {codePoint : List Char → Except Error (β × List Char)}
    (hc : ∀ {input rest b}, codePoint input = .ok (b, rest) → rest.length < input.length)
    {input rest : List Char} {b : β} (h : readEscape simple codePoint input = .ok (b, rest)) :
    rest.length < input.length := by
  unfold readEscape at h
  split at h
  · cases h
  · have := hc h
    simp only [List.length_cons]
    omega
  · split at h
    · cases h
      simp
    · cases h

/-! ## Strings -/

/-- What a string is made up of, up to its closing quote: `keep` makes something of a character
    that stands for itself, and `escape` reads what stands behind a backslash. -/
def scanQuoted {β : Type} (keep : Char → β) (escape : List Char → Except Error (β × List Char))
    (hescape : ∀ {input rest b}, escape input = .ok (b, rest) → rest.length < input.length) :
    List Char → Except Error (List β × List Char)
  | [] => .error (.cutOff .string)
  | c :: rest =>
    if c = '"' then .ok ([], rest)
    else if c = '\\' then
      match h : escape rest with
      | .error e => .error e
      | .ok (b, tail) =>
        have := hescape h
        (scanQuoted keep escape hescape tail).map fun (bs, tail) => (b :: bs, tail)
    else if c.toNat < 0x20 then .error .controlCharacter
    else (scanQuoted keep escape hescape rest).map fun (bs, tail) => (keep c :: bs, tail)
termination_by input => input.length

theorem scanQuoted_length {β : Type} {keep : Char → β}
    {escape : List Char → Except Error (β × List Char)}
    {hescape : ∀ {input rest b}, escape input = .ok (b, rest) → rest.length < input.length}
    {input rest : List Char} {bs : List β}
    (h : scanQuoted keep escape hescape input = .ok (bs, rest)) : rest.length < input.length := by
  fun_induction scanQuoted keep escape hescape input generalizing bs with
  | case1 => cases h
  | case2 tail =>
    obtain ⟨_, rfl⟩ := Prod.mk.inj (Except.ok.inj h)
    simp
  | case3 => cases h
  | case4 =>
    rename_i hlt ih
    obtain ⟨⟨units, r⟩, hu, hr⟩ := ok_of_map_eq_ok h
    obtain ⟨_, rfl⟩ := Prod.mk.inj hr
    have := ih hu
    simp only [List.length_cons]
    omega
  | case5 => cases h
  | case6 c tail _ _ _ ih =>
    obtain ⟨⟨units, r⟩, hu, hr⟩ := ok_of_map_eq_ok h
    obtain ⟨_, rfl⟩ := Prod.mk.inj hr
    exact Nat.lt_succ_of_lt (ih hu)

/-- The characters of a string, and the input behind its closing quote. -/
def readQuoted : List Char → Except Error (List Char × List Char) :=
  scanQuoted id (readEscape id readCodePoint) (readEscape_length readCodePoint_length)

/-- The digits of a code point, whatever it is. -/
def skipCodePoint (input : List Char) : Except Error (Unit × List Char) :=
  (readHexWord input).map fun (_, rest) => ((), rest)

theorem skipCodePoint_length {input rest : List Char} {u : Unit}
    (h : skipCodePoint input = .ok (u, rest)) : rest.length < input.length := by
  unfold skipCodePoint at h
  cases hw : readHexWord input with
  | error e => simp [hw, Except.map] at h
  | ok w =>
    have := readHexWord_length hw
    simp only [hw, Except.map] at h
    cases h
    exact this

/-- The input behind the closing quote of a string. -/
def skipQuoted (input : List Char) : Except Error (List Char) :=
  (scanQuoted (fun _ => ()) (readEscape (fun _ => ()) skipCodePoint)
    (readEscape_length skipCodePoint_length) input).map (·.2)

end SeparableBlur.Json

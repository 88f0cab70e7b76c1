-- SUMMARY: Skipping a value of any kind, nested however deeply.
import SeparableBlur.Json.Quoted

/-!
# Skipping values

A value that nobody asked for is only scanned to its end. The brackets that are
open form a stack, with the innermost on top: at a closing bracket it is popped,
and behind a comma the next value is due.
-/

namespace SeparableBlur.Json

/-! ## Blanks and words -/

def isBlank (c : Char) : Bool := c = ' ' || c = '\t' || c = '\n' || c = '\r'

/-- The input behind the blanks at the front. -/
def skipBlanks (input : List Char) : List Char := input.dropWhile isBlank

theorem skipBlanks_length (input : List Char) : (skipBlanks input).length ≤ input.length :=
  (List.dropWhile_sublist _).length_le

/-- The input behind a word. -/
def skipWord : List Char → List Char → Except Error (List Char)
  | [], input => .ok input
  | _ :: _, [] => .error (.cutOff .value)
  | c :: word, d :: rest => if c = d then skipWord word rest else .error .expectedWord

/-! ## Open brackets -/

/-- An open bracket. -/
inductive Frame where
  | list
  | object
deriving DecidableEq

def Frame.close : Frame → Char
  | list => ']'
  | object => '}'

/-- The error where neither a comma nor the closing bracket stands. -/
def Frame.expectedCommaOrEnd : Frame → Error
  | list => .expectedCommaOrListEnd
  | object => .expectedCommaOrObjectEnd

/-- The error where the document ends inside the brackets. -/
def Frame.cutOff : Frame → Error
  | list => .cutOff .list
  | object => .cutOff .object

/-- The colon behind a key. -/
def skipColon (input : List Char) : Except Error (List Char) :=
  match skipBlanks input with
  | ':' :: rest => .ok rest
  | [] => .error (.cutOff .object)
  | _ => .error .expectedColon

/-- A key and its colon. -/
def skipKey (input : List Char) : Except Error (List Char) :=
  match skipBlanks input with
  | '"' :: rest => do skipColon (← skipQuoted rest)
  | [] => .error (.cutOff .object)
  | _ => .error .keyMustBeString

/-- What is due before the next value inside the brackets. -/
def Frame.skipToValue (input : List Char) : Frame → Except Error (List Char)
  | list => .ok input
  | object => skipKey input

/-- Behind a value: closes brackets up to the next comma. Gives the brackets that are still open
    and the input at the next value; there is none once all brackets are closed. -/
def skipToNext : List Frame → List Char → Except Error (List Frame × List Char)
  | [], input => .ok ([], input)
  | frame :: frames, input =>
    match skipBlanks input with
    | [] => .error frame.cutOff
    | c :: rest =>
      if c = ',' then (frame.skipToValue rest).map (frame :: frames, ·)
      else if c = frame.close then skipToNext frames rest
      else .error frame.expectedCommaOrEnd

/-! ## Values -/

/-- A value without brackets. -/
def skipScalar (c : Char) (rest : List Char) : Except Error (List Char) :=
  if c = 'n' then skipWord "ull".toList rest
  else if c = 't' then skipWord "rue".toList rest
  else if c = 'f' then skipWord "alse".toList rest
  else if c = '"' then skipQuoted rest
  else if c = '-' ∨ c.isDigit then (NumberText.scan .invalidNumber (c :: rest)).map (·.2)
  else .error .expectedValue

/-- Behind an opening bracket: empty brackets are a whole value, and otherwise the first value in
    them is due. -/
def skipOpening (frame : Frame) (frames : List Frame) (input : List Char) :
    Except Error (List Frame × List Char) :=
  match skipBlanks input with
  | [] => .error frame.cutOff
  | c :: rest =>
    if c = frame.close then skipToNext frames rest
    else (frame.skipToValue (c :: rest)).map (frame :: frames, ·)

/-- The start of a value: a value without brackets, empty brackets, or the opening of others. -/
def skipStart (frames : List Frame) (input : List Char) : Except Error (List Frame × List Char) :=
  match skipBlanks input with
  | [] => .error (.cutOff .value)
  | c :: rest =>
    if c = '[' then skipOpening .list frames rest
    else if c = '{' then skipOpening .object frames rest
    else do skipToNext frames (← skipScalar c rest)

/-! ## What is skipped makes the input shorter -/

theorem skipWord_length {word input rest : List Char} (h : skipWord word input = .ok rest) :
    rest.length ≤ input.length := by
  induction word generalizing input with
  | nil => cases h; exact Nat.le_refl _
  | cons c word ih =>
    cases input with
    | nil => cases h
    | cons d tail =>
      simp only [skipWord] at h
      split at h
      · exact Nat.le_succ_of_le (ih h)
      · cases h

theorem skipQuoted_length {input rest : List Char} (h : skipQuoted input = .ok rest) :
    rest.length < input.length := by
  unfold skipQuoted at h
  obtain ⟨⟨units, tail⟩, hq, rfl⟩ := ok_of_map_eq_ok h
  exact @scanQuoted_length _ _ _ (readEscape_length skipCodePoint_length) _ _ _ hq

theorem skipColon_length {input rest : List Char} (h : skipColon input = .ok rest) :
    rest.length < input.length := by
  unfold skipColon at h
  have := skipBlanks_length input
  split at h
  · next hb =>
    cases h
    simp only [hb, List.length_cons] at this
    exact this
  · cases h
  · cases h

theorem skipKey_length {input rest : List Char} (h : skipKey input = .ok rest) :
    rest.length < input.length := by
  unfold skipKey at h
  have := skipBlanks_length input
  split at h
  · next hb =>
    obtain ⟨tail, hq, h⟩ := ok_of_bind_eq_ok h
    have := skipQuoted_length hq
    have := skipColon_length h
    simp only [hb, List.length_cons] at *
    omega
  · cases h
  · cases h

theorem skipToValue_length {frame : Frame} {input rest : List Char}
    (h : frame.skipToValue input = .ok rest) : rest.length ≤ input.length := by
  cases frame with
  | list => cases h; exact Nat.le_refl _
  | object => exact Nat.le_of_lt (skipKey_length h)

theorem skipToNext_length {frames frames' : List Frame} {input rest : List Char}
    (h : skipToNext frames input = .ok (frames', rest)) : rest.length ≤ input.length := by
  induction frames generalizing input with
  | nil => cases h; exact Nat.le_refl _
  | cons frame frames ih =>
    have := skipBlanks_length input
    simp only [skipToNext] at h
    split at h
    · cases h
    · next c tail hb =>
      simp only [hb, List.length_cons] at this
      split at h
      · obtain ⟨r, hv, hr⟩ := ok_of_map_eq_ok h
        obtain ⟨_, rfl⟩ := Prod.mk.inj hr
        have := skipToValue_length hv
        omega
      · split at h
        · have := ih h
          omega
        · cases h

theorem skipScalar_length {c : Char} {input rest : List Char}
    (h : skipScalar c input = .ok rest) : rest.length ≤ input.length := by
  unfold skipScalar at h
  split at h
  · exact skipWord_length h
  split at h
  · exact skipWord_length h
  split at h
  · exact skipWord_length h
  split at h
  · exact Nat.le_of_lt (skipQuoted_length h)
  split at h
  · obtain ⟨⟨t, tail⟩, hs, rfl⟩ := ok_of_map_eq_ok h
    exact Nat.le_of_lt_succ (scan_length hs)
  · cases h

theorem skipOpening_length {frame : Frame} {frames frames' : List Frame} {input rest : List Char}
    (h : skipOpening frame frames input = .ok (frames', rest)) : rest.length ≤ input.length := by
  unfold skipOpening at h
  have := skipBlanks_length input
  split at h
  · cases h
  · next c tail hb =>
    simp only [hb, List.length_cons] at this
    split at h
    · have := skipToNext_length h
      omega
    · obtain ⟨r, hv, hr⟩ := ok_of_map_eq_ok h
      obtain ⟨_, rfl⟩ := Prod.mk.inj hr
      exact Nat.le_trans (skipToValue_length hv) this

theorem skipStart_length {frames frames' : List Frame} {input rest : List Char}
    (h : skipStart frames input = .ok (frames', rest)) : rest.length < input.length := by
  unfold skipStart at h
  have := skipBlanks_length input
  split at h
  · cases h
  · next c tail hb =>
    simp only [hb, List.length_cons] at this
    split at h
    · have := skipOpening_length h
      omega
    split at h
    · have := skipOpening_length h
      omega
    obtain ⟨r, hs, h⟩ := ok_of_bind_eq_ok h
    have := skipScalar_length hs
    have := skipToNext_length h
    omega

/-! ## Whole values -/

/-- The input behind a value and everything that closes the open brackets around it. -/
def skipValues (frames : List Frame) (input : List Char) : Except Error (List Char) :=
  match h : skipStart frames input with
  | .error e => .error e
  | .ok ([], rest) => .ok rest
  | .ok (frame :: frames, rest) =>
    have := skipStart_length h
    skipValues (frame :: frames) rest
termination_by input.length

/-- The input behind a value. -/
def skipValue (input : List Char) : Except Error (List Char) := skipValues [] input

theorem skipValues_length {frames : List Frame} {input rest : List Char}
    (h : skipValues frames input = .ok rest) : rest.length < input.length := by
  fun_induction skipValues frames input with
  | case1 => cases h
  | case2 _ _ tail hs =>
    cases h
    exact skipStart_length hs
  | case3 =>
    rename_i hlt ih
    exact Nat.lt_trans (ih h) hlt

theorem skipValue_length {input rest : List Char} (h : skipValue input = .ok rest) :
    rest.length < input.length :=
  skipValues_length h

end SeparableBlur.Json

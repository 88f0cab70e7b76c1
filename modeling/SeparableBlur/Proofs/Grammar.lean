-- SUMMARY: The grammar of documents: strings are read as they spell their characters, and a value of any kind is skipped to its end.
import Mathlib.Data.List.DropRight
import SeparableBlur.Json.Skip
import SeparableBlur.Proofs.NumberLayout

/-!
# The grammar of documents

A document is a value with blanks around its parts: a word, a number, a string, or
brackets around items with commas between them. The items of a list are values, and
those of an object have a key and a colon in front. `Grammar` says so of a text, without
regard to how it is read.

A value that nobody asked for is skipped. However deeply it is nested, skipping ends
right behind it, with the brackets around it still open.
-/

namespace SeparableBlur

open Json NumberText

/-! ## Blanks -/

namespace Json

/-- Nothing but blanks. -/
def IsBlanks (cs : List Char) : Prop := ∀ c ∈ cs, isBlank c

variable {b rest : List Char} {c : Char}

theorem isBlanks_nil : IsBlanks [] := nofun

theorem isBlanks_space : IsBlanks [' '] := by simp [IsBlanks, isBlank]

theorem skipBlanks_append (hb : IsBlanks b) (rest : List Char) :
    skipBlanks (b ++ rest) = skipBlanks rest :=
  List.dropWhile_append_of_pos hb

theorem skipBlanks_cons (hc : isBlank c = false) (rest : List Char) :
    skipBlanks (c :: rest) = c :: rest :=
  List.dropWhile_cons_of_neg (by simp [hc])

theorem skipBlanks_append_cons (hb : IsBlanks b) (hc : isBlank c = false) (rest : List Char) :
    skipBlanks (b ++ c :: rest) = c :: rest := by
  rw [skipBlanks_append hb, skipBlanks_cons hc]

theorem skipBlanks_skipBlanks (input : List Char) :
    skipBlanks (skipBlanks input) = skipBlanks input :=
  List.dropWhile_idempotent isBlank input

/-- Behind a number come blanks, a comma, a closing bracket or nothing. -/
theorem endsNumber_append_cons (hb : IsBlanks b) (hc : c = ',' ∨ c = ']' ∨ c = '}') :
    EndsNumber (b ++ c :: rest) := by
  intro d hd
  cases b with
  | nil =>
    obtain rfl := Option.some.inj hd
    rcases hc with rfl | rfl | rfl <;> decide
  | cons e b =>
    obtain rfl := Option.some.inj hd
    have hblank := hb e (by simp)
    simp only [isBlank, Bool.or_eq_true, decide_eq_true_eq] at hblank
    rcases hblank with ((rfl | rfl) | rfl) | rfl <;> decide

theorem skipColon_append (hb : IsBlanks b) (rest : List Char) :
    skipColon (b ++ ':' :: rest) = .ok rest := by
  rw [skipColon, skipBlanks_append_cons hb (by decide)]
  rfl

end Json

/-! ## Numbers -/

/-- A number begins with its sign or with a digit. -/
theorem Json.NumberText.Writes.head {t : NumberText} {cs : List Char} (h : t.Writes cs) :
    ∃ c cs', cs = c :: cs' ∧ (c = '-' ∨ c.isDigit) := by
  obtain ⟨negative, whole, fraction, exponent⟩ := t
  obtain ⟨hform, -⟩ := h
  cases negative with
  | true => exact ⟨'-', _, rfl, .inl rfl⟩
  | false =>
    cases whole with
    | nil => exact absurd rfl hform.whole.ne_nil
    | cons c ds => exact ⟨c, _, rfl, .inr (hform.whole.isDigit c (by simp))⟩

theorem not_isBlank_of_head {c : Char} (h : c = '-' ∨ c.isDigit) : isBlank c = false := by
  by_contra hblank
  simp only [isBlank, Bool.not_eq_false, Bool.or_eq_true, decide_eq_true_eq] at hblank
  rcases hblank with ((rfl | rfl) | rfl) | rfl <;> revert h <;> decide

/-! ## Strings -/

/-- Whether a character stands for itself between quotes. -/
def isUnescaped (c : Char) : Bool := c ≠ '"' && c ≠ '\\' && 0x20 ≤ c.toNat

namespace Json

/-- Four hexadecimal digits that write a number. -/
inductive HexWord : Nat → List Char → Prop where
  | mk {a b c d : Char} {w x y z : Nat} :
      hexValue? a = some w → hexValue? b = some x → hexValue? c = some y → hexValue? d = some z →
      HexWord (((w * 16 + x) * 16 + y) * 16 + z) [a, b, c, d]

/-- What may stand between quotes. An escape may be half of a surrogate pair. -/
inductive IsQuoted : List Char → Prop where
  | nil : IsQuoted []
  | plain {c cs} : isUnescaped c → IsQuoted cs → IsQuoted (c :: cs)
  | escape {c d cs} : simpleEscape? c = some d → IsQuoted cs → IsQuoted ('\\' :: c :: cs)
  | codePoint {n word cs} : HexWord n word → IsQuoted cs → IsQuoted ('\\' :: 'u' :: (word ++ cs))

/-- The texts that spell some characters between quotes. Halves of surrogate pairs come in
    pairs. -/
inductive Spells : List Char → List Char → Prop where
  | nil : Spells [] []
  | plain {c cs name} : isUnescaped c → Spells cs name → Spells (c :: cs) (c :: name)
  | escape {c d cs name} : simpleEscape? c = some d → Spells cs name →
      Spells ('\\' :: c :: cs) (d :: name)
  | codePoint {n word cs name} : HexWord n word → isFirstSurrogate n = false →
      isSecondSurrogate n = false → Spells cs name →
      Spells ('\\' :: 'u' :: (word ++ cs)) (Char.ofNat n :: name)
  | pair {n m first second cs name} : HexWord n first → isFirstSurrogate n →
      HexWord m second → isSecondSurrogate m → Spells cs name →
      Spells ('\\' :: 'u' :: (first ++ '\\' :: 'u' :: (second ++ cs)))
        (Char.ofNat (0x10000 + (n - 0xD800) * 0x400 + (m - 0xDC00)) :: name)

theorem spells_self {cs : List Char} (h : cs.all isUnescaped) : Spells cs cs := by
  induction cs with
  | nil => exact .nil
  | cons c cs ih =>
    simp only [List.all_cons, Bool.and_eq_true] at h
    exact .plain h.1 (ih h.2)

section

variable {β : Type} {keep : Char → β} {escape : List Char → Except Error (β × List Char)}
  (hescape : ∀ {input rest b}, escape input = .ok (b, rest) → rest.length < input.length)
  {rest tail : List Char}

theorem scanQuoted_quote : scanQuoted keep escape hescape ('"' :: rest) = .ok ([], rest) := by
  rw [scanQuoted, if_pos rfl]

theorem scanQuoted_plain {c : Char} (hc : isUnescaped c) :
    scanQuoted keep escape hescape (c :: rest) =
      (scanQuoted keep escape hescape rest).map fun (bs, tail) => (keep c :: bs, tail) := by
  simp only [isUnescaped, Bool.and_eq_true, decide_eq_true_eq] at hc
  obtain ⟨⟨hquote, hbackslash⟩, hcontrol⟩ := hc
  rw [scanQuoted, if_neg hquote, if_neg hbackslash, if_neg hcontrol.not_gt]

theorem scanQuoted_escape {b : β} (h : escape rest = .ok (b, tail)) :
    scanQuoted keep escape hescape ('\\' :: rest) =
      (scanQuoted keep escape hescape tail).map fun (bs, tail) => (b :: bs, tail) := by
  rw [scanQuoted, if_neg (by decide), if_pos rfl]
  split
  · simp_all
  · next hok =>
    obtain ⟨rfl, rfl⟩ := Prod.mk.inj (Except.ok.inj (h.symm.trans hok))
    rfl

end

theorem HexWord.readHexWord {n : Nat} {word : List Char} (h : HexWord n word) (rest : List Char) :
    readHexWord (word ++ rest) = .ok (n, rest) := by
  cases h with
  | mk ha hb hc hd =>
    have hword (a b c d : Char) : hexWord? ([a, b, c, d] ++ rest) = do
        let a ← hexValue? a
        let b ← hexValue? b
        let c ← hexValue? c
        let d ← hexValue? d
        return (((a * 16 + b) * 16 + c) * 16 + d, rest) := rfl
    rw [Json.readHexWord, hword, ha, hb, hc, hd]
    rfl

theorem readEscape_simple {β : Type} {simple : Char → β}
    {codePoint : List Char → Except Error (β × List Char)} {c d : Char}
    (h : simpleEscape? c = some d) (rest : List Char) :
    readEscape simple codePoint (c :: rest) = .ok (simple d, rest) := by
  rw [readEscape.eq_def]
  split
  · next heq => cases heq
  · next heq =>
    obtain ⟨rfl, -⟩ := List.cons.inj heq
    cases h
  · next heq =>
    obtain ⟨rfl, rfl⟩ := List.cons.inj heq
    rw [h]

theorem readCodePoint_single {n : Nat} {word : List Char} (h : HexWord n word)
    (hfirst : isFirstSurrogate n = false) (hsecond : isSecondSurrogate n = false)
    (rest : List Char) : readCodePoint (word ++ rest) = .ok (Char.ofNat n, rest) := by
  simp only [readCodePoint, h.readHexWord, hfirst, hsecond, Bool.false_eq_true, if_false, bind,
    Except.bind, pure, Except.pure]

theorem readCodePoint_pair {n m : Nat} {first second : List Char} (hn : HexWord n first)
    (hfirst : isFirstSurrogate n) (hm : HexWord m second) (hsecond : isSecondSurrogate m)
    (rest : List Char) :
    readCodePoint (first ++ '\\' :: 'u' :: (second ++ rest)) =
      .ok (Char.ofNat (0x10000 + (n - 0xD800) * 0x400 + (m - 0xDC00)), rest) := by
  have hnot : isSecondSurrogate n = false := by
    simp only [isFirstSurrogate, isSecondSurrogate, Bool.and_eq_true, decide_eq_true_eq] at hfirst ⊢
    simp only [Bool.and_eq_false_iff, decide_eq_false_iff_not]
    omega
  have hread : readSecondSurrogate ('\\' :: 'u' :: (second ++ rest)) = .ok (m, rest) := by
    simp only [readSecondSurrogate, hm.readHexWord, hsecond, if_true, bind, Except.bind, pure,
      Except.pure]
  simp only [readCodePoint, hn.readHexWord, hfirst, hnot, hread, Bool.false_eq_true, if_false,
    if_true, bind, Except.bind, pure, Except.pure]

/-- A string is read as the characters that it spells. -/
theorem Spells.readQuoted {cs name : List Char} (h : Spells cs name) (rest : List Char) :
    readQuoted (cs ++ '"' :: rest) = .ok (name, rest) := by
  have hshorter {input rest c} (h : readEscape id readCodePoint input = .ok (c, rest)) :
      rest.length < input.length := readEscape_length readCodePoint_length h
  unfold Json.readQuoted
  induction h with
  | nil => exact scanQuoted_quote hshorter
  | plain hc _ ih =>
    rw [List.cons_append, scanQuoted_plain hshorter hc, ih]
    rfl
  | escape hc _ ih =>
    rw [List.cons_append, List.cons_append, scanQuoted_escape hshorter (readEscape_simple hc _), ih]
    rfl
  | @codePoint n word cs _ hword hfirst hsecond _ ih =>
    have hread : readEscape id readCodePoint ('u' :: (word ++ (cs ++ '"' :: rest))) = .ok (_, _) :=
      readCodePoint_single hword hfirst hsecond _
    rw [List.cons_append, List.cons_append, List.append_assoc, scanQuoted_escape hshorter hread, ih]
    rfl
  | @pair n m first second cs _ hn hfirst hm hsecond _ ih =>
    have hread : readEscape id readCodePoint
        ('u' :: (first ++ '\\' :: 'u' :: (second ++ (cs ++ '"' :: rest)))) = .ok (_, _) :=
      readCodePoint_pair hn hfirst hm hsecond _
    rw [List.cons_append, List.cons_append, List.append_assoc, List.cons_append, List.cons_append,
      List.append_assoc, scanQuoted_escape hshorter hread, ih]
    rfl

/-- A string that nobody asked for is skipped to its closing quote. -/
theorem IsQuoted.skipQuoted {cs : List Char} (h : IsQuoted cs) (rest : List Char) :
    skipQuoted (cs ++ '"' :: rest) = .ok rest := by
  have hshorter {input rest u}
      (h : readEscape (fun _ => ()) skipCodePoint input = .ok (u, rest)) :
      rest.length < input.length := readEscape_length skipCodePoint_length h
  have hscan : ∃ units, scanQuoted (fun _ => ()) (readEscape (fun _ => ()) skipCodePoint)
      (readEscape_length skipCodePoint_length) (cs ++ '"' :: rest) = .ok (units, rest) := by
    induction h with
    | nil => exact ⟨_, scanQuoted_quote hshorter⟩
    | plain hc _ ih =>
      obtain ⟨units, ih⟩ := ih
      rw [List.cons_append, scanQuoted_plain hshorter hc, ih]
      exact ⟨_, rfl⟩
    | escape hc _ ih =>
      obtain ⟨units, ih⟩ := ih
      rw [List.cons_append, List.cons_append,
        scanQuoted_escape hshorter (readEscape_simple hc _), ih]
      exact ⟨_, rfl⟩
    | @codePoint n word cs hword _ ih =>
      obtain ⟨units, ih⟩ := ih
      have hread : readEscape (fun _ => ()) skipCodePoint ('u' :: (word ++ (cs ++ '"' :: rest))) =
          .ok ((), cs ++ '"' :: rest) := by
        rw [readEscape, skipCodePoint, hword.readHexWord]
        rfl
      rw [List.cons_append, List.cons_append, List.append_assoc,
        scanQuoted_escape hshorter hread, ih]
      exact ⟨_, rfl⟩
  obtain ⟨units, hscan⟩ := hscan
  rw [Json.skipQuoted, hscan]
  rfl

end Json

/-! ## Values -/

namespace Json

/-- A value without brackets. -/
inductive IsScalar : List Char → Prop where
  | word {cs} : cs = "null".toList ∨ cs = "true".toList ∨ cs = "false".toList → IsScalar cs
  | number {t : NumberText} {cs} : t.Writes cs → IsScalar cs
  | string {cs} : IsQuoted cs → IsScalar ('"' :: (cs ++ ['"']))

def Frame.opening : Frame → Char
  | list => '['
  | object => '{'

/-- What stands in front of a value inside brackets: nothing, or a key and its colon. -/
inductive Lead : Frame → List Char → Prop where
  | list : Lead .list []
  | object {key b} : IsQuoted key → IsBlanks b → Lead .object ('"' :: (key ++ '"' :: (b ++ [':'])))

/-- A part of a document. -/
inductive Phrase where
  | value
  /-- What stands between brackets, up to the last value there. -/
  | items (frame : Frame)

/-- The texts of the parts of a document. -/
inductive Grammar : Phrase → List Char → Prop where
  | scalar {cs} : IsScalar cs → Grammar .value cs
  | empty {frame : Frame} {b} : IsBlanks b → Grammar .value (frame.opening :: (b ++ [frame.close]))
  | brackets {frame : Frame} {items b} : Grammar (.items frame) items → IsBlanks b →
      Grammar .value (frame.opening :: (items ++ (b ++ [frame.close])))
  | last {frame : Frame} {b lead b' value} : IsBlanks b → Lead frame lead → IsBlanks b' →
      Grammar .value value → Grammar (.items frame) (b ++ (lead ++ (b' ++ value)))
  | next {frame : Frame} {b lead b' value b'' items} : IsBlanks b → Lead frame lead → IsBlanks b' →
      Grammar .value value → IsBlanks b'' → Grammar (.items frame) items →
      Grammar (.items frame) (b ++ (lead ++ (b' ++ (value ++ (b'' ++ ',' :: items)))))

/-! ### Skipping -/

/-- The rest of the way once a value was begun: the next value, if one is due. -/
def skipOn : List Frame × List Char → Except Error (List Char)
  | ([], rest) => .ok rest
  | (frame :: frames, rest) => skipValues (frame :: frames) rest

theorem skipValues_eq_bind (frames : List Frame) (input : List Char) :
    skipValues frames input = skipStart frames input >>= skipOn := by
  rw [skipValues]
  split
  · next h => simp only [h, bind, Except.bind]
  · next h => simp only [h, bind, Except.bind, skipOn]
  · next h => simp only [h, bind, Except.bind, skipOn]

/-- Blanks before a value make no difference. -/
theorem skipValues_skipBlanks (frames : List Frame) (input : List Char) :
    skipValues frames (skipBlanks input) = skipValues frames input := by
  rw [skipValues_eq_bind, skipValues_eq_bind, skipStart, skipStart, skipBlanks_skipBlanks]

/-- A character that neither stands between values nor closes brackets. -/
structure Begins (c : Char) : Prop where
  notBlank : isBlank c = false
  notListEnd : c ≠ ']'
  notObjectEnd : c ≠ '}'

theorem Begins.ne_close {c : Char} (h : Begins c) (frame : Frame) : c ≠ frame.close := by
  cases frame with
  | list => exact h.notListEnd
  | object => exact h.notObjectEnd

theorem Frame.begins_opening (frame : Frame) : Begins frame.opening := by
  cases frame with
  | list => exact ⟨by decide, by decide, by decide⟩
  | object => exact ⟨by decide, by decide, by decide⟩

theorem begins_of_number {c : Char} (h : c = '-' ∨ c.isDigit) : Begins c := by
  refine ⟨not_isBlank_of_head h, ?_, ?_⟩
  · rintro rfl
    revert h
    decide
  · rintro rfl
    revert h
    decide

theorem skipScalar_number {c : Char} (h : c = '-' ∨ c.isDigit) (rest : List Char) :
    skipScalar c rest = (NumberText.scan .invalidNumber (c :: rest)).map (·.2) := by
  have hne (d : Char) (hd : ¬(d = '-' ∨ d.isDigit)) : c ≠ d := fun hcd => hd (hcd ▸ h)
  rw [skipScalar, if_neg (hne 'n' (by decide)), if_neg (hne 't' (by decide)),
    if_neg (hne 'f' (by decide)), if_neg (hne '"' (by decide)), if_pos h]

/-- A value without brackets is told by its first character, and skipped. -/
theorem IsScalar.skipScalar {cs rest : List Char} (h : IsScalar cs) (hrest : EndsNumber rest) :
    ∃ c cs', cs = c :: cs' ∧ Begins c ∧ c ≠ '[' ∧ c ≠ '{' ∧
      skipScalar c (cs' ++ rest) = .ok rest := by
  cases h with
  | word h =>
    rcases h with rfl | rfl | rfl
    · exact ⟨'n', "ull".toList, rfl, ⟨by decide, by decide, by decide⟩, by decide, by decide, rfl⟩
    · exact ⟨'t', "rue".toList, rfl, ⟨by decide, by decide, by decide⟩, by decide, by decide, rfl⟩
    · exact ⟨'f', "alse".toList, rfl, ⟨by decide, by decide, by decide⟩, by decide, by decide, rfl⟩
  | string h =>
    refine ⟨'"', _, rfl, ⟨by decide, by decide, by decide⟩, by decide, by decide, ?_⟩
    rw [List.append_assoc]
    exact h.skipQuoted rest
  | number h =>
    have hscan : scan .invalidNumber (cs ++ rest) = .ok (_, rest) := h.scan hrest
    obtain ⟨c, cs', rfl, hc⟩ := h.head
    have hne (d : Char) (hd : ¬(d = '-' ∨ d.isDigit)) : c ≠ d := fun hcd => hd (hcd ▸ hc)
    refine ⟨c, cs', rfl, begins_of_number hc, hne '[' (by decide), hne '{' (by decide), ?_⟩
    rw [List.cons_append] at hscan
    rw [skipScalar_number hc, hscan]
    rfl

/-- Every value begins with a character that belongs to it. -/
theorem Grammar.head_value {cs : List Char} (h : Grammar .value cs) :
    ∃ c cs', cs = c :: cs' ∧ Begins c := by
  cases h with
  | scalar h =>
    have hend : EndsNumber [] := nofun
    obtain ⟨c, cs', rfl, hc, -⟩ := h.skipScalar hend
    exact ⟨c, cs', rfl, hc⟩
  | empty => exact ⟨_, _, rfl, Frame.begins_opening _⟩
  | brackets => exact ⟨_, _, rfl, Frame.begins_opening _⟩

theorem Lead.head {frame : Frame} {lead : List Char} (h : Lead frame lead) {b value : List Char}
    (hb : IsBlanks b) (hvalue : Grammar .value value) (rest : List Char) :
    ∃ b' c cs, lead ++ (b ++ (value ++ rest)) = b' ++ c :: cs ∧ IsBlanks b' ∧ Begins c := by
  cases h with
  | list =>
    obtain ⟨c, cs, rfl, hc⟩ := hvalue.head_value
    exact ⟨b, c, _, rfl, hb, hc⟩
  | object => exact ⟨[], '"', _, rfl, isBlanks_nil, ⟨by decide, by decide, by decide⟩⟩

/-- What stands between brackets does not begin with the closing one. -/
theorem Grammar.head_items {frame : Frame} {cs : List Char} (h : Grammar (.items frame) cs)
    (rest : List Char) : ∃ c cs', skipBlanks (cs ++ rest) = c :: cs' ∧ Begins c := by
  have hhead {b lead b' value : List Char} (tail : List Char) (hb : IsBlanks b)
      (hlead : Lead frame lead) (hb' : IsBlanks b') (hvalue : Grammar .value value) :
      ∃ c cs', skipBlanks (b ++ (lead ++ (b' ++ (value ++ tail)))) = c :: cs' ∧ Begins c := by
    obtain ⟨b₀, c, cs', heq, hb₀, hc⟩ := hlead.head hb' hvalue tail
    rw [skipBlanks_append hb, heq, skipBlanks_append_cons hb₀ hc.notBlank]
    exact ⟨c, cs', rfl, hc⟩
  cases h with
  | last hb hlead hb' hvalue =>
    simpa only [List.append_assoc] using hhead rest hb hlead hb' hvalue
  | next hb hlead hb' hvalue =>
    simpa only [List.append_assoc] using hhead _ hb hlead hb' hvalue

/-- In front of a value inside brackets, what leads up to it is skipped. -/
theorem Lead.skipToValue {frame : Frame} {b lead b' : List Char} (h : Lead frame lead)
    (hb : IsBlanks b) (hb' : IsBlanks b') (tail : List Char) :
    ∃ b₀, IsBlanks b₀ ∧
      frame.skipToValue (b ++ (lead ++ (b' ++ tail))) = .ok (b₀ ++ tail) := by
  cases h with
  | list =>
    refine ⟨b ++ b', ?_, ?_⟩
    · intro c hc
      exact (List.mem_append.1 hc).elim (hb c) (hb' c)
    · rw [List.append_assoc]
      rfl
  | @object key bc hkey hbc =>
    refine ⟨b', hb', ?_⟩
    have hquote : skipBlanks (b ++ '"' :: (key ++ '"' :: (bc ++ ':' :: (b' ++ tail)))) =
        '"' :: (key ++ '"' :: (bc ++ ':' :: (b' ++ tail))) :=
      skipBlanks_append_cons hb (by decide) _
    have hskip : Frame.object.skipToValue
        (b ++ '"' :: (key ++ '"' :: (bc ++ ':' :: (b' ++ tail)))) = .ok (b' ++ tail) := by
      rw [Frame.skipToValue, skipKey, hquote]
      simp only [hkey.skipQuoted, skipColon_append hbc, bind, Except.bind]
    simpa only [List.cons_append, List.append_assoc, List.nil_append] using hskip

theorem skipToNext_close {frame : Frame} {b : List Char} (hb : IsBlanks b) (frames : List Frame)
    (rest : List Char) :
    skipToNext (frame :: frames) (b ++ frame.close :: rest) = skipToNext frames rest := by
  have hblank : isBlank frame.close = false := by cases frame <;> decide
  have hcomma : frame.close ≠ ',' := by cases frame <;> decide
  rw [skipToNext, skipBlanks_append_cons hb hblank]
  simp only [if_neg hcomma, if_true]

theorem skipToNext_comma {frame : Frame} {b : List Char} (hb : IsBlanks b) (frames : List Frame)
    (rest : List Char) :
    skipToNext (frame :: frames) (b ++ ',' :: rest) =
      (frame.skipToValue rest).map (frame :: frames, ·) := by
  rw [skipToNext, skipBlanks_append_cons hb (by decide)]
  rfl

theorem skipStart_opening {frame : Frame} {b : List Char} (hb : IsBlanks b) (frames : List Frame)
    (rest : List Char) :
    skipStart frames (b ++ frame.opening :: rest) = skipOpening frame frames rest := by
  rw [skipStart, skipBlanks_append_cons hb frame.begins_opening.notBlank]
  cases frame with
  | list => rfl
  | object => rfl

/-- Going on behind an opened bracket is going on with the first value inside. -/
theorem map_skipOn {frame : Frame} {frames : List Frame} (x : Except Error (List Char)) :
    x.map (frame :: frames, ·) >>= skipOn = x >>= skipValues (frame :: frames) := by
  cases x with
  | error e => rfl
  | ok rest => rfl

/-- Behind the opening bracket of some items, the first of them is due. -/
theorem skipOpening_items {frame : Frame} {items : List Char} (h : Grammar (.items frame) items)
    (frames : List Frame) (rest : List Char) :
    skipOpening frame frames (items ++ rest) >>= skipOn =
      frame.skipToValue (items ++ rest) >>= skipValues (frame :: frames) := by
  obtain ⟨c, cs, hcs, hc⟩ := h.head_items rest
  have hblanks : frame.skipToValue (c :: cs) >>= skipValues (frame :: frames) =
      frame.skipToValue (items ++ rest) >>= skipValues (frame :: frames) := by
    rw [← hcs]
    cases frame with
    | list => exact skipValues_skipBlanks _ _
    | object =>
      rw [Frame.skipToValue, Frame.skipToValue, skipKey, skipKey, skipBlanks_skipBlanks]
  rw [skipOpening, hcs]
  simp only [if_neg (hc.ne_close frame)]
  rw [map_skipOn, hblanks]

/-- Skipping ends right behind a value, and behind the items of brackets it comes to their end,
    whatever else is open and whatever comes next. -/
def Phrase.IsSkipped (cs : List Char) : Phrase → Prop
  | .value => ∀ frames b rest, IsBlanks b → EndsNumber rest →
      skipValues frames (b ++ (cs ++ rest)) = skipToNext frames rest >>= skipOn
  | .items frame => ∀ frames rest, EndsNumber rest →
      frame.skipToValue (cs ++ rest) >>= skipValues (frame :: frames) =
        skipToNext (frame :: frames) rest >>= skipOn

theorem Grammar.isSkipped {phrase : Phrase} {cs : List Char} (h : Grammar phrase cs) :
    phrase.IsSkipped cs := by
  induction h with
  | scalar h =>
    intro frames b rest hb hrest
    obtain ⟨c, cs', rfl, hc, hlist, hobject, hskip⟩ := h.skipScalar hrest
    rw [skipValues_eq_bind, skipStart, List.cons_append, skipBlanks_append_cons hb hc.notBlank]
    simp only [if_neg hlist, if_neg hobject, hskip, bind, Except.bind]
  | @empty frame b' hb' =>
    intro frames b rest hb hrest
    have hblank : isBlank frame.close = false := by cases frame <;> decide
    rw [skipValues_eq_bind, List.cons_append, skipStart_opening hb, List.append_assoc,
      List.singleton_append, skipOpening, skipBlanks_append_cons hb' hblank]
    simp only [if_true]
  | @brackets frame items b' hitems hb' ih =>
    intro frames b rest hb hrest
    have hclose : EndsNumber (b' ++ frame.close :: rest) :=
      endsNumber_append_cons hb' (by cases frame <;> decide)
    rw [skipValues_eq_bind, List.cons_append, skipStart_opening hb, List.append_assoc,
      List.append_assoc, List.singleton_append, skipOpening_items hitems, ih frames _ hclose,
      skipToNext_close hb']
  | @last frame b lead b' value hb hlead hb' hvalue ih =>
    intro frames rest hrest
    obtain ⟨b₀, hb₀, hskip⟩ := hlead.skipToValue hb hb' (value ++ rest)
    rw [← ih _ b₀ rest hb₀ hrest]
    simp only [List.append_assoc, hskip]
    rfl
  | @next frame b lead b' value b'' items hb hlead hb' hvalue hb'' hitems ihvalue ihitems =>
    intro frames rest hrest
    have hcomma : EndsNumber (b'' ++ ',' :: (items ++ rest)) :=
      endsNumber_append_cons hb'' (.inl rfl)
    obtain ⟨b₀, hb₀, hskip⟩ := hlead.skipToValue hb hb' (value ++ (b'' ++ ',' :: (items ++ rest)))
    have hvalue : skipValues (frame :: frames) (b₀ ++ (value ++ (b'' ++ ',' :: (items ++ rest)))) =
        frame.skipToValue (items ++ rest) >>= skipValues (frame :: frames) := by
      rw [ihvalue _ b₀ _ hb₀ hcomma, skipToNext_comma hb'', map_skipOn]
    rw [← ihitems frames rest hrest, ← hvalue]
    simp only [List.append_assoc, List.cons_append, hskip]
    rfl

/-- A value is skipped to its end. -/
theorem Grammar.skipValue {b cs rest : List Char} (h : Grammar .value cs) (hb : IsBlanks b)
    (hrest : EndsNumber rest) : skipValue (b ++ (cs ++ rest)) = .ok rest :=
  h.isSkipped [] b rest hb hrest

end Json

end SeparableBlur

-- SUMMARY: Numbers that are written follow the grammar, and their parts are found again by reading.
import SeparableBlur.Decimal.Text
import SeparableBlur.Proofs.ReadBack

/-!
# Number texts

`NumberText.text` puts the parts of a number together, and `NumberText.scan`
takes them apart again, as long as they follow the grammar and nothing behind
the number could belong to it. Each layout of a decimal is such a text, and its
digits and powers of ten are those of the decimal.
-/

namespace SeparableBlur

namespace Json.NumberText

/-! ## The grammar -/

/-- Digits, and at least one. -/
structure IsDigits (ds : List Char) : Prop where
  ne_nil : ds ≠ []
  isDigit : ∀ c ∈ ds, c.isDigit

theorem IsDigits.take {ds : List Char} {n : Nat} (h : IsDigits ds) (hn : 0 < n) :
    IsDigits (ds.take n) :=
  ⟨by simp [h.ne_nil, hn.ne'], fun c hc => h.isDigit c (List.mem_of_mem_take hc)⟩

theorem IsDigits.drop {ds : List Char} {n : Nat} (h : IsDigits ds) (hn : n < ds.length) :
    IsDigits (ds.drop n) :=
  ⟨by simpa using hn, fun c hc => h.isDigit c (List.mem_of_mem_drop hc)⟩

/-- The parts of a number that follow the grammar. -/
structure WellFormed (t : NumberText) : Prop where
  whole : IsDigits t.whole
  leading : t.whole.head? = some '0' → t.whole.length = 1
  fraction : ∀ ds ∈ t.fraction, IsDigits ds
  exponent : ∀ e ∈ t.exponent, IsDigits e.2

/-- The end of a number: nothing that could belong to one comes next. -/
def EndsNumber (rest : List Char) : Prop :=
  ∀ c ∈ rest.head?, c.isDigit = false ∧ c ≠ '.' ∧ c ≠ 'e' ∧ c ≠ 'E'

def fractionText : Option (List Char) → List Char
  | none => []
  | some ds => '.' :: ds

def exponentText : Option (Bool × List Char) → List Char
  | none => []
  | some (negative, ds) => 'e' :: (if negative then '-' else '+') :: ds

/-- The text of a number, with a sign in front of every exponent. -/
def text (t : NumberText) : List Char :=
  (if t.negative then ['-'] else []) ++ (t.whole ++ (fractionText t.fraction ++ exponentText t.exponent))

/-- The texts of an exponent. The mark is a letter in either case, and a positive sign may be left
    out. -/
inductive WritesExponent : Option (Bool × List Char) → List Char → Prop where
  | none : WritesExponent none []
  | unsigned {mark ds} : mark = 'e' ∨ mark = 'E' → WritesExponent (some (false, ds)) (mark :: ds)
  | positive {mark ds} : mark = 'e' ∨ mark = 'E' →
      WritesExponent (some (false, ds)) (mark :: '+' :: ds)
  | negative {mark ds} : mark = 'e' ∨ mark = 'E' →
      WritesExponent (some (true, ds)) (mark :: '-' :: ds)

/-- The texts of a number that follows the grammar. -/
inductive Writes (t : NumberText) : List Char → Prop where
  | mk {exponent} : t.WellFormed → WritesExponent t.exponent exponent →
      Writes t ((if t.negative then ['-'] else []) ++
        (t.whole ++ (fractionText t.fraction ++ exponent)))

theorem writesExponent_exponentText (exponent : Option (Bool × List Char)) :
    WritesExponent exponent (exponentText exponent) := by
  cases exponent with
  | none => exact .none
  | some e =>
    obtain ⟨negative, ds⟩ := e
    cases negative with
    | true => exact .negative (.inl rfl)
    | false => exact .positive (.inl rfl)

theorem WellFormed.writes {t : NumberText} (h : t.WellFormed) : t.Writes t.text :=
  .mk h (writesExponent_exponentText t.exponent)

/-! ## Scanning a text -/

variable {cutOff : Error} {rest ds : List Char}

theorem scanDigits_append (h : IsDigits ds) (hrest : ∀ c ∈ rest.head?, c.isDigit = false) :
    scanDigits cutOff (ds ++ rest) = .ok (ds, rest) := by
  cases ds with
  | nil => exact absurd rfl h.ne_nil
  | cons c ds =>
    have hc := h.isDigit c (by simp)
    have hds : ∀ d ∈ ds, d.isDigit := fun d hd => h.isDigit d (by simp [hd])
    have hrest' : rest.takeWhile Char.isDigit = [] ∧ rest.dropWhile Char.isDigit = rest := by
      cases rest with
      | nil => exact ⟨rfl, rfl⟩
      | cons d rest =>
        have hd : d.isDigit = false := hrest d rfl
        simp [hd]
    simp only [scanDigits, List.cons_append, hc, if_true]
    rw [List.takeWhile_append_of_pos hds, List.dropWhile_append_of_pos hds, hrest'.1, hrest'.2,
      List.append_nil]

theorem scanWhole_append (h : IsDigits ds) (hleading : ds.head? = some '0' → ds.length = 1)
    (hrest : ∀ c ∈ rest.head?, c.isDigit = false) :
    scanWhole cutOff (ds ++ rest) = .ok (ds, rest) := by
  rw [scanWhole, scanDigits_append h hrest]
  exact if_neg fun hzero => hzero.2 (hleading hzero.1)

theorem scanFraction_text {fraction : Option (List Char)} (h : ∀ ds ∈ fraction, IsDigits ds)
    (hrest : ∀ c ∈ rest.head?, c.isDigit = false ∧ c ≠ '.') :
    scanFraction cutOff (fractionText fraction ++ rest) = .ok (fraction, rest) := by
  cases fraction with
  | none =>
    rw [fractionText, List.nil_append, scanFraction.eq_def]
    split
    · exact absurd rfl (hrest '.' rfl).2
    · rfl
  | some ds =>
    rw [fractionText, List.cons_append, scanFraction,
      scanDigits_append (h ds rfl) fun c hc => (hrest c hc).1]
    rfl

theorem scanSign_append (h : IsDigits ds) : scanSign (ds ++ rest) = (false, ds ++ rest) := by
  cases ds with
  | nil => exact absurd rfl h.ne_nil
  | cons c ds =>
    have hc := h.isDigit c (by simp)
    rw [List.cons_append, scanSign.eq_def]
    split
    · next heq =>
      obtain ⟨rfl, -⟩ := List.cons.inj heq
      exact absurd hc (by decide)
    · next heq =>
      obtain ⟨rfl, -⟩ := List.cons.inj heq
      exact absurd hc (by decide)
    · rfl

theorem scanExponent_append {exponent : Option (Bool × List Char)} {cs : List Char}
    (hcs : WritesExponent exponent cs) (h : ∀ e ∈ exponent, IsDigits e.2)
    (hrest : ∀ c ∈ rest.head?, c.isDigit = false ∧ c ≠ 'e' ∧ c ≠ 'E') :
    scanExponent cutOff (cs ++ rest) = .ok (exponent, rest) := by
  have hscan {ds : List Char} (hds : IsDigits ds) :
      scanDigits cutOff (ds ++ rest) = .ok (ds, rest) :=
    scanDigits_append hds fun c hc => (hrest c hc).1
  cases hcs with
  | none =>
    cases rest with
    | nil => rfl
    | cons c rest =>
      obtain ⟨-, he, hE⟩ := hrest c rfl
      exact if_neg (by simp [he, hE])
  | unsigned hmark =>
    have hds := h _ rfl
    simp only [List.cons_append, scanExponent, if_pos hmark, scanSign_append hds, hscan hds, bind,
      Except.bind, pure, Except.pure]
  | positive hmark | negative hmark =>
    simp only [List.cons_append, scanExponent, if_pos hmark, scanSign, hscan (h _ rfl), bind,
      Except.bind, pure, Except.pure]

theorem head?_fractionText {fraction : Option (List Char)} {c : Char}
    (h : c ∈ (fractionText fraction ++ rest).head?) : c = '.' ∨ c ∈ rest.head? := by
  cases fraction with
  | none => exact .inr h
  | some ds => exact .inl (Option.some.inj h).symm

theorem WritesExponent.head? {exponent : Option (Bool × List Char)} {cs : List Char}
    (h : WritesExponent exponent cs) {c : Char} (hc : c ∈ (cs ++ rest).head?) :
    (c = 'e' ∨ c = 'E') ∨ c ∈ rest.head? := by
  cases h with
  | none => exact .inr hc
  | unsigned hmark | positive hmark | negative hmark =>
    obtain rfl := Option.some.inj hc
    exact .inl hmark

theorem IsDigits.head?_ne_minus (h : IsDigits ds) : (ds ++ rest).head? ≠ some '-' := by
  cases ds with
  | nil => exact absurd rfl h.ne_nil
  | cons c ds =>
    intro hc
    obtain rfl : c = '-' := Option.some.inj hc
    exact absurd (h.isDigit '-' (by simp)) (by decide)

/-- A text that follows the grammar is taken apart into its parts. -/
theorem Writes.scan {t : NumberText} {cs : List Char} (h : t.Writes cs) (hrest : EndsNumber rest) :
    scan cutOff (cs ++ rest) = .ok (t, rest) := by
  obtain ⟨negative, whole, fraction, exponent⟩ := t
  obtain ⟨hform, hwrites⟩ := h
  rename_i e
  have hmark {c : Char} (h : c = 'e' ∨ c = 'E') : c.isDigit = false ∧ c ≠ '.' := by
    rcases h with rfl | rfl <;> decide
  have hexponent : scanExponent cutOff (e ++ rest) = .ok (exponent, rest) :=
    scanExponent_append hwrites hform.exponent fun c hc => by
      obtain ⟨hdigit, -, he⟩ := hrest c hc
      exact ⟨hdigit, he⟩
  have hfraction : scanFraction cutOff (fractionText fraction ++ (e ++ rest)) =
      .ok (fraction, e ++ rest) :=
    scanFraction_text hform.fraction fun c hc => by
      rcases hwrites.head? hc with hc | hc
      · exact hmark hc
      · exact ⟨(hrest c hc).1, (hrest c hc).2.1⟩
  have hwhole : scanWhole cutOff (whole ++ (fractionText fraction ++ (e ++ rest))) =
      .ok (whole, fractionText fraction ++ (e ++ rest)) :=
    scanWhole_append hform.whole hform.leading fun c hc => by
      rcases head?_fractionText hc with rfl | hc
      · decide
      · rcases hwrites.head? hc with hc | hc
        · exact (hmark hc).1
        · exact (hrest c hc).1
  have hhead : (whole ++ (fractionText fraction ++ (e ++ rest))).head? ≠ some '-' :=
    hform.whole.head?_ne_minus
  cases negative with
  | true =>
    simp only [NumberText.scan, if_true, List.cons_append, List.nil_append, List.append_assoc,
      List.head?_cons, List.drop_one, List.tail_cons, hwhole, bind, Except.bind, hfraction,
      hexponent, pure, Except.pure, decide_true]
  | false =>
    simp only [NumberText.scan, Bool.false_eq_true, if_false, List.nil_append, List.append_assoc,
      hhead, hwhole, bind, Except.bind, hfraction, hexponent, pure, Except.pure, decide_false]

/-! ## The value of a text -/

theorem digitsValue_eq (ds : List Char) : digitsValue ds = Nat.ofDigitChars 10 ds 0 := by
  simp only [digitsValue, digitValue, Nat.ofDigitChars_eq_foldl, Nat.mul_comm]

theorem le_ofDigitChars (n : Nat) (ds : List Char) : n ≤ Nat.ofDigitChars 10 ds n := by
  rw [Nat.ofDigitChars_eq_ofDigitChars_zero]
  have : n ≤ 10 ^ ds.length * n := Nat.le_mul_of_pos_left n (by positivity)
  omega

/-- Digits that fit are all taken. -/
theorem absorb_eq {n : Nat} (h : Nat.ofDigitChars 10 ds n < UInt64.size) :
    absorb n ds = (Nat.ofDigitChars 10 ds n, ds.length) := by
  induction ds generalizing n with
  | nil => rfl
  | cons c ds ih =>
    have hnext : n * 10 + digitValue c = 10 * n + (c.toNat - '0'.toNat) := by
      rw [digitValue, Nat.mul_comm]
    rw [Nat.ofDigitChars_cons, ← hnext] at h
    have hfits := (le_ofDigitChars (n * 10 + digitValue c) ds).trans_lt h
    simp only [absorb, if_pos hfits, ih h, List.length_cons]
    rw [Nat.ofDigitChars_cons, hnext]

/-- The digits of a number that is not an integer, and the power of ten behind them. -/
structure Stands (t : NumberText) (n : Nat) (e : Int) : Prop where
  notPlain : t.isPlain = false
  digits : Nat.ofDigitChars 10 (t.whole ++ t.fraction.getD []) 0 = n
  exponent : t.writtenExponent - (t.fraction.getD []).length = e

open Binary in
/-- The value of a text with few digits is its reading in 64 bits. -/
theorem Stands.value_eq {t : NumberText} {n : Nat} {e : Int} (h : t.Stands n e) (hn : n ≤ 2 ^ 53)
    (he : -45 ≤ e) (he' : e ≤ 45) :
    t.value = .ok (.real (if t.negative then -round false (n * readingFactor e)
      else round false (n * readingFactor e))) := by
  have hsize : n < UInt64.size := hn.trans_lt (by decide)
  obtain ⟨hplain, hdigits, hexponent⟩ := h
  rw [Nat.ofDigitChars_append] at hdigits
  have hwhole : absorb 0 t.whole = (Nat.ofDigitChars 10 t.whole 0, t.whole.length) := by
    refine absorb_eq (lt_of_le_of_lt ?_ hsize)
    rw [← hdigits]
    exact le_ofDigitChars _ _
  have hfraction : absorb (Nat.ofDigitChars 10 t.whole 0) (t.fraction.getD []) =
      (n, (t.fraction.getD []).length) := by
    rw [absorb_eq (by rwa [hdigits]), hdigits]
  have hshift : ((t.whole.length - t.whole.length : Nat) : Int) - (t.fraction.getD []).length +
      t.writtenExponent = e := by omega
  simp only [value, hwhole, hplain, Bool.false_eq_true, false_and, if_false, hfraction, hshift]
  rcases le_or_gt 0 e with hpos | hneg
  · obtain ⟨k, rfl⟩ := Int.eq_ofNat_of_zero_le hpos
    rw [if_pos hpos, Int.toNat_natCast, scaleUp_eq hn (by omega)]
    rfl
  · obtain ⟨k, hk⟩ := Int.eq_ofNat_of_zero_le (show 0 ≤ -e by omega)
    rw [if_neg hneg.not_ge, hk, Int.toNat_natCast, scaleDown_eq hn (by omega), ← hk, neg_neg]
    rfl

end Json.NumberText

namespace Decimal

open Json NumberText

/-! ## The layouts of a decimal -/

/-- The digits of a decimal. -/
def text (d : Decimal) : List Char := Nat.toDigits 10 d.digits

theorem toList_toString (d : Decimal) : (toString d.digits).toList = d.text := by
  rw [Nat.toString_eq_repr, Nat.toList_repr, text]

theorem length_toString (d : Decimal) : (toString d.digits).length = d.text.length := by
  rw [← toList_toString, String.length_toList]

/-- The parts of a decimal that is written without an exponent. -/
def positionalText (negative : Bool) (d : Decimal) : NumberText :=
  let whole := d.text.length + d.exponent
  if 0 ≤ d.exponent then
    ⟨negative, d.text ++ List.replicate d.exponent.toNat '0', some ['0'], none⟩
  else if 0 < whole then
    ⟨negative, d.text.take whole.toNat, some (d.text.drop whole.toNat), none⟩
  else ⟨negative, ['0'], some (List.replicate (-whole).toNat '0' ++ d.text), none⟩

/-- The parts of a decimal that is written with an exponent. -/
def scientificText (negative : Bool) (d : Decimal) : NumberText :=
  let exponent := d.exponent + (d.text.length - 1)
  ⟨negative, d.text.take 1, if d.text.length = 1 then none else some (d.text.drop 1),
    some (decide (exponent < 0), Nat.toDigits 10 exponent.natAbs)⟩

def documentText (negative : Bool) (d : Decimal) : NumberText :=
  let leading := d.exponent + (d.text.length - 1)
  if -6 ≤ leading ∧ leading ≤ 12 then d.positionalText negative else d.scientificText negative

/-- The sign of a number and its text. -/
def signed (negative : Bool) (text : String) : List Char :=
  (if negative then ['-'] else []) ++ text.toList

theorem text_positionalText (negative : Bool) (d : Decimal) :
    (d.positionalText negative).text = signed negative (d.writePositional true) := by
  simp only [writePositional, toList_toString, positionalText, signed, NumberText.text]
  split_ifs <;> simp [fractionText, exponentText]

theorem text_scientificText (negative : Bool) (d : Decimal) :
    (d.scientificText negative).text = signed negative d.writeScientific := by
  simp only [writeScientific, toList_toString, scientificText, signed, NumberText.text]
  generalize d.exponent + (d.text.length - 1) = e
  congr 1
  by_cases hone : d.text.length = 1 <;> by_cases hneg : e < 0 <;>
    simp [fractionText, exponentText, hone, hneg]

theorem text_documentText (negative : Bool) (d : Decimal) :
    (d.documentText negative).text = signed negative (d.write .document) := by
  simp only [write, documentText, NumberStyle.document, length_toString]
  split
  · exact d.text_positionalText negative
  · exact d.text_scientificText negative

/-! ## The layouts follow the grammar -/

theorem isDigits_toDigits (n : Nat) : IsDigits (Nat.toDigits 10 n) :=
  ⟨Nat.toDigits_ne_nil, fun _ => Nat.isDigit_of_mem_toDigits (by decide) (by decide)⟩

/-- Only zero begins with a zero. -/
theorem eq_zero_of_head?_toDigits (n : Nat) (h : (Nat.toDigits 10 n).head? = some '0') : n = 0 := by
  induction n using Nat.strong_induction_on with
  | _ n ih =>
    rw [Nat.toDigits_eq_if (by decide)] at h
    split at h
    · simpa using h
    · next hge =>
      rw [List.head?_append_of_ne_nil _ Nat.toDigits_ne_nil] at h
      have := ih (n / 10) (by omega) h
      omega

theorem length_text_pos (d : Decimal) : 0 < d.text.length := Nat.length_toDigits_pos

theorem isDigits_text (d : Decimal) : IsDigits d.text := isDigits_toDigits _

theorem isDigits_zero : IsDigits ['0'] := isDigits_toDigits 0

theorem isDigit_replicate {n : Nat} {c : Char} (h : c ∈ List.replicate n '0') : c.isDigit := by
  rw [List.eq_of_mem_replicate h]
  decide

theorem wellFormed_positionalText (negative : Bool) {d : Decimal}
    (hd : d.digits = 0 → d.exponent = 0) : (d.positionalText negative).WellFormed := by
  have hdigits := d.isDigits_text.isDigit
  have hhead : d.text.head? = some '0' → d.digits = 0 := eq_zero_of_head?_toDigits d.digits
  rw [positionalText]
  split_ifs with hexp hwhole
  · refine ⟨⟨by simp [d.isDigits_text.ne_nil], ?_⟩, ?_, ?_, nofun⟩
    · intro c hc
      exact (List.mem_append.1 hc).elim (hdigits c) isDigit_replicate
    · intro hzero
      rw [List.head?_append_of_ne_nil _ d.isDigits_text.ne_nil] at hzero
      have h0 := hhead hzero
      simp [text, hd h0, h0]
    · rintro ds ⟨⟩
      exact isDigits_zero
  · refine ⟨d.isDigits_text.take (by omega), ?_, ?_, nofun⟩
    · intro hzero
      rw [List.head?_take, if_neg (by omega)] at hzero
      have := hd (hhead hzero)
      omega
    · rintro ds ⟨⟩
      exact d.isDigits_text.drop (by omega)
  · refine ⟨isDigits_zero, fun _ => rfl, ?_, nofun⟩
    rintro ds ⟨⟩
    refine ⟨by simp [d.isDigits_text.ne_nil], fun c hc => ?_⟩
    exact (List.mem_append.1 hc).elim isDigit_replicate (hdigits c)

theorem wellFormed_scientificText (negative : Bool) (d : Decimal) :
    (d.scientificText negative).WellFormed := by
  have hlen := d.length_text_pos
  refine ⟨d.isDigits_text.take one_pos, fun _ => ?_, ?_, ?_⟩
  · simp only [scientificText, List.length_take]
    omega
  · intro ds hds
    rw [scientificText] at hds
    dsimp only at hds
    split at hds
    · cases hds
    · obtain rfl := Option.some.inj hds
      exact d.isDigits_text.drop (by omega)
  · rintro e ⟨⟩
    exact isDigits_toDigits _

theorem wellFormed_documentText (negative : Bool) {d : Decimal}
    (hd : d.digits = 0 → d.exponent = 0) : (d.documentText negative).WellFormed := by
  simp only [documentText]
  split
  · exact wellFormed_positionalText negative hd
  · exact d.wellFormed_scientificText negative

/-! ## What the layouts stand for -/

theorem ofDigitChars_text (d : Decimal) : Nat.ofDigitChars 10 d.text 0 = d.digits :=
  Nat.ofDigitChars_ten_toDigits

theorem stands_positionalText (negative : Bool) (d : Decimal) :
    (d.positionalText negative).Stands
      (if 0 ≤ d.exponent then d.digits * 10 ^ (d.exponent.toNat + 1) else d.digits)
      (if 0 ≤ d.exponent then -1 else d.exponent) := by
  have hdigits := d.ofDigitChars_text
  simp only [positionalText]
  split_ifs with hexp hwhole
  · refine ⟨rfl, ?_, rfl⟩
    simp [Nat.ofDigitChars_append, hdigits, Nat.ofDigitChars_cons, pow_succ]
    ring
  · refine ⟨rfl, ?_, ?_⟩
    · simp [hdigits]
    · simp [writtenExponent]
      omega
  · refine ⟨rfl, ?_, ?_⟩
    · simp [Nat.ofDigitChars_cons, Nat.ofDigitChars_append, hdigits]
    · simp [writtenExponent]
      omega

/-- An exponent is written as its sign and its size. -/
theorem writtenExponent_eq {t : NumberText} {e : Int}
    (h : t.exponent = some (decide (e < 0), Nat.toDigits 10 e.natAbs)) : t.writtenExponent = e := by
  have hvalue : digitsValue (Nat.toDigits 10 e.natAbs) = e.natAbs := by
    rw [digitsValue_eq, Nat.ofDigitChars_ten_toDigits]
  rcases lt_or_ge e 0 with hneg | hpos
  · rw [decide_eq_true hneg] at h
    simp only [writtenExponent, h, hvalue]
    omega
  · rw [decide_eq_false hpos.not_gt] at h
    simp only [writtenExponent, h, hvalue]
    omega

theorem stands_scientificText (negative : Bool) (d : Decimal) :
    (d.scientificText negative).Stands d.digits d.exponent := by
  have hdigits := d.ofDigitChars_text
  have hlen := d.length_text_pos
  have hexponent : (d.scientificText negative).writtenExponent = d.exponent + (d.text.length - 1) :=
    writtenExponent_eq rfl
  by_cases hone : d.text.length = 1
  · have hfraction : (d.scientificText negative).fraction = none := if_pos hone
    refine ⟨by simp [isPlain, scientificText], ?_, ?_⟩
    · rw [hfraction, Option.getD_none, List.append_nil]
      rwa [scientificText, List.take_of_length_le hone.le]
    · rw [hexponent, hfraction, hone]
      simp
  · have hfraction : (d.scientificText negative).fraction = some (d.text.drop 1) := if_neg hone
    refine ⟨by simp [isPlain, scientificText], ?_, ?_⟩
    · rw [hfraction, Option.getD_some]
      rwa [scientificText, List.take_append_drop]
    · rw [hexponent, hfraction, Option.getD_some, List.length_drop]
      omega

theorem negative_documentText (negative : Bool) (d : Decimal) :
    (d.documentText negative).negative = negative := by
  simp only [documentText, positionalText, scientificText]
  split_ifs <;> rfl

/-- Where zeros are written out, there are few digits, and the powers of ten are exact. -/
private theorem reading_of_positional {d : Decimal} (hexp : 0 ≤ d.exponent)
    (hlayout : d.exponent + (d.text.length - 1) ≤ 12) :
    d.digits * 10 ^ (d.exponent.toNat + 1) ≤ 2 ^ 53 ∧
      (d.digits * 10 ^ (d.exponent.toNat + 1) : Nat) * readingFactor (-1) = d.reading := by
  have hlen := d.length_text_pos
  obtain ⟨n, hn⟩ := Int.eq_ofNat_of_zero_le hexp
  rw [hn, Int.toNat_natCast]
  constructor
  · have hlt : d.digits < 10 ^ d.text.length := d.length_toString ▸ Format.lt_pow_length_toString d.digits
    calc d.digits * 10 ^ (n + 1) ≤ 10 ^ d.text.length * 10 ^ (n + 1) :=
          Nat.mul_le_mul_right _ hlt.le
      _ = 10 ^ (d.text.length + (n + 1)) := (pow_add ..).symm
      _ ≤ 10 ^ 14 := Nat.pow_le_pow_right (by norm_num) (by omega)
      _ ≤ 2 ^ 53 := by norm_num
  · rw [reading, hn, readingFactor_exact (by omega) (by omega),
      readingFactor_exact (by omega) (by omega)]
    push_cast
    rw [pow_succ, zpow_natCast, zpow_neg_one]
    field_simp

/-- In either layout the reading is that of the decimal itself. -/
theorem value_documentText (negative : Bool) {d : Decimal} (hdigits : d.digits ≤ 2 ^ 53)
    (he : -45 ≤ d.exponent) (he' : d.exponent ≤ 45) :
    (d.documentText negative).value =
      .ok (.real (if negative then -Binary.round false d.reading else .round false d.reading)) := by
  have hsign := negative_documentText negative d
  by_cases hlayout : -6 ≤ d.exponent + (d.text.length - 1) ∧ d.exponent + (d.text.length - 1) ≤ 12
  · rw [show d.documentText negative = d.positionalText negative from if_pos hlayout] at hsign ⊢
    have hstands := stands_positionalText negative d
    by_cases hexp : 0 ≤ d.exponent
    · obtain ⟨hfits, hreading⟩ := reading_of_positional hexp hlayout.2
      rw [if_pos hexp, if_pos hexp] at hstands
      rw [hstands.value_eq hfits (by norm_num) (by norm_num), hsign, hreading]
    · rw [if_neg hexp, if_neg hexp] at hstands
      rw [hstands.value_eq hdigits he he', hsign, reading]
  · rw [show d.documentText negative = d.scientificText negative from if_neg hlayout] at hsign ⊢
    rw [(stands_scientificText negative d).value_eq hdigits he he', hsign, reading]

end Decimal

end SeparableBlur

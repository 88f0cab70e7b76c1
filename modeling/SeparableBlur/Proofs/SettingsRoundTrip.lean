-- SUMMARY: Valid settings are read back from the document that they are written as.
import SeparableBlur.Proofs.Grammar
import SeparableBlur.Settings.Reader

/-!
# Settings and their document

The document of settings has one member for each of them. Its names are read
back letter by letter, and its numbers as `NumberLayout` and `ReadBack` say, so
every finite 32-bit number comes back with all its bits, the sign of a zero
included.
-/

namespace SeparableBlur

open Json NumberText Format

/-! ## Numbers -/

theorem Binary.convert_round {f g : Format} {z : Rat} (negative : Bool) (hz : 0 ≤ z)
    (hrange : f.InRange z) {c : Fin g.infinityCode} (hcode : g.code (f.nearest z) = c) :
    (if negative then -round false z else round false z : Binary f).convert =
      (finite negative c : Binary g) := by
  obtain ⟨d, hd, hmag⟩ := round_false_eq hz hrange
  have hconvert (s : Bool) : (finite s d : Binary f).convert = (finite s c : Binary g) := by
    have hlt : g.code (f.magnitude d) < g.infinityCode := by
      rw [hmag, hcode]
      exact c.isLt
    have hround : (finite s d : Binary f).convert = (finite s ⟨_, hlt⟩ : Binary g) := dif_pos hlt
    rw [hround]
    congr 1
    exact Fin.ext ((congrArg g.code hmag).trans hcode)
  rw [hd]
  cases negative with
  | false => exact hconvert false
  | true => exact hconvert true

/-- A decimal whose reading is rounded to a code is read as the number with that code. -/
theorem Decimal.toBinary32_documentText (s : Bool) {d : Decimal} (hdigits : d.digits ≤ 2 ^ 53)
    (he : -45 ≤ d.exponent) (he' : d.exponent ≤ 45) {c : Fin single.infinityCode}
    (hcode : single.code (double.nearest d.reading) = c) :
    ∃ n, (d.documentText s).value = .ok n ∧ n.toBinary32 = .finite s c :=
  ⟨_, value_documentText s hdigits he he',
    Binary.convert_round s d.reading_nonneg (reading_inRange hdigits he he') hcode⟩

/-- The text of a finite number follows the grammar, and its value is the number. -/
theorem exists_numberText (s : Bool) (c : Fin single.infinityCode) :
    ∃ t : NumberText, t.WellFormed ∧
      t.text = ((Binary.finite s c).toDocument .document).toList ∧
      ∃ n, t.value = .ok n ∧ n.toBinary32 = .finite s c := by
  obtain ⟨c, hc⟩ := c
  have hsign (text : String) :
      ((if s then "-" else "") ++ text).toList = Decimal.signed s text := by
    cases s <;> simp [Decimal.signed]
  rw [Binary.toDocument, Binary.writeFinite, hsign]
  dsimp only
  cases c with
  | zero =>
    have hzero : single.code (double.nearest (Decimal.reading ⟨0, 0⟩)) = 0 := by
      rw [Decimal.reading, Nat.cast_zero, zero_mul]
      decide +kernel
    exact ⟨Decimal.documentText s ⟨0, 0⟩, Decimal.wellFormed_documentText s fun _ => rfl,
      Decimal.text_documentText s ⟨0, 0⟩,
      Decimal.toBinary32_documentText s (by norm_num) (by norm_num) (by norm_num) hzero⟩
  | succ c =>
    have hshort := short_shortest .toEven hc
    rw [if_neg (Nat.succ_ne_zero c), show NumberStyle.document.tie = .toEven from rfl]
    generalize single.shortest .toEven (c + 1) = d at hshort ⊢
    have hdigits := hshort.digits_lt
    have hexponent := hshort.exponent_le
    refine ⟨d.documentText s, Decimal.wellFormed_documentText s fun h0 => ?_,
      d.text_documentText s, ?_⟩
    · exact absurd h0 hshort.digits_pos.ne'
    · exact Decimal.toBinary32_documentText s (by omega) hshort.exponent_ge (by omega)
        (code_nearest_reading hshort hc)

/-- A number is read as the 32-bit number nearest to its value. -/
theorem readSigma_of_writes {t : NumberText} {n : Number} {b cs rest : List Char} (h : t.Writes cs)
    (hvalue : t.value = .ok n) (hb : IsBlanks b) (hrest : EndsNumber rest) :
    readSigma (b ++ (cs ++ rest)) = .ok (n.toBinary32, rest) := by
  have hscan : scan (.cutOff .value) (cs ++ rest) = .ok (t, rest) := h.scan hrest
  obtain ⟨c, cs, rfl, hc⟩ := h.head
  rw [List.cons_append] at hscan ⊢
  rw [readSigma, skipBlanks_append_cons hb (not_isBlank_of_head hc)]
  simp only [if_pos hc, hscan, hvalue, bind, Except.bind, pure, Except.pure]

/-- The text of a finite number is read back as that number. -/
theorem readSigma_toDocument {x : Binary32} (hx : x.isFinite) {rest : List Char}
    (hrest : EndsNumber rest) :
    readSigma (' ' :: ((x.toDocument .document).toList ++ rest)) = .ok (x, rest) := by
  cases x with
  | nan => cases hx
  | infinite s => cases hx
  | finite s c =>
    obtain ⟨t, hform, htext, n, hvalue, hn⟩ := exists_numberText s c
    rw [← htext, ← hn]
    exact readSigma_of_writes hform.writes hvalue isBlanks_space hrest

/-! ## Names -/

theorem TileMode.ofName_name (mode : TileMode) : TileMode.ofName mode.name.toList = .ok mode := by
  cases mode <;> decide

theorem Field.ofName?_name (field : Field) : Field.ofName? field.name.toList = some field := by
  cases field <;> decide

/-- A tile mode is read by a string that spells its name. -/
theorem readTileMode_spells {mode : TileMode} {b key : List Char} (hb : IsBlanks b)
    (hkey : Spells key mode.name.toList) (rest : List Char) :
    readTileMode (b ++ '"' :: (key ++ '"' :: rest)) = .ok (mode, rest) := by
  rw [readTileMode, skipBlanks_append_cons hb (by decide)]
  simp only [hkey.readQuoted, TileMode.ofName_name, bind, Except.bind, pure, Except.pure]

/-- A tile mode is read back by its name. -/
theorem readTileMode_name (mode : TileMode) (rest : List Char) :
    readTileMode (' ' :: '"' :: (mode.name.toList ++ '"' :: rest)) = .ok (mode, rest) := by
  have hplain : mode.name.toList.all isUnescaped := by
    cases mode <;> decide
  exact readTileMode_spells isBlanks_space (spells_self hplain) rest

/-! ## Members -/

/-- A member whose key spells the name of a setting is read as that setting, if it was not read
    before. -/
theorem readMember_spells {field : Field} {key b : List Char}
    (hkey : Spells key field.name.toList) (hb : IsBlanks b) {draft : Draft}
    (hnew : field.isRead draft = false) (rest : List Char) :
    readMember draft (key ++ '"' :: (b ++ ':' :: rest)) = field.read draft rest := by
  simp only [readMember, hkey.readQuoted, Field.ofName?_name, hnew, skipColon_append hb, bind,
    Except.bind, Bool.false_eq_true, if_false]

/-- A member whose key names a setting that was not read yet. -/
theorem readMember_field {field : Field} {draft : Draft} (hnew : field.isRead draft = false)
    (rest : List Char) :
    readMember draft (field.name.toList ++ '"' :: ':' :: rest) = field.read draft rest := by
  have hplain : field.name.toList.all isUnescaped := by
    cases field <;> decide
  exact readMember_spells (spells_self hplain) isBlanks_nil hnew rest

theorem readMembers_eq_bind {first : Bool} {draft : Draft} {input key : List Char}
    (hkey : nextKey? first input = .ok (some key)) :
    readMembers first draft input =
      readMember draft key >>= fun (draft, rest) => readMembers false draft rest := by
  rw [readMembers]
  split
  · simp_all
  · simp_all
  · next key' hkey' =>
    obtain rfl : key = key' := by simpa [hkey] using hkey'
    split
    · next hmember =>
      rw [hmember]
      rfl
    · next hmember =>
      simp only [hmember, bind, Except.bind]

theorem readMembers_of_key {first : Bool} {draft draft' : Draft} {input key rest : List Char}
    (hkey : nextKey? first input = .ok (some key))
    (hmember : readMember draft key = .ok (draft', rest)) :
    readMembers first draft input = readMembers false draft' rest := by
  rw [readMembers_eq_bind hkey, hmember]
  rfl

theorem readMembers_of_end {first : Bool} {draft : Draft} {input : List Char}
    (hend : nextKey? first input = .ok none) :
    readMembers first draft input = .ok (draft, (skipBlanks input).drop 1) := by
  rw [readMembers]
  split <;> simp_all

/-! ## Documents -/

/-- The document from behind the opening quote of a key on. -/
def memberText (field : Field) (value rest : List Char) : List Char :=
  field.name.toList ++ '"' :: ':' :: ' ' :: (value ++ rest)

/-- What stands between two members. -/
def betweenMembers (rest : List Char) : List Char := ',' :: '\n' :: ' ' :: ' ' :: '"' :: rest

private theorem toList_members (x y mode : String) :
    ("\x7b\n  \"sigma_x\": " ++ x ++ ",\n  \"sigma_y\": " ++ y ++ ",\n  \"tile_mode\": \"" ++ mode ++
      "\"\n\x7d").toList = '\x7b' :: '\n' :: ' ' :: ' ' :: '"' ::
        memberText .sigmaX x.toList (betweenMembers (memberText .sigmaY y.toList (betweenMembers
          (memberText .tileMode ('"' :: (mode.toList ++ ['"'])) ['\n', '\x7d'])))) := by
  have hopen : "\x7b\n  \"sigma_x\": ".toList =
      '\x7b' :: '\n' :: ' ' :: ' ' :: '"' :: (Field.sigmaX.name.toList ++ ['"', ':', ' ']) := by
    decide
  have hsigma : ",\n  \"sigma_y\": ".toList =
      betweenMembers (Field.sigmaY.name.toList ++ ['"', ':', ' ']) := by decide
  have hmode : ",\n  \"tile_mode\": \"".toList =
      betweenMembers (Field.tileMode.name.toList ++ ['"', ':', ' ', '"']) := by decide
  have hclose : "\"\n\x7d".toList = ['"', '\n', '\x7d'] := by decide
  simp only [String.toList_append, hopen, hsigma, hmode, hclose, memberText, betweenMembers,
    List.append_assoc, List.cons_append, List.nil_append]

theorem toList_toJson (s : Settings) : s.toJson.toList =
    '\x7b' :: '\n' :: ' ' :: ' ' :: '"' ::
      memberText .sigmaX (s.sigmaX.toDocument .document).toList (betweenMembers
        (memberText .sigmaY (s.sigmaY.toDocument .document).toList (betweenMembers
          (memberText .tileMode ('"' :: (s.tileMode.name.toList ++ ['"'])) ['\n', '\x7d'])))) :=
  toList_members _ _ _

theorem endsNumber_betweenMembers (rest : List Char) : EndsNumber (betweenMembers rest) := by
  rintro c ⟨⟩
  decide

/-- Reads one member and goes on behind it. -/
theorem readMembers_memberText {first : Bool} {draft draft' : Draft} {field : Field}
    {input value rest : List Char}
    (hkey : nextKey? first input = .ok (some (memberText field value rest)))
    (hnew : field.isRead draft = false)
    (hread : field.read draft (' ' :: (value ++ rest)) = .ok (draft', rest)) :
    readMembers first draft input = readMembers false draft' rest :=
  readMembers_of_key hkey ((readMember_field hnew _).trans hread)

theorem readMembers_sigmaX {x : Binary32} (hx : x.isFinite) (rest : List Char) :
    readMembers true {} ('\n' :: ' ' :: ' ' :: '"' ::
      memberText .sigmaX (x.toDocument .document).toList (betweenMembers rest)) =
      readMembers false ⟨some x, none, none⟩ (betweenMembers rest) := by
  refine readMembers_memberText rfl rfl ?_
  rw [Field.read, readSigma_toDocument hx (endsNumber_betweenMembers _)]
  rfl

theorem readMembers_sigmaY {x y : Binary32} (hy : y.isFinite) (rest : List Char) :
    readMembers false ⟨some x, none, none⟩ (betweenMembers
      (memberText .sigmaY (y.toDocument .document).toList (betweenMembers rest))) =
      readMembers false ⟨some x, some y, none⟩ (betweenMembers rest) := by
  refine readMembers_memberText rfl rfl ?_
  rw [Field.read, readSigma_toDocument hy (endsNumber_betweenMembers _)]
  rfl

theorem readMembers_tileMode (x y : Binary32) (mode : TileMode) :
    readMembers false ⟨some x, some y, none⟩ (betweenMembers
      (memberText .tileMode ('"' :: (mode.name.toList ++ ['"'])) ['\n', '\x7d'])) =
      readMembers false ⟨some x, some y, some mode⟩ ['\n', '\x7d'] := by
  refine readMembers_memberText rfl rfl ?_
  have hvalue : '"' :: (mode.name.toList ++ ['"']) ++ ['\n', '\x7d'] =
      '"' :: (mode.name.toList ++ '"' :: ['\n', '\x7d']) := by simp
  rw [Field.read, hvalue, readTileMode_name]
  rfl

theorem readSettings_toJson {x y : Binary32} (mode : TileMode) (hx : x.isFinite)
    (hy : y.isFinite) :
    readSettings (Settings.toJson ⟨x, y, mode⟩).toList = .ok (⟨some x, some y, some mode⟩, []) := by
  rw [toList_toJson]
  exact (readMembers_sigmaX hx _).trans <| (readMembers_sigmaY hy _).trans <|
    (readMembers_tileMode x y mode).trans (readMembers_of_end rfl)

theorem readDocument_toJson {s : Settings} (hx : s.sigmaX.isFinite) (hy : s.sigmaY.isFinite) :
    readDocument s.toJson.toList = .ok s := by
  rw [readDocument, readSettings_toJson s.tileMode hx hy]
  rfl

/-! ## Validation -/

theorem Settings.isFinite_of_validateSigma {x : Binary32} (h : validateSigma x = .ok ()) :
    x.isFinite := by
  by_contra hx
  rw [validateSigma, if_pos (.inl (by simpa using hx))] at h
  cases h

theorem Settings.isFinite_of_validate {s : Settings} (h : s.validate = .ok ()) :
    s.sigmaX.isFinite ∧ s.sigmaY.isFinite := by
  rw [validate] at h
  cases hx : validateSigma s.sigmaX with
  | error e =>
    rw [hx] at h
    cases h
  | ok u =>
    rw [hx] at h
    exact ⟨isFinite_of_validateSigma hx, isFinite_of_validateSigma h⟩

/-- Valid settings, written and read back, are the same settings. -/
theorem Settings.ofJson_toJson (s : Settings) (h : s.validate = .ok ()) :
    Settings.ofJson s.toJson = .ok s := by
  obtain ⟨hx, hy⟩ := isFinite_of_validate h
  rw [ofJson, readDocument_toJson hx hy]
  change (do s.validate; return s) = _
  rw [h]
  rfl

/-- The negative zero and the largest number. -/
theorem Settings.ofJson_toJson_of_extremes :
    Settings.validate ⟨.ofBits 0x80000000, .ofBits 0x7F7FFFFF, .mirror⟩ = .ok () ∧
      Settings.ofJson (Settings.toJson ⟨.ofBits 0x80000000, .ofBits 0x7F7FFFFF, .mirror⟩) =
        .ok ⟨.ofBits 0x80000000, .ofBits 0x7F7FFFFF, .mirror⟩ :=
  ⟨by decide +kernel, ofJson_toJson _ (by decide +kernel)⟩

end SeparableBlur

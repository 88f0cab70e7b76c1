-- SUMMARY: What a document of settings means: the settings that it gives, whatever their order and spelling and whatever else stands between them.
import SeparableBlur.Proofs.SettingsRoundTrip

/-!
# The meaning of a document

A document gives some settings: as the members of an object, among members that nobody
knows, or as the elements of a list. What it means is the record with those settings and
with defaults for the rest, and nothing else of the document has a part in that: neither
the order of its members, nor how their keys are spelled, nor the blanks, nor the members
with other keys.

An object that gives a setting once more is refused at the second key. What follows there
is not even read.
-/

namespace SeparableBlur

open Json NumberText

/-! ## Settings -/

/-- One of the settings, with a value. -/
inductive Setting where
  | sigmaX (x : Binary32)
  | sigmaY (y : Binary32)
  | tileMode (mode : TileMode)

namespace Setting

def field : Setting → Field
  | sigmaX _ => .sigmaX
  | sigmaY _ => .sigmaY
  | tileMode _ => .tileMode

/-- The record with this setting. -/
def apply (s : Settings) : Setting → Settings
  | sigmaX x => { s with sigmaX := x }
  | sigmaY y => { s with sigmaY := y }
  | tileMode mode => { s with tileMode := mode }

/-- The draft with this setting. -/
def note (draft : Draft) : Setting → Draft
  | sigmaX x => { draft with sigmaX := some x }
  | sigmaY y => { draft with sigmaY := some y }
  | tileMode mode => { draft with tileMode := some mode }

end Setting

/-- The record with the given settings and with defaults for the rest. -/
def Settings.ofGiven (given : List Setting) : Settings := given.foldl Setting.apply default

/-- Settings of different fields can be applied in either order. -/
theorem Setting.apply_comm {a b : Setting} (h : a.field = b.field → a = b) (s : Settings) :
    b.apply (a.apply s) = a.apply (b.apply s) := by
  by_cases hfield : a.field = b.field
  · rw [h hfield]
  · cases a <;> cases b <;> first | rfl | exact absurd rfl hfield

/-- The order in which settings are given does not matter. -/
theorem Settings.ofGiven_perm {given given' : List Setting} (h : given.Perm given')
    (hnodup : (given.map Setting.field).Nodup) : ofGiven given = ofGiven given' := by
  refine h.foldl_eq' ?_ default
  intro a ha b hb s
  exact Setting.apply_comm (fun hfield => List.inj_on_of_nodup_map hnodup ha hb hfield) s

theorem Draft.settings_foldl_note (given : List Setting) (draft : Draft) :
    (given.foldl Setting.note draft).settings = given.foldl Setting.apply draft.settings := by
  induction given generalizing draft with
  | nil => rfl
  | cons a given ih =>
    have hnote : (a.note draft).settings = a.apply draft.settings := by
      cases a <;> rfl
    rw [List.foldl_cons, List.foldl_cons, ih, hnote]

theorem Field.isRead_note (field : Field) (draft : Draft) (a : Setting) :
    field.isRead (a.note draft) = (decide (field = a.field) || field.isRead draft) := by
  cases a <;> cases field <;> rfl

/-- A setting that was given counts as read. -/
theorem Field.isRead_foldl_note {field : Field} {given : List Setting} {draft : Draft}
    (h : field.isRead draft ∨ field ∈ given.map Setting.field) :
    field.isRead (given.foldl Setting.note draft) := by
  induction given generalizing draft with
  | nil => simpa using h
  | cons a given ih =>
    apply ih
    rw [isRead_note]
    simp only [List.map_cons, List.mem_cons, Bool.or_eq_true, decide_eq_true_eq] at h ⊢
    tauto

/-! ## Texts -/

/-- The texts of a sigma: a number with a value, which is rounded to 32 bits. -/
inductive WritesSigma : Binary32 → List Char → Prop where
  | mk {t : NumberText} {n : Number} {cs} : t.Writes cs → t.value = .ok n →
      WritesSigma n.toBinary32 cs

/-- The texts of a tile mode: its name, or an object with its name as the only key and nothing
    for a value. -/
inductive WritesTileMode (mode : TileMode) : List Char → Prop where
  | name {key} : Spells key mode.name.toList → WritesTileMode mode ('"' :: (key ++ ['"']))
  | tagged {b key b₁ b₂ b₃} : IsBlanks b → Spells key mode.name.toList → IsBlanks b₁ →
      IsBlanks b₂ → IsBlanks b₃ →
      WritesTileMode mode ('{' :: (b ++ '"' :: (key ++ '"' ::
        (b₁ ++ ':' :: (b₂ ++ ("null".toList ++ (b₃ ++ ['}'])))))))

/-- The texts of the value of a setting. -/
inductive WritesValue : Setting → List Char → Prop where
  | sigmaX {x cs} : WritesSigma x cs → WritesValue (.sigmaX x) cs
  | sigmaY {y cs} : WritesSigma y cs → WritesValue (.sigmaY y) cs
  | tileMode {mode cs} : WritesTileMode mode cs → WritesValue (.tileMode mode) cs

/-- The texts of a member, and the setting that it gives. A member with a key that names no
    setting may have any value, and gives nothing. -/
inductive WritesMember : Option Setting → List Char → Prop where
  | known {a : Setting} {key b b' value} : Spells key a.field.name.toList → IsBlanks b →
      IsBlanks b' → WritesValue a value →
      WritesMember (some a) ('"' :: (key ++ '"' :: (b ++ ':' :: (b' ++ value))))
  | unknown {key name b b' value} : Spells key name → (∀ field : Field, name ≠ field.name.toList) →
      IsBlanks b → IsBlanks b' → Grammar .value value →
      WritesMember none ('"' :: (key ++ '"' :: (b ++ ':' :: (b' ++ value))))

/-- The texts of some members with commas between them, and the settings that they give. -/
inductive WritesMembers : List Setting → List Char → Prop where
  | last {b a member} : IsBlanks b → WritesMember a member → WritesMembers a.toList (b ++ member)
  | next {b a member b' given members} : IsBlanks b → WritesMember a member → IsBlanks b' →
      WritesMembers given members →
      WritesMembers (a.toList ++ given) (b ++ (member ++ (b' ++ ',' :: members)))

/-- The texts of some values with commas between them. -/
inductive WritesElements : List Setting → List Char → Prop where
  | last {b a value} : IsBlanks b → WritesValue a value → WritesElements [a] (b ++ value)
  | next {b a value b' given elements} : IsBlanks b → WritesValue a value → IsBlanks b' →
      WritesElements given elements →
      WritesElements (a :: given) (b ++ (value ++ (b' ++ ',' :: elements)))

/-- The documents that are an object, and the settings that they give. -/
inductive WritesObject : List Setting → List Char → Prop where
  | empty {b b₁ b₂} : IsBlanks b → IsBlanks b₁ → IsBlanks b₂ →
      WritesObject [] (b ++ '{' :: (b₁ ++ '}' :: b₂))
  | members {b given members b₁ b₂} : IsBlanks b → WritesMembers given members → IsBlanks b₁ →
      IsBlanks b₂ → WritesObject given (b ++ '{' :: (members ++ (b₁ ++ '}' :: b₂)))

/-- The documents that are a list of settings in their own order, as far as they are given. -/
inductive WritesList : List Setting → List Char → Prop where
  | empty {b b₁ b₂} : IsBlanks b → IsBlanks b₁ → IsBlanks b₂ →
      WritesList [] (b ++ '[' :: (b₁ ++ ']' :: b₂))
  | elements {b given elements b₁ b₂} : IsBlanks b → WritesElements given elements →
      given.map Setting.field <+: Field.all → IsBlanks b₁ → IsBlanks b₂ →
      WritesList given (b ++ '[' :: (elements ++ (b₁ ++ ']' :: b₂)))

/-- The texts that are an object up to a key for a setting that it has given already. Anything may
    follow. -/
inductive WritesAgain (field : Field) : List Char → Prop where
  | mk {b given members b₁ b₂ key rest} : IsBlanks b → WritesMembers given members →
      (given.map Setting.field).Nodup → field ∈ given.map Setting.field → IsBlanks b₁ →
      IsBlanks b₂ → Spells key field.name.toList →
      WritesAgain field
        (b ++ '{' :: (members ++ (b₁ ++ ',' :: (b₂ ++ '"' :: (key ++ '"' :: rest)))))

/-! ## Values -/

section

variable {b rest : List Char}

theorem WritesSigma.read {x : Binary32} {cs : List Char} (h : WritesSigma x cs) (hb : IsBlanks b)
    (hrest : EndsNumber rest) : readSigma (b ++ (cs ++ rest)) = .ok (x, rest) := by
  cases h with
  | mk hwrites hvalue => exact readSigma_of_writes hwrites hvalue hb hrest

theorem readNull_append (hb : IsBlanks b) (rest : List Char) :
    readNull (b ++ ("null".toList ++ rest)) = .ok rest := by
  have hnull : "null".toList ++ rest = 'n' :: ("ull".toList ++ rest) := rfl
  rw [readNull, hnull, skipBlanks_append_cons hb (by decide)]
  rfl

theorem WritesTileMode.read {mode : TileMode} {cs : List Char} (h : WritesTileMode mode cs)
    (hb : IsBlanks b) (rest : List Char) : readTileMode (b ++ (cs ++ rest)) = .ok (mode, rest) := by
  cases h with
  | name hkey => simpa using readTileMode_spells hb hkey rest
  | @tagged b₀ key b₁ b₂ b₃ hb₀ hkey hb₁ hb₂ hb₃ =>
    have htagged : readTaggedTileMode (b₀ ++ '"' :: (key ++ '"' ::
        (b₁ ++ ':' :: (b₂ ++ ("null".toList ++ (b₃ ++ '}' :: rest)))))) = .ok (mode, rest) := by
      rw [readTaggedTileMode, skipBlanks_append_cons hb₀ (by decide)]
      simp only [hkey.readQuoted, TileMode.ofName_name, skipColon_append hb₁, readNull_append hb₂,
        skipBlanks_append_cons hb₃ (show isBlank '}' = false by decide), bind, Except.bind, pure,
        Except.pure]
    simp only [List.cons_append, List.append_assoc, List.nil_append]
    rw [readTileMode, skipBlanks_append_cons hb (by decide)]
    exact htagged

/-- The text of a setting is read as that setting. -/
theorem WritesValue.read {a : Setting} {cs : List Char} (h : WritesValue a cs) (hb : IsBlanks b)
    (hrest : EndsNumber rest) (draft : Draft) :
    a.field.read draft (b ++ (cs ++ rest)) = .ok (a.note draft, rest) := by
  cases h with
  | sigmaX h =>
    rw [Setting.field, Field.read, h.read hb hrest]
    rfl
  | sigmaY h =>
    rw [Setting.field, Field.read, h.read hb hrest]
    rfl
  | tileMode h =>
    rw [Setting.field, Field.read, h.read hb]
    rfl

theorem WritesValue.head {a : Setting} {cs : List Char} (h : WritesValue a cs) :
    ∃ c cs', cs = c :: cs' ∧ Begins c := by
  have hsigma {x : Binary32} {cs : List Char} (h : WritesSigma x cs) :
      ∃ c cs', cs = c :: cs' ∧ Begins c := by
    obtain ⟨hwrites, -⟩ := h
    obtain ⟨c, cs', rfl, hc⟩ := hwrites.head
    exact ⟨c, cs', rfl, begins_of_number hc⟩
  cases h with
  | sigmaX h => exact hsigma h
  | sigmaY h => exact hsigma h
  | tileMode h =>
    cases h with
    | name => exact ⟨'"', _, rfl, ⟨by decide, by decide, by decide⟩⟩
    | tagged => exact ⟨'{', _, rfl, ⟨by decide, by decide, by decide⟩⟩

/-! ## Members -/

theorem nextKey?_quote (hb : IsBlanks b) (rest : List Char) :
    nextKey? true (b ++ '"' :: rest) = .ok (some rest) := by
  rw [nextKey?, skipBlanks_append_cons hb (by decide)]
  rfl

theorem nextKey?_comma {b' : List Char} (hb : IsBlanks b) (hb' : IsBlanks b') (rest : List Char) :
    nextKey? false (b ++ ',' :: (b' ++ '"' :: rest)) = .ok (some rest) := by
  rw [nextKey?, skipBlanks_append_cons hb (by decide)]
  simp only [skipBlanks_append_cons hb' (show isBlank '"' = false by decide)]
  rfl

theorem nextKey?_close (first : Bool) (hb : IsBlanks b) (rest : List Char) :
    nextKey? first (b ++ '}' :: rest) = .ok none := by
  rw [nextKey?, skipBlanks_append_cons hb (by decide)]
  rfl

/-- Behind its quote, a member is read as the setting that it gives, or skipped. -/
theorem WritesMember.read {a : Option Setting} {member : List Char} (h : WritesMember a member)
    {draft : Draft} (hnew : ∀ s ∈ a, s.field.isRead draft = false) (hrest : EndsNumber rest) :
    ∃ body, member = '"' :: body ∧
      readMember draft (body ++ rest) = .ok (a.toList.foldl Setting.note draft, rest) := by
  cases h with
  | @known a key b b' value hkey hb hb' hvalue =>
    refine ⟨_, rfl, ?_⟩
    simp only [List.append_assoc, List.cons_append]
    rw [readMember_spells hkey hb (hnew a rfl)]
    exact hvalue.read hb' hrest draft
  | @unknown key name b b' value hkey hname hb hb' hvalue =>
    have hunknown : Field.ofName? name = none := by
      rw [Field.ofName?, List.find?_eq_none]
      intro field _
      simpa using (hname field).symm
    refine ⟨_, rfl, ?_⟩
    simp only [List.append_assoc, List.cons_append]
    simp only [readMember, hkey.readQuoted, hunknown, skipColon_append hb,
      hvalue.skipValue hb' hrest, bind, Except.bind, pure, Except.pure, Option.toList,
      List.foldl_nil]

theorem WritesMembers.head {given : List Setting} {members : List Char}
    (h : WritesMembers given members) :
    ∃ b body, members = b ++ '"' :: body ∧ IsBlanks b := by
  have hmember {a : Option Setting} {member : List Char} (h : WritesMember a member) :
      ∃ body, member = '"' :: body := by
    cases h with
    | known | unknown => exact ⟨_, rfl⟩
  cases h with
  | last hb h =>
    obtain ⟨body, rfl⟩ := hmember h
    exact ⟨_, _, rfl, hb⟩
  | next hb h =>
    obtain ⟨body, rfl⟩ := hmember h
    exact ⟨_, _, rfl, hb⟩

/-- Behind a comma, reading members starts over. -/
theorem readMembers_comma (hb : IsBlanks b) {given : List Setting} {members : List Char}
    (h : WritesMembers given members) (draft : Draft) (rest : List Char) :
    readMembers false draft (b ++ ',' :: (members ++ rest)) =
      readMembers true draft (members ++ rest) := by
  obtain ⟨b', body, rfl, hb'⟩ := h.head
  rw [List.append_assoc, List.cons_append, readMembers_eq_bind (nextKey?_comma hb hb' _),
    readMembers_eq_bind (nextKey?_quote hb' _)]

/-- Reading members comes to the draft with the settings that they give, in front of what follows
    them. -/
theorem WritesMembers.read {given : List Setting} {members : List Char}
    (h : WritesMembers given members) {draft : Draft} (hnodup : (given.map Setting.field).Nodup)
    (hnew : ∀ a ∈ given, a.field.isRead draft = false) (hrest : EndsNumber rest) :
    readMembers true draft (members ++ rest) =
      readMembers false (given.foldl Setting.note draft) rest := by
  induction h generalizing draft with
  | @last b a member hb hmember =>
    obtain ⟨body, rfl, hread⟩ := hmember.read (by simpa using hnew) hrest
    rw [List.append_assoc, List.cons_append]
    exact readMembers_of_key (nextKey?_quote hb _) hread
  | @next b a member b' given members hb hmember hb' hmembers ih =>
    rw [List.map_append, List.nodup_append'] at hnodup
    obtain ⟨-, hnodup, hdisjoint⟩ := hnodup
    have hcomma : EndsNumber (b' ++ ',' :: (members ++ rest)) :=
      endsNumber_append_cons hb' (.inl rfl)
    have hnewMember : ∀ s ∈ a, s.field.isRead draft = false := fun s hs =>
      hnew s (List.mem_append_left _ (by simpa using hs))
    -- What the first member gives is different from all that follows.
    have hnewRest : ∀ s ∈ given, s.field.isRead (a.toList.foldl Setting.note draft) = false := by
      intro s hs
      have hold := hnew s (List.mem_append_right _ hs)
      cases a with
      | none => exact hold
      | some a =>
        have hne : s.field ≠ a.field := fun heq =>
          hdisjoint (List.mem_singleton.2 heq) (List.mem_map_of_mem hs)
        simpa [Field.isRead_note, hne] using hold
    obtain ⟨body, rfl, hread⟩ := hmember.read hnewMember hcomma
    rw [List.foldl_append, ← ih hnodup hnewRest, ← readMembers_comma hb' hmembers]
    simp only [List.append_assoc, List.cons_append]
    exact readMembers_of_key (nextKey?_quote hb _) hread

/-! ## Elements -/

theorem readListEnd_append (hb : IsBlanks b) (rest : List Char) :
    readListEnd (b ++ ']' :: rest) = .ok rest := by
  rw [readListEnd, skipBlanks_append_cons hb (by decide)]
  rfl

theorem readElements_close (first : Bool) (draft : Draft) (hb : IsBlanks b) (rest : List Char)
    (fields : List Field) :
    readElements first draft (b ++ ']' :: rest) fields = .ok (draft, rest) := by
  cases fields with
  | nil =>
    rw [readElements, readListEnd_append hb]
    rfl
  | cons field fields =>
    have hend : nextElement? first (b ++ ']' :: rest) = .ok none := by
      rw [nextElement?, skipBlanks_append_cons hb (by decide)]
      rfl
    rw [readElements, hend, readListEnd_append hb]
    rfl

theorem nextElement?_append {a : Setting} {value : List Char} (h : WritesValue a value)
    (hb : IsBlanks b) (rest : List Char) :
    nextElement? true (b ++ (value ++ rest)) = .ok (some (value ++ rest)) := by
  obtain ⟨c, cs, rfl, hc⟩ := h.head
  rw [nextElement?, List.cons_append, skipBlanks_append_cons hb hc.notBlank]
  simp only [if_neg hc.notListEnd, if_true]

theorem nextElement?_comma {a : Setting} {value b' : List Char} (h : WritesValue a value)
    (hb : IsBlanks b) (hb' : IsBlanks b') (rest : List Char) :
    nextElement? false (b ++ ',' :: (b' ++ (value ++ rest))) = .ok (some (value ++ rest)) := by
  obtain ⟨c, cs, rfl, hc⟩ := h.head
  rw [nextElement?, skipBlanks_append_cons hb (by decide)]
  simp only [List.cons_append, skipBlanks_append_cons hb' hc.notBlank, if_neg hc.notListEnd]
  rfl

theorem readElements_value {first : Bool} {input value : List Char} {a : Setting}
    (h : WritesValue a value) (hnext : nextElement? first input = .ok (some (value ++ rest)))
    (hrest : EndsNumber rest) (draft : Draft) (fields : List Field) :
    readElements first draft input (a.field :: fields) =
      readElements false (a.note draft) rest fields := by
  have hread : a.field.read draft (value ++ rest) = .ok (a.note draft, rest) :=
    h.read isBlanks_nil hrest draft
  rw [readElements, hnext]
  simp only [hread, bind, Except.bind]

theorem WritesElements.head {given : List Setting} {elements : List Char}
    (h : WritesElements given elements) :
    ∃ a given' b value more, given = a :: given' ∧ elements = b ++ (value ++ more) ∧
      IsBlanks b ∧ WritesValue a value := by
  cases h with
  | @last b a value hb hvalue => exact ⟨a, _, b, value, [], rfl, by simp, hb, hvalue⟩
  | @next b a value _ _ _ hb hvalue => exact ⟨a, _, b, value, _, rfl, rfl, hb, hvalue⟩

/-- Behind a comma, reading elements starts over. -/
theorem readElements_comma (hb : IsBlanks b) {given : List Setting} {elements : List Char}
    (h : WritesElements given elements) (draft : Draft) (rest : List Char) (fields : List Field) :
    readElements false draft (b ++ ',' :: (elements ++ rest)) (given.map Setting.field ++ fields) =
      readElements true draft (elements ++ rest) (given.map Setting.field ++ fields) := by
  obtain ⟨a, given, b', value, more, rfl, rfl, hb', hvalue⟩ := h.head
  simp only [List.map_cons, List.cons_append, List.append_assoc]
  rw [readElements, readElements, nextElement?_comma hvalue hb hb', nextElement?_append hvalue hb']
  rfl

/-- Reading elements comes to the draft with the settings that they are, in front of what follows
    them. -/
theorem WritesElements.read {given : List Setting} {elements : List Char}
    (h : WritesElements given elements) (draft : Draft) (fields : List Field)
    (hrest : EndsNumber rest) :
    readElements true draft (elements ++ rest) (given.map Setting.field ++ fields) =
      readElements false (given.foldl Setting.note draft) rest fields := by
  induction h generalizing draft with
  | @last b a value hb hvalue =>
    rw [List.append_assoc]
    exact readElements_value hvalue (nextElement?_append hvalue hb _) hrest draft fields
  | @next b a value b' given elements hb hvalue hb' helements ih =>
    have hcomma : EndsNumber (b' ++ ',' :: (elements ++ rest)) :=
      endsNumber_append_cons hb' (.inl rfl)
    rw [List.foldl_cons, ← ih, ← readElements_comma hb' helements]
    simp only [List.append_assoc, List.cons_append]
    exact readElements_value hvalue (nextElement?_append hvalue hb _) hcomma draft _

end

/-! ## Documents -/

theorem readDocument_of_draft {input rest : List Char} {draft : Draft}
    (hread : readSettings input = .ok (draft, rest)) (hrest : IsBlanks rest) :
    readDocument input = .ok draft.settings := by
  have hend : skipBlanks rest = [] := List.dropWhile_eq_nil_iff.2 hrest
  simp only [readDocument, hread, hend, bind, Except.bind, pure, Except.pure, ne_eq, not_true,
    if_false]

theorem readSettings_object {b : List Char} (hb : IsBlanks b) (rest : List Char) :
    readSettings (b ++ '{' :: rest) = readMembers true {} rest := by
  rw [readSettings, skipBlanks_append_cons hb (by decide)]
  rfl

theorem readSettings_list {b : List Char} (hb : IsBlanks b) (rest : List Char) :
    readSettings (b ++ '[' :: rest) = readElements true {} rest Field.all := by
  rw [readSettings, skipBlanks_append_cons hb (by decide)]
  rfl

theorem Field.isRead_empty (field : Field) : field.isRead {} = false := by
  cases field <;> rfl

/-- An object with no setting twice is read as the record of the settings that it gives. -/
theorem WritesObject.read {given : List Setting} {input : List Char} (h : WritesObject given input)
    (hnodup : (given.map Setting.field).Nodup) :
    readDocument input = .ok (.ofGiven given) := by
  have hend (first : Bool) (draft : Draft) {b : List Char} (hb : IsBlanks b) (rest : List Char) :
      readMembers first draft (b ++ '}' :: rest) = .ok (draft, rest) := by
    rw [readMembers_of_end (nextKey?_close first hb rest),
      skipBlanks_append_cons hb (by decide)]
    rfl
  have hsettings : ∃ rest, IsBlanks rest ∧
      readSettings input = .ok (given.foldl Setting.note {}, rest) := by
    cases h with
    | empty hb hb₁ hb₂ =>
      refine ⟨_, hb₂, ?_⟩
      rw [readSettings_object hb, hend true {} hb₁]
      rfl
    | members hb hmembers hb₁ hb₂ =>
      refine ⟨_, hb₂, ?_⟩
      rw [readSettings_object hb,
        hmembers.read hnodup (fun a _ => a.field.isRead_empty)
          (endsNumber_append_cons hb₁ (.inr (.inr rfl))), hend false _ hb₁]
  obtain ⟨rest, hrest, hread⟩ := hsettings
  rw [readDocument_of_draft hread hrest, Draft.settings_foldl_note]
  rfl

/-- A list is read as the record of the settings that its elements are. -/
theorem WritesList.read {given : List Setting} {input : List Char} (h : WritesList given input) :
    readDocument input = .ok (.ofGiven given) := by
  have hsettings : ∃ rest, IsBlanks rest ∧
      readSettings input = .ok (given.foldl Setting.note {}, rest) := by
    cases h with
    | empty hb hb₁ hb₂ =>
      refine ⟨_, hb₂, ?_⟩
      rw [readSettings_list hb, readElements_close true {} hb₁]
      rfl
    | elements hb helements hprefix hb₁ hb₂ =>
      refine ⟨_, hb₂, ?_⟩
      obtain ⟨fields, hfields⟩ := hprefix
      rw [readSettings_list hb, ← hfields,
        helements.read {} fields (endsNumber_append_cons hb₁ (.inr (.inl rfl))),
        readElements_close false _ hb₁]
  obtain ⟨rest, hrest, hread⟩ := hsettings
  rw [readDocument_of_draft hread hrest, Draft.settings_foldl_note]
  rfl

/-- No setting is given twice by a list. -/
theorem WritesList.nodup {given : List Setting} {input : List Char} (h : WritesList given input) :
    (given.map Setting.field).Nodup := by
  cases h with
  | empty => exact List.nodup_nil
  | elements _ _ hprefix => exact hprefix.sublist.nodup (by decide)

/-- The key of a setting that was given already is refused. -/
theorem WritesAgain.read {field : Field} {input : List Char} (h : WritesAgain field input) :
    readDocument input = .error (.duplicateField field.name) := by
  obtain ⟨hb, hmembers, hnodup, hfield, hb₁, hb₂, hkey⟩ := h
  rename_i b given members b₁ b₂ key rest
  have hread : field.isRead (given.foldl Setting.note {}) := Field.isRead_foldl_note (.inr hfield)
  have hmember : readMember (given.foldl Setting.note {}) (key ++ '"' :: rest) =
      .error (.duplicateField field.name) := by
    simp only [readMember, hkey.readQuoted, Field.ofName?_name, hread, if_true, bind, Except.bind]
    rfl
  have hsettings : readSettings (b ++ '{' ::
      (members ++ (b₁ ++ ',' :: (b₂ ++ '"' :: (key ++ '"' :: rest))))) =
        .error (.duplicateField field.name) := by
    rw [readSettings_object hb,
      hmembers.read hnodup (fun a _ => a.field.isRead_empty)
        (endsNumber_append_cons hb₁ (.inl rfl)),
      readMembers_eq_bind (nextKey?_comma hb₁ hb₂ _), hmember]
    rfl
  rw [readDocument, hsettings]
  rfl

/-- A document means the settings that it gives. As an object it may give them in any order, and as
    a list it gives them in their own, and either way the result is the record with them, if that
    is valid. An object that gives a setting again is refused. -/
theorem Settings.ofJson_of_text (document : String) :
    (∀ given, WritesObject given document.toList → (given.map Setting.field).Nodup →
      Settings.ofJson document = (ofGiven given).validate.map fun _ => ofGiven given) ∧
    (∀ given listed, WritesList listed document.toList → given.Perm listed →
      Settings.ofJson document = (ofGiven given).validate.map fun _ => ofGiven given) ∧
    (∀ field, WritesAgain field document.toList →
      Settings.ofJson document = .error (.document (.duplicateField field.name))) := by
  have hvalid {s : Settings} (h : readDocument document.toList = .ok s) :
      Settings.ofJson document = s.validate.map fun _ => s := by
    rw [ofJson, h]
    rfl
  refine ⟨?_, ?_, ?_⟩
  · intro given h hnodup
    exact hvalid (h.read hnodup)
  · intro given listed h hperm
    rw [ofGiven_perm hperm ((hperm.map Setting.field).nodup_iff.2 h.nodup)]
    exact hvalid h.read
  · intro field h
    rw [ofJson, h.read]
    rfl

/-- An object with a member that nobody knows and an escaped key, a list, and a key given twice. -/
theorem Settings.ofJson_of_text_mixed :
    Settings.ofJson "\x7b\"x\":[\x7b\x7d,null], \"sigm\\u0061_x\" : 2.5E1\x7d" =
        .ok ⟨.ofRat 25, 0, .decal⟩ ∧
      Settings.ofJson "[2.5E1]" = .ok ⟨.ofRat 25, 0, .decal⟩ ∧
      Settings.ofJson "\x7b\"sigma_x\":2.5E1,\"sigma_x\"!" =
        .error (.document (.duplicateField "sigma_x")) := by
  have hnumber : WritesSigma (.ofRat 25) ['2', '.', '5', 'E', '1'] := by
    have hform : NumberText.WellFormed ⟨false, ['2'], some ['5'], some (false, ['1'])⟩ := by
      refine ⟨Decimal.isDigits_toDigits 2, by decide, ?_, ?_⟩
      · rintro ds ⟨⟩
        exact Decimal.isDigits_toDigits 5
      · rintro e ⟨⟩
        exact Decimal.isDigits_toDigits 1
    have hvalue : NumberText.value ⟨false, ['2'], some ['5'], some (false, ['1'])⟩ =
        .ok (.real (.ofRat 25)) := by decide +kernel
    have hround : (Number.real (.ofRat 25)).toBinary32 = .ofRat 25 := by decide +kernel
    rw [← hround]
    exact .mk (.mk hform (.unsigned (.inr rfl))) hvalue
  have hplain : Spells Field.sigmaX.name.toList Field.sigmaX.name.toList :=
    spells_self (by decide)
  have hescaped : Spells
      (['s', 'i', 'g', 'm'] ++ '\\' :: 'u' :: (['0', '0', '6', '1'] ++ ['_', 'x']))
      Field.sigmaX.name.toList := by
    have hword : HexWord (((0 * 16 + 0) * 16 + 6) * 16 + 1) ['0', '0', '6', '1'] :=
      .mk rfl rfl rfl rfl
    have hrest : Spells ['_', 'x'] ['_', 'x'] := spells_self (by decide)
    exact .plain (by decide) <| .plain (by decide) <| .plain (by decide) <| .plain (by decide) <|
      .codePoint hword (by decide) (by decide) hrest
  have hunknown : WritesMember none
      ['"', 'x', '"', ':', '[', '{', '}', ',', 'n', 'u', 'l', 'l', ']'] := by
    have hempty : Grammar .value ['{', '}'] := @Grammar.empty .object [] isBlanks_nil
    have hnull : Grammar .value ['n', 'u', 'l', 'l'] := .scalar (.word (.inl (by decide)))
    have hitems : Grammar (.items .list) ['{', '}', ',', 'n', 'u', 'l', 'l'] :=
      .next isBlanks_nil .list isBlanks_nil hempty isBlanks_nil
        (.last isBlanks_nil .list isBlanks_nil hnull)
    have hkey : Spells ['x'] ['x'] := spells_self (by decide)
    have hname (field : Field) : ['x'] ≠ field.name.toList := by cases field <;> decide
    exact .unknown hkey hname isBlanks_nil isBlanks_nil (.brackets hitems isBlanks_nil)
  have hobject : WritesObject [.sigmaX (.ofRat 25)]
      "\x7b\"x\":[\x7b\x7d,null], \"sigm\\u0061_x\" : 2.5E1\x7d".toList := by
    have hknown := WritesMember.known hescaped isBlanks_space isBlanks_space (.sigmaX hnumber)
    have hmembers :=
      WritesMembers.next isBlanks_nil hunknown isBlanks_nil (.last isBlanks_space hknown)
    exact .members isBlanks_nil hmembers isBlanks_nil isBlanks_nil
  have hlist : WritesList [.sigmaX (.ofRat 25)] "[2.5E1]".toList :=
    .elements isBlanks_nil (.last isBlanks_nil (.sigmaX hnumber)) (by decide) isBlanks_nil
      isBlanks_nil
  have hrepeat : WritesAgain .sigmaX "\x7b\"sigma_x\":2.5E1,\"sigma_x\"!".toList := by
    have hknown := WritesMember.known hplain isBlanks_nil isBlanks_nil (.sigmaX hnumber)
    exact .mk isBlanks_nil (.last isBlanks_nil hknown) (by decide) (by decide) isBlanks_nil
      isBlanks_nil hplain
  refine ⟨?_, ?_, (ofJson_of_text _).2.2 .sigmaX hrepeat⟩
  · rw [(ofJson_of_text _).1 _ hobject (by decide)]
    decide +kernel
  · rw [(ofJson_of_text _).2.1 _ _ hlist (.refl _)]
    decide +kernel

end SeparableBlur

-- SUMMARY: Settings of any kind, written and read back: exactly the valid ones are accepted, and the others are refused for what is wrong with them.
import SeparableBlur.Proofs.SettingsRoundTrip

/-!
# Refused settings

Settings can be written whatever their sigmas are. A sigma that is not finite is written
as `null`, which is no number, so its document is refused while it is read. Every other
sigma is read back as it was, so negative ones are still there when the settings are
validated, and the first of them is reported.
-/

namespace SeparableBlur

open Json NumberText

/-! ## Sigmas that are not finite -/

theorem Binary.toDocument_of_not_isFinite {f : Format} {x : Binary f} (hx : x.isFinite = false)
    (style : NumberStyle) : x.toDocument style = "null" := by
  cases x with
  | nan => rfl
  | infinite s => rfl
  | finite s c => cases hx

/-- What is written for a sigma that is not finite is not read as a number. -/
theorem readSigma_not_finite {x : Binary32} (hx : x.isFinite = false) (rest : List Char) :
    readSigma (' ' :: ((x.toDocument .document).toList ++ rest)) =
      .error (.invalidType .null "f32") := by
  have hword : skipWord "ull".toList ('u' :: 'l' :: 'l' :: rest) = .ok rest := rfl
  have hfound : mismatch "f32" 'n' ('u' :: 'l' :: 'l' :: rest) = .invalidType .null "f32" := by
    simp only [mismatch, if_true, hword, Except.map]
  rw [Binary.toDocument_of_not_isFinite hx, ← hfound]
  rfl

/-! ## Failing members -/

theorem readMembers_of_error {first : Bool} {draft : Draft} {input key : List Char} {e : Json.Error}
    (hkey : nextKey? first input = .ok (some key)) (hmember : readMember draft key = .error e) :
    readMembers first draft input = .error e := by
  rw [readMembers_eq_bind hkey, hmember]
  rfl

/-- Reading ends at a member that cannot be read, whatever stands behind it. -/
theorem readMembers_memberText_error {first : Bool} {draft : Draft} {field : Field}
    {input value rest : List Char} {e : Json.Error}
    (hkey : nextKey? first input = .ok (some (memberText field value rest)))
    (hnew : field.isRead draft = false)
    (hread : field.read draft (' ' :: (value ++ rest)) = .error e) :
    readMembers first draft input = .error e :=
  readMembers_of_error hkey ((readMember_field hnew _).trans hread)

/-- The document of settings with a sigma that is not finite cannot be read. -/
theorem readDocument_not_finite {s : Settings}
    (h : ¬(s.sigmaX.isFinite ∧ s.sigmaY.isFinite)) :
    readDocument s.toJson.toList = .error (.invalidType .null "f32") := by
  have hmembers (members : List Char) (hread : readMembers true {} members =
      .error (.invalidType .null "f32")) :
      readDocument ('\x7b' :: members) = .error (.invalidType .null "f32") := by
    have hsettings : readSettings ('\x7b' :: members) = readMembers true {} members := rfl
    rw [readDocument, hsettings, hread]
    rfl
  rw [toList_toJson]
  apply hmembers
  cases hx : s.sigmaX.isFinite with
  | false =>
    refine readMembers_memberText_error rfl rfl ?_
    rw [Field.read, readSigma_not_finite hx]
    rfl
  | true =>
    have hy : s.sigmaY.isFinite = false := by simpa [hx] using h
    rw [readMembers_sigmaX hx]
    refine readMembers_memberText_error rfl rfl ?_
    rw [Field.read, readSigma_not_finite hy]
    rfl

/-! ## Validation -/

namespace Settings

theorem validateSigma_of_isFinite {x : Binary32} (hx : x.isFinite) :
    validateSigma x = if x < 0 then .error (.invalidSigma x) else .ok () := by
  simp only [validateSigma, hx, Bool.not_true, Bool.false_eq_true, false_or]

/-- Settings with finite sigmas are refused for the first one that is negative. -/
theorem validate_of_isFinite {s : Settings} (hx : s.sigmaX.isFinite) (hy : s.sigmaY.isFinite) :
    s.validate =
      if s.sigmaX < 0 then .error (.invalidSigma s.sigmaX)
      else if s.sigmaY < 0 then .error (.invalidSigma s.sigmaY)
      else .ok () := by
  rw [validate, validateSigma_of_isFinite hx, validateSigma_of_isFinite hy]
  split
  · rfl
  · rfl

/-- Whatever settings are written, their document is refused while it is read if a sigma is not
    finite, and otherwise for the first sigma that is negative. Without either it gives the
    settings themselves. So it is accepted exactly if they are valid. -/
theorem ofJson_toJson_eq (s : Settings) :
    Settings.ofJson s.toJson =
      (if s.sigmaX.isFinite ∧ s.sigmaY.isFinite then
        if s.sigmaX < 0 then .error (.invalidSigma s.sigmaX)
        else if s.sigmaY < 0 then .error (.invalidSigma s.sigmaY)
        else .ok s
      else .error (.document (.invalidType .null "f32"))) ∧
    ((∃ t, Settings.ofJson s.toJson = .ok t) ↔ s.validate = .ok ()) := by
  by_cases hfinite : s.sigmaX.isFinite ∧ s.sigmaY.isFinite
  · obtain ⟨hx, hy⟩ := hfinite
    have hread : Settings.ofJson s.toJson = (do s.validate; return s) := by
      rw [ofJson, readDocument_toJson hx hy]
      rfl
    rw [hread, if_pos ⟨hx, hy⟩, validate_of_isFinite hx hy]
    split_ifs with hnegX hnegY
    · exact ⟨rfl, by simp [bind, Except.bind]⟩
    · exact ⟨rfl, by simp [bind, Except.bind]⟩
    · exact ⟨rfl, fun _ => rfl, fun _ => ⟨s, rfl⟩⟩
  · have hread : Settings.ofJson s.toJson = .error (.document (.invalidType .null "f32")) := by
      rw [ofJson, readDocument_not_finite hfinite]
      rfl
    have hinvalid : s.validate ≠ .ok () := mt isFinite_of_validate hfinite
    rw [hread, if_neg hfinite]
    exact ⟨rfl, by simp [hinvalid]⟩

end Settings

end SeparableBlur

import Offside.Text.Blank
import Offside.Text.Indent
import Offside.Text.Lowercase
import Offside.Token.Kind

/-!
# ASCII letters in capitals and small

Writing the ASCII letters of a text small (`Char.toLower`) keeps every class of characters that the
language tells apart: letters, digits, white space, and what the lower-case form of a name goes by.
So it keeps how far a line is indented and what is trimmed off it, and a name has the same
lower-case form whichever of its ASCII letters are capitals (`lowercase_toLower`).
-/

namespace Offside.Text

variable {c : Char} {cs : List Char}

/-! ### Characters -/

/-- A capital ASCII letter stands 32 codes in front of the small one. -/
private theorem toNat_toLower (c : Char) :
    c.toLower.toNat = if 65 ≤ c.toNat ∧ c.toNat ≤ 90 then c.toNat + 32 else c.toNat := by
  have hle : (c.val ≥ 'A'.val ∧ c.val ≤ 'Z'.val) ↔ 65 ≤ c.toNat ∧ c.toNat ≤ 90 := by
    simp only [UInt32.le_iff_toNat_le, ge_iff_le]
    rfl
  by_cases h : c.val ≥ 'A'.val ∧ c.val ≤ 'Z'.val
  · have hcode := hle.mp h
    rw [if_pos hcode]
    refine (congrArg Char.toNat (dif_pos h)).trans ?_
    change (c.val + 32).toNat = c.val.toNat + 32
    rw [UInt32.toNat_add]
    exact Nat.mod_eq_of_lt (by change c.toNat + 32 < _; omega)
  · rw [if_neg (mt hle.mpr h)]
    exact congrArg Char.toNat (dif_neg h)

/-- A character that is no ASCII letter is written in one way. -/
theorem toLower_of_not_isAlpha (h : c.isAlpha = false) : c.toLower = c := by
  refine Char.toNat_inj.mp ?_
  rw [toNat_toLower, if_neg]
  intro hcode
  rw [isAlpha_iff.mpr (.inl hcode)] at h
  cases h

/-- A letter stays a letter, and nothing else becomes one. -/
theorem isAlpha_toLower (c : Char) : c.toLower.isAlpha = c.isAlpha := by
  rw [Bool.eq_iff_iff, isAlpha_iff, isAlpha_iff, toNat_toLower]
  split <;> omega

/-- What does not tell letters from each other does not go by their case. -/
theorem apply_toLower {α : Type} {f : Char → α}
    (h : ∀ {c d : Char}, c.isAlpha = true → d.isAlpha = true → f c = f d) (c : Char) :
    f c.toLower = f c := by
  cases hc : c.isAlpha with
  | false => rw [toLower_of_not_isAlpha hc]
  | true => exact h ((isAlpha_toLower c).trans hc) hc

/-- No letter is white space. -/
private theorem isBlank_of_isAlpha (h : c.isAlpha = true) : isBlank c = false := by
  rw [isAlpha_iff] at h
  simp only [isBlank, Bool.or_eq_false_iff, Bool.and_eq_false_iff, decide_eq_false_iff_not,
    beq_eq_false_iff_ne]
  omega

private theorem isMargin_of_isAlpha (h : c.isAlpha = true) : isMargin c = false := by
  refine Bool.eq_false_iff.mpr fun hmargin => ?_
  rcases Bool.or_eq_true_iff.mp hmargin with hmargin | hmargin <;>
    · rw [eq_of_beq hmargin] at h
      cases h

/-- No ASCII letter is in the table of the characters that may stand within a word. -/
private theorem isCaseIgnorable_of_isAlpha (h : c.isAlpha = true) : isCaseIgnorable c = false := by
  have hmiss : ∀ range ∈ caseIgnorableRanges,
      range.2 < 65 ∨ 90 < range.1 ∧ range.2 < 97 ∨ 122 < range.1 := by
    decide +kernel
  refine Bool.eq_false_iff.mpr fun hin => ?_
  obtain ⟨range, hmem, hcode⟩ := List.any_eq_true.mp hin
  have hletter := isAlpha_iff.mp h
  have hrange := hmiss range hmem
  simp only [Bool.and_eq_true, decide_eq_true_eq] at hcode
  omega

/-- To write small what is written small changes nothing. -/
theorem toLower_toLower (c : Char) : c.toLower.toLower = c.toLower := by
  refine Char.toNat_inj.mp ?_
  rw [toNat_toLower, toNat_toLower]
  by_cases h : 65 ≤ c.toNat ∧ c.toNat ≤ 90
  · rw [if_pos h, if_neg (by omega)]
  · rw [if_neg h, if_neg h]

/-! ### Texts -/

theorem isBlank_toLower (c : Char) : isBlank c.toLower = isBlank c :=
  apply_toLower (fun hc hd => (isBlank_of_isAlpha hc).trans (isBlank_of_isAlpha hd).symm) c

private theorem isMargin_toLower (c : Char) : isMargin c.toLower = isMargin c :=
  apply_toLower (fun hc hd => (isMargin_of_isAlpha hc).trans (isMargin_of_isAlpha hd).symm) c

/-- Blank texts are those that are blank in small letters. -/
theorem isBlankText_toLower (cs : List Char) :
    isBlankText (cs.map Char.toLower) = isBlankText cs := by
  rw [isBlankText, List.all_map]
  exact congrArg _ (funext isBlank_toLower)

private theorem trimEnd_toLower (cs : List Char) :
    trimEnd (cs.map Char.toLower) = (trimEnd cs).map Char.toLower := by
  induction cs with
  | nil => rfl
  | cons c cs ih =>
    rw [List.map_cons, trimEnd, trimEnd, ih]
    cases trimEnd cs with
    | nil =>
      simp only [List.map_nil, isBlank_toLower]
      split <;> rfl
    | cons kept rest => rfl

/-- White space is taken off the ends alike. -/
theorem trim_toLower (cs : List Char) :
    trim (cs.map Char.toLower) = (trim cs).map Char.toLower := by
  have hblank : isBlank ∘ Char.toLower = isBlank := funext isBlank_toLower
  rw [trim, trim, trimStart, trimStart, List.dropWhile_map, hblank, trimEnd_toLower]

/-- Letters are written behind the margin of a line. -/
private theorem margin_toLower (cs : List Char) : margin (cs.map Char.toLower) = margin cs := by
  have hmargin : isMargin ∘ Char.toLower = isMargin := funext isMargin_toLower
  rw [margin, margin, List.takeWhile_map, hmargin]
  refine (List.map_congr_left fun c hc => toLower_of_not_isAlpha ?_).trans (List.map_id _)
  refine Bool.eq_false_iff.mpr fun halpha => ?_
  have hnot := isMargin_of_isAlpha halpha
  rw [List.all_eq_true.mp List.all_takeWhile c hc] at hnot
  cases hnot

/-- A line is indented as far as it is in small letters. -/
theorem indentLevel_toLower (cs : List Char) :
    indentLevel (cs.map Char.toLower) = indentLevel cs := by
  rw [indentLevel, indentLevel, margin_toLower]

/-! ### Lower-case forms -/

/-- Whether a cased letter comes next does not go by the case of ASCII letters. -/
private theorem meetsCased_toLower (cs : List Char) :
    meetsCased (cs.map Char.toLower) = meetsCased cs := by
  have hignorable : isCaseIgnorable ∘ Char.toLower = isCaseIgnorable :=
    funext (apply_toLower fun hc hd =>
      (isCaseIgnorable_of_isAlpha hc).trans (isCaseIgnorable_of_isAlpha hd).symm)
  have hcased : ∀ c : Char, isCased c.toLower = isCased c :=
    apply_toLower fun hc hd => (isCased_of_isAlpha hc).trans (isCased_of_isAlpha hd).symm
  rw [meetsCased, meetsCased, List.dropWhile_map, hignorable]
  cases cs.dropWhile isCaseIgnorable with
  | nil => rfl
  | cons c rest => exact hcased c

private theorem lowerChar_toLower (c : Char) : lowerChar c.toLower = lowerChar c := by
  cases hc : c.isAlpha with
  | false => rw [toLower_of_not_isAlpha hc]
  | true =>
    have hcode := isAlpha_iff.mp hc
    have hcode' := isAlpha_iff.mp ((isAlpha_toLower c).trans hc)
    rw [lowerChar, lowerChar, if_pos (by omega), if_pos (by omega), toLower_toLower]

/-- The lower-case form of a character, among others, does not go by the case of the ASCII letters
around it, nor by its own. -/
private theorem lowerAt_toLower (before : List Char) (c : Char) (after : List Char) :
    lowerAt (before.map Char.toLower) c.toLower (after.map Char.toLower) =
      lowerAt before c after := by
  cases hc : c.isAlpha with
  | false =>
    rw [toLower_of_not_isAlpha hc, lowerAt, lowerAt, endsWord, endsWord, meetsCased_toLower,
      meetsCased_toLower]
  | true =>
    have hspecial : ∀ d : Char, d.isAlpha = true → d ≠ 'Σ' ∧ d ≠ 'İ' := by
      rintro d hd
      constructor <;> rintro rfl <;> cases hd
    obtain ⟨hsigma, hdotted⟩ := hspecial c hc
    obtain ⟨hsigma', hdotted'⟩ := hspecial c.toLower ((isAlpha_toLower c).trans hc)
    rw [lowerAt, lowerAt, if_neg hsigma, if_neg hdotted, if_neg hsigma', if_neg hdotted',
      lowerChar_toLower]

private theorem lowerFrom_toLower (before cs : List Char) :
    lowerFrom (before.map Char.toLower) (cs.map Char.toLower) = lowerFrom before cs := by
  induction cs generalizing before with
  | nil => rfl
  | cons c after ih =>
    rw [List.map_cons, lowerFrom, lowerFrom, lowerAt_toLower, ← List.map_cons, ih]

theorem toList_toLower (text : String) : text.toLower.toList = text.toList.map Char.toLower :=
  String.toList_map

/-- **Spellings of a name** that differ in the case of ASCII letters have the same lower-case
form. -/
theorem lowercase_toLower (name : String) : lowercase name.toLower = lowercase name := by
  rw [lowercase, lowercase, toList_toLower]
  exact congrArg String.ofList (lowerFrom_toLower [] name.toList)

end Offside.Text

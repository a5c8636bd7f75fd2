import Offside.Text.Cased

/-!
# Lower case

Names are compared without regard to case: two names are one when their lower-case forms are
equal. Each capital letter gives way to its lower-case partner, for all of Unicode 14, and every
other character stays. Two capitals ask for more than a table of partners: the sigma has one
partner at the end of a word and another elsewhere, so that the letters around it decide, and
the dotted capital `İ` becomes two characters.

The main statement, `lowercase_lowercase`, says that a lower-case form is its own lower-case form.
-/

namespace Offside.Text

/-- A run of capital letters: every `step`-th character from `first` to `last`. Their lower-case
partners follow each other at the same distance, from `small` on. -/
structure CapitalRun where
  first : Nat
  last : Nat
  step : Nat
  small : Nat

namespace CapitalRun

/-- Whether the character with code `n` is in the run. -/
def covers (run : CapitalRun) (n : Nat) : Bool :=
  run.first ≤ n && n ≤ run.last && (n - run.first) % run.step == 0

/-- The code of the lower-case partner of the character with code `n`, which is in the run. -/
def partner (run : CapitalRun) (n : Nat) : Nat :=
  run.small + (n - run.first)

end CapitalRun

/-- The capital letters beyond ASCII, in increasing order. -/
def capitalRuns : List CapitalRun :=
  [ ⟨0x00C0, 0x00D6, 1, 0x00E0⟩, ⟨0x00D8, 0x00DE, 1, 0x00F8⟩, ⟨0x0100, 0x012E, 2, 0x0101⟩,
    ⟨0x0132, 0x0136, 2, 0x0133⟩, ⟨0x0139, 0x0147, 2, 0x013A⟩, ⟨0x014A, 0x0176, 2, 0x014B⟩,
    ⟨0x0178, 0x0178, 1, 0x00FF⟩, ⟨0x0179, 0x017D, 2, 0x017A⟩, ⟨0x0181, 0x0181, 1, 0x0253⟩,
    ⟨0x0182, 0x0184, 2, 0x0183⟩, ⟨0x0186, 0x0186, 1, 0x0254⟩, ⟨0x0187, 0x0187, 1, 0x0188⟩,
    ⟨0x0189, 0x018A, 1, 0x0256⟩, ⟨0x018B, 0x018B, 1, 0x018C⟩, ⟨0x018E, 0x018E, 1, 0x01DD⟩,
    ⟨0x018F, 0x018F, 1, 0x0259⟩, ⟨0x0190, 0x0190, 1, 0x025B⟩, ⟨0x0191, 0x0191, 1, 0x0192⟩,
    ⟨0x0193, 0x0193, 1, 0x0260⟩, ⟨0x0194, 0x0194, 1, 0x0263⟩, ⟨0x0196, 0x0196, 1, 0x0269⟩,
    ⟨0x0197, 0x0197, 1, 0x0268⟩, ⟨0x0198, 0x0198, 1, 0x0199⟩, ⟨0x019C, 0x019C, 1, 0x026F⟩,
    ⟨0x019D, 0x019D, 1, 0x0272⟩, ⟨0x019F, 0x019F, 1, 0x0275⟩, ⟨0x01A0, 0x01A4, 2, 0x01A1⟩,
    ⟨0x01A6, 0x01A6, 1, 0x0280⟩, ⟨0x01A7, 0x01A7, 1, 0x01A8⟩, ⟨0x01A9, 0x01A9, 1, 0x0283⟩,
    ⟨0x01AC, 0x01AC, 1, 0x01AD⟩, ⟨0x01AE, 0x01AE, 1, 0x0288⟩, ⟨0x01AF, 0x01AF, 1, 0x01B0⟩,
    ⟨0x01B1, 0x01B2, 1, 0x028A⟩, ⟨0x01B3, 0x01B5, 2, 0x01B4⟩, ⟨0x01B7, 0x01B7, 1, 0x0292⟩,
    ⟨0x01B8, 0x01B8, 1, 0x01B9⟩, ⟨0x01BC, 0x01BC, 1, 0x01BD⟩, ⟨0x01C4, 0x01C4, 1, 0x01C6⟩,
    ⟨0x01C5, 0x01C5, 1, 0x01C6⟩, ⟨0x01C7, 0x01C7, 1, 0x01C9⟩, ⟨0x01C8, 0x01C8, 1, 0x01C9⟩,
    ⟨0x01CA, 0x01CA, 1, 0x01CC⟩, ⟨0x01CB, 0x01DB, 2, 0x01CC⟩, ⟨0x01DE, 0x01EE, 2, 0x01DF⟩,
    ⟨0x01F1, 0x01F1, 1, 0x01F3⟩, ⟨0x01F2, 0x01F4, 2, 0x01F3⟩, ⟨0x01F6, 0x01F6, 1, 0x0195⟩,
    ⟨0x01F7, 0x01F7, 1, 0x01BF⟩, ⟨0x01F8, 0x021E, 2, 0x01F9⟩, ⟨0x0220, 0x0220, 1, 0x019E⟩,
    ⟨0x0222, 0x0232, 2, 0x0223⟩, ⟨0x023A, 0x023A, 1, 0x2C65⟩, ⟨0x023B, 0x023B, 1, 0x023C⟩,
    ⟨0x023D, 0x023D, 1, 0x019A⟩, ⟨0x023E, 0x023E, 1, 0x2C66⟩, ⟨0x0241, 0x0241, 1, 0x0242⟩,
    ⟨0x0243, 0x0243, 1, 0x0180⟩, ⟨0x0244, 0x0244, 1, 0x0289⟩, ⟨0x0245, 0x0245, 1, 0x028C⟩,
    ⟨0x0246, 0x024E, 2, 0x0247⟩, ⟨0x0370, 0x0372, 2, 0x0371⟩, ⟨0x0376, 0x0376, 1, 0x0377⟩,
    ⟨0x037F, 0x037F, 1, 0x03F3⟩, ⟨0x0386, 0x0386, 1, 0x03AC⟩, ⟨0x0388, 0x038A, 1, 0x03AD⟩,
    ⟨0x038C, 0x038C, 1, 0x03CC⟩, ⟨0x038E, 0x038F, 1, 0x03CD⟩, ⟨0x0391, 0x03A1, 1, 0x03B1⟩,
    ⟨0x03A3, 0x03AB, 1, 0x03C3⟩, ⟨0x03CF, 0x03CF, 1, 0x03D7⟩, ⟨0x03D8, 0x03EE, 2, 0x03D9⟩,
    ⟨0x03F4, 0x03F4, 1, 0x03B8⟩, ⟨0x03F7, 0x03F7, 1, 0x03F8⟩, ⟨0x03F9, 0x03F9, 1, 0x03F2⟩,
    ⟨0x03FA, 0x03FA, 1, 0x03FB⟩, ⟨0x03FD, 0x03FF, 1, 0x037B⟩, ⟨0x0400, 0x040F, 1, 0x0450⟩,
    ⟨0x0410, 0x042F, 1, 0x0430⟩, ⟨0x0460, 0x0480, 2, 0x0461⟩, ⟨0x048A, 0x04BE, 2, 0x048B⟩,
    ⟨0x04C0, 0x04C0, 1, 0x04CF⟩, ⟨0x04C1, 0x04CD, 2, 0x04C2⟩, ⟨0x04D0, 0x052E, 2, 0x04D1⟩,
    ⟨0x0531, 0x0556, 1, 0x0561⟩, ⟨0x10A0, 0x10C5, 1, 0x2D00⟩, ⟨0x10C7, 0x10C7, 1, 0x2D27⟩,
    ⟨0x10CD, 0x10CD, 1, 0x2D2D⟩, ⟨0x13A0, 0x13EF, 1, 0xAB70⟩, ⟨0x13F0, 0x13F5, 1, 0x13F8⟩,
    ⟨0x1C90, 0x1CBA, 1, 0x10D0⟩, ⟨0x1CBD, 0x1CBF, 1, 0x10FD⟩, ⟨0x1E00, 0x1E94, 2, 0x1E01⟩,
    ⟨0x1E9E, 0x1E9E, 1, 0x00DF⟩, ⟨0x1EA0, 0x1EFE, 2, 0x1EA1⟩, ⟨0x1F08, 0x1F0F, 1, 0x1F00⟩,
    ⟨0x1F18, 0x1F1D, 1, 0x1F10⟩, ⟨0x1F28, 0x1F2F, 1, 0x1F20⟩, ⟨0x1F38, 0x1F3F, 1, 0x1F30⟩,
    ⟨0x1F48, 0x1F4D, 1, 0x1F40⟩, ⟨0x1F59, 0x1F5F, 2, 0x1F51⟩, ⟨0x1F68, 0x1F6F, 1, 0x1F60⟩,
    ⟨0x1F88, 0x1F8F, 1, 0x1F80⟩, ⟨0x1F98, 0x1F9F, 1, 0x1F90⟩, ⟨0x1FA8, 0x1FAF, 1, 0x1FA0⟩,
    ⟨0x1FB8, 0x1FB9, 1, 0x1FB0⟩, ⟨0x1FBA, 0x1FBB, 1, 0x1F70⟩, ⟨0x1FBC, 0x1FBC, 1, 0x1FB3⟩,
    ⟨0x1FC8, 0x1FCB, 1, 0x1F72⟩, ⟨0x1FCC, 0x1FCC, 1, 0x1FC3⟩, ⟨0x1FD8, 0x1FD9, 1, 0x1FD0⟩,
    ⟨0x1FDA, 0x1FDB, 1, 0x1F76⟩, ⟨0x1FE8, 0x1FE9, 1, 0x1FE0⟩, ⟨0x1FEA, 0x1FEB, 1, 0x1F7A⟩,
    ⟨0x1FEC, 0x1FEC, 1, 0x1FE5⟩, ⟨0x1FF8, 0x1FF9, 1, 0x1F78⟩, ⟨0x1FFA, 0x1FFB, 1, 0x1F7C⟩,
    ⟨0x1FFC, 0x1FFC, 1, 0x1FF3⟩, ⟨0x2126, 0x2126, 1, 0x03C9⟩, ⟨0x212A, 0x212A, 1, 0x006B⟩,
    ⟨0x212B, 0x212B, 1, 0x00E5⟩, ⟨0x2132, 0x2132, 1, 0x214E⟩, ⟨0x2160, 0x216F, 1, 0x2170⟩,
    ⟨0x2183, 0x2183, 1, 0x2184⟩, ⟨0x24B6, 0x24CF, 1, 0x24D0⟩, ⟨0x2C00, 0x2C2F, 1, 0x2C30⟩,
    ⟨0x2C60, 0x2C60, 1, 0x2C61⟩, ⟨0x2C62, 0x2C62, 1, 0x026B⟩, ⟨0x2C63, 0x2C63, 1, 0x1D7D⟩,
    ⟨0x2C64, 0x2C64, 1, 0x027D⟩, ⟨0x2C67, 0x2C6B, 2, 0x2C68⟩, ⟨0x2C6D, 0x2C6D, 1, 0x0251⟩,
    ⟨0x2C6E, 0x2C6E, 1, 0x0271⟩, ⟨0x2C6F, 0x2C6F, 1, 0x0250⟩, ⟨0x2C70, 0x2C70, 1, 0x0252⟩,
    ⟨0x2C72, 0x2C72, 1, 0x2C73⟩, ⟨0x2C75, 0x2C75, 1, 0x2C76⟩, ⟨0x2C7E, 0x2C7F, 1, 0x023F⟩,
    ⟨0x2C80, 0x2CE2, 2, 0x2C81⟩, ⟨0x2CEB, 0x2CED, 2, 0x2CEC⟩, ⟨0x2CF2, 0x2CF2, 1, 0x2CF3⟩,
    ⟨0xA640, 0xA66C, 2, 0xA641⟩, ⟨0xA680, 0xA69A, 2, 0xA681⟩, ⟨0xA722, 0xA72E, 2, 0xA723⟩,
    ⟨0xA732, 0xA76E, 2, 0xA733⟩, ⟨0xA779, 0xA77B, 2, 0xA77A⟩, ⟨0xA77D, 0xA77D, 1, 0x1D79⟩,
    ⟨0xA77E, 0xA786, 2, 0xA77F⟩, ⟨0xA78B, 0xA78B, 1, 0xA78C⟩, ⟨0xA78D, 0xA78D, 1, 0x0265⟩,
    ⟨0xA790, 0xA792, 2, 0xA791⟩, ⟨0xA796, 0xA7A8, 2, 0xA797⟩, ⟨0xA7AA, 0xA7AA, 1, 0x0266⟩,
    ⟨0xA7AB, 0xA7AB, 1, 0x025C⟩, ⟨0xA7AC, 0xA7AC, 1, 0x0261⟩, ⟨0xA7AD, 0xA7AD, 1, 0x026C⟩,
    ⟨0xA7AE, 0xA7AE, 1, 0x026A⟩, ⟨0xA7B0, 0xA7B0, 1, 0x029E⟩, ⟨0xA7B1, 0xA7B1, 1, 0x0287⟩,
    ⟨0xA7B2, 0xA7B2, 1, 0x029D⟩, ⟨0xA7B3, 0xA7B3, 1, 0xAB53⟩, ⟨0xA7B4, 0xA7C2, 2, 0xA7B5⟩,
    ⟨0xA7C4, 0xA7C4, 1, 0xA794⟩, ⟨0xA7C5, 0xA7C5, 1, 0x0282⟩, ⟨0xA7C6, 0xA7C6, 1, 0x1D8E⟩,
    ⟨0xA7C7, 0xA7C9, 2, 0xA7C8⟩, ⟨0xA7D0, 0xA7D0, 1, 0xA7D1⟩, ⟨0xA7D6, 0xA7D8, 2, 0xA7D7⟩,
    ⟨0xA7F5, 0xA7F5, 1, 0xA7F6⟩, ⟨0xFF21, 0xFF3A, 1, 0xFF41⟩, ⟨0x10400, 0x10427, 1, 0x10428⟩,
    ⟨0x104B0, 0x104D3, 1, 0x104D8⟩, ⟨0x10570, 0x1057A, 1, 0x10597⟩, ⟨0x1057C, 0x1058A, 1, 0x105A3⟩,
    ⟨0x1058C, 0x10592, 1, 0x105B3⟩, ⟨0x10594, 0x10595, 1, 0x105BB⟩, ⟨0x10C80, 0x10CB2, 1, 0x10CC0⟩,
    ⟨0x118A0, 0x118BF, 1, 0x118C0⟩, ⟨0x16E40, 0x16E5F, 1, 0x16E60⟩,
    ⟨0x1E900, 0x1E921, 1, 0x1E922⟩ ]

/-- The lower-case partner of a capital letter, and any other character itself. -/
def lowerChar (c : Char) : Char :=
  if c.toNat < 0x80 then c.toLower
  else
    match capitalRuns.find? fun run => run.covers c.toNat with
    | some run => Char.ofNat (run.partner c.toNat)
    | none => c

/-- Whether there is a character that is not case-ignorable and the first such is cased. -/
def meetsCased (cs : List Char) : Bool :=
  match cs.dropWhile isCaseIgnorable with
  | [] => false
  | c :: _ => isCased c

/-- Whether a letter between two texts is the last one of a word of several letters: a cased
character stands before it and none behind, whatever case-ignorable ones lie between. The text
`before` is written backwards, its nearest character first. -/
def endsWord (before after : List Char) : Bool :=
  meetsCased before && !meetsCased after

/-- The lower-case form of a character between two texts, of which `before` is written
backwards. -/
def lowerAt (before : List Char) (c : Char) (after : List Char) : List Char :=
  if c = 'Σ' then [if endsWord before after then 'ς' else 'σ']
  else if c = 'İ' then ['i', '\u0307']
  else [lowerChar c]

/-- The lower-case form of a text that follows the text `before`, which is written backwards. -/
def lowerFrom (before : List Char) : List Char → List Char
  | [] => []
  | c :: after => lowerAt before c after ++ lowerFrom (c :: before) after

/-- The lower-case form of a name. -/
def lowercase (name : String) : String :=
  String.ofList (lowerFrom [] name.toList)

/-! ### A lower-case form is its own lower-case form -/

/-- Whether a character is its own lower-case form. -/
def isLowered (c : Char) : Bool :=
  c ≠ 'Σ' && c ≠ 'İ' && lowerChar c = c

namespace CapitalRun

/-- Whether no partner of a letter of one run is in the other run. Most runs lie apart; where they
do not, each partner is looked up. -/
def misses (run other : CapitalRun) : Bool :=
  (run.small + (run.last - run.first)).blt other.first || other.last.blt run.small ||
    (List.range ((run.last - run.first) / run.step + 1)).all fun i =>
      !other.covers (run.small + run.step * i)

theorem covers_partner_of_misses {run other : CapitalRun} (hmisses : run.misses other = true)
    {n : Nat} (h : run.covers n = true) : other.covers (run.partner n) = false := by
  simp only [covers, Bool.and_eq_true, decide_eq_true_eq, beq_iff_eq] at h
  obtain ⟨⟨hfirst, hlast⟩, hstep⟩ := h
  have hn := Nat.div_add_mod (n - run.first) run.step
  rw [hstep, Nat.add_zero] at hn
  simp only [misses, Bool.or_eq_true, Nat.blt_eq, List.all_eq_true, List.mem_range,
    Bool.not_eq_true'] at hmisses
  rcases hmisses with hapart | hlooked
  · refine Bool.eq_false_iff.mpr fun hother => ?_
    simp only [covers, Bool.and_eq_true, decide_eq_true_eq] at hother
    simp only [partner] at hother
    omega
  · have hi := Nat.div_le_div_right (Nat.sub_le_sub_right hlast run.first) (c := run.step)
    rw [partner, ← hn]
    exact hlooked _ (Nat.lt_succ_of_le hi)

end CapitalRun

/-- No partner is itself a capital letter of the table. -/
theorem covers_partner {run other : CapitalRun} (hrun : run ∈ capitalRuns)
    (hother : other ∈ capitalRuns) {n : Nat} (h : run.covers n = true) :
    other.covers (run.partner n) = false := by
  have table : (capitalRuns.all fun run => capitalRuns.all run.misses) = true := by
    decide +kernel
  exact CapitalRun.covers_partner_of_misses
    (List.all_eq_true.mp (List.all_eq_true.mp table run hrun) other hother) h

theorem isLowered_partner {run : CapitalRun} (hrun : run ∈ capitalRuns) {n : Nat}
    (h : run.covers n = true) : isLowered (Char.ofNat (run.partner n)) = true := by
  have ends : ∀ run ∈ capitalRuns, run.misses ⟨0x0130, 0x0130, 1, 0x0069⟩ = true ∧
      (0x80 ≤ run.small ∨ run.first = run.last ∧ isLowered (Char.ofNat run.small) = true) := by
    decide +kernel
  obtain ⟨hdotted, hsmall⟩ := ends run hrun
  have hdotted := CapitalRun.covers_partner_of_misses hdotted h
  by_cases hascii : run.partner n < 0x80
  · have hn : run.partner n = run.small := by
      simp only [CapitalRun.covers, Bool.and_eq_true, decide_eq_true_eq] at h
      simp only [CapitalRun.partner] at hascii ⊢
      omega
    rw [hn] at hascii ⊢
    exact (hsmall.resolve_left (Nat.not_le_of_lt hascii)).2
  · by_cases hvalid : (run.partner n).isValidChar
    · have hcode : (Char.ofNat (run.partner n)).toNat = run.partner n := by
        rw [Char.ofNat, dif_pos hvalid]
        rfl
      have hnone : capitalRuns.find? (fun other => other.covers (run.partner n)) = none := by
        simpa using fun other hother => covers_partner hrun hother h
      generalize Char.ofNat (run.partner n) = d at hcode ⊢
      have hlower : lowerChar d = d := by simp [lowerChar, hcode, hascii, hnone]
      have hsigma : d ≠ 'Σ' := by
        rintro rfl
        rw [← hcode] at hnone
        exact absurd hnone (by decide +kernel)
      have hnotDotted : d ≠ 'İ' := by
        rintro rfl
        rw [← hcode] at hdotted
        exact absurd hdotted (by decide +kernel)
      simp [isLowered, hlower, hsigma, hnotDotted]
    · rw [Char.ofNat, dif_neg hvalid]
      decide +kernel

theorem isLowered_lowerChar {c : Char} (hsigma : c ≠ 'Σ') (hdotted : c ≠ 'İ') :
    isLowered (lowerChar c) = true := by
  by_cases hascii : c.toNat < 0x80
  · have table : ∀ n < 0x80, isLowered (lowerChar (Char.ofNat n)) = true := by decide +kernel
    simpa using table c.toNat hascii
  · cases hrun : capitalRuns.find? fun run => run.covers c.toNat with
    | none => simp [isLowered, lowerChar, hascii, hrun, hsigma, hdotted]
    | some run =>
      have hpartner : lowerChar c = Char.ofNat (run.partner c.toNat) := by
        simp [lowerChar, hascii, hrun]
      have hcovers := List.find?_some hrun
      rw [hpartner]
      exact isLowered_partner (List.mem_of_find?_eq_some hrun) hcovers

theorem lowerAt_of_isLowered {c : Char} (h : isLowered c = true) (before after : List Char) :
    lowerAt before c after = [c] := by
  simp only [isLowered, ne_eq, decide_not, Bool.and_eq_true, Bool.not_eq_true',
    decide_eq_false_iff_not, decide_eq_true_eq] at h
  simp [lowerAt, h]

theorem isLowered_of_mem_lowerAt {before after : List Char} {c d : Char}
    (h : d ∈ lowerAt before c after) : isLowered d = true := by
  have marks : isLowered 'ς' = true ∧ isLowered 'σ' = true ∧ isLowered 'i' = true ∧
      isLowered '\u0307' = true := by decide +kernel
  grind [lowerAt, isLowered_lowerChar]

theorem isLowered_of_mem_lowerFrom {before cs : List Char} {d : Char}
    (h : d ∈ lowerFrom before cs) : isLowered d = true := by
  induction cs generalizing before with
  | nil => simp [lowerFrom] at h
  | cons c after ih =>
    rcases List.mem_append.mp h with h | h
    · exact isLowered_of_mem_lowerAt h
    · exact ih h

theorem lowerFrom_of_isLowered {cs : List Char} (h : ∀ c ∈ cs, isLowered c = true)
    (before : List Char) : lowerFrom before cs = cs := by
  induction cs generalizing before with
  | nil => rfl
  | cons c after ih =>
    rw [lowerFrom, lowerAt_of_isLowered (h c List.mem_cons_self),
      ih fun d hd => h d (List.mem_cons_of_mem c hd)]
    rfl

theorem lowercase_lowercase (name : String) : lowercase (lowercase name) = lowercase name := by
  rw [lowercase, lowercase, String.toList_ofList,
    lowerFrom_of_isLowered fun _ h => isLowered_of_mem_lowerFrom h]

end Offside.Text

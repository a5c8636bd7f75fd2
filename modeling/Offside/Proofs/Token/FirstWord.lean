import Offside.Proofs.Text.Case
import Offside.Proofs.Token.Settled

/-!
# The first word of a line

A lexeme that begins with a letter is a whole word: it goes on for as long as names do. So if the
first token of a line is a keyword, then that keyword is the first word of the line, in any case
(`TokenLine.firstWord_of_scan`), and the other way round (`TokenLine.exists_of_firstWord`).
-/

namespace Offside

namespace Text

/-- The word that a line begins with, in small letters. -/
def firstWord (line : List Char) : List Char :=
  ((trim line).takeWhile Kind.isNameChar).map Char.toLower

/-- What is left of a line that is not blank begins with a character that is not white space. -/
private theorem exists_trim_eq_cons {line : List Char} (h : isBlankText line = false) :
    ∃ c cs, trim line = c :: cs ∧ isBlank c = false := by
  rw [← isBlankText_trimStart] at h
  cases hstart : trimStart line with
  | nil =>
    rw [hstart] at h
    cases h
  | cons c cs =>
    have hc : isBlank c = false := by
      have hdrop : line.dropWhile isBlank = c :: cs := hstart
      have hhead := List.head_dropWhile_not isBlank (hdrop ▸ List.cons_ne_nil c cs)
      simpa only [hdrop, List.head_cons] using hhead
    refine ⟨c, trimEnd cs, ?_, hc⟩
    rw [trim, hstart, trimEnd]
    cases trimEnd cs with
    | nil => rw [hc, if_neg Bool.false_ne_true]
    | cons d rest => rfl

end Text

namespace TokenLine

/-- A lexeme that begins with a letter goes on for as long as names do. -/
theorem take_extent_of_isAlpha {c : Char} (hc : c.isAlpha = true) (cs : List Char) :
    cs.take (extent c cs) = cs.takeWhile Kind.isNameChar := by
  rw [extent.eq_def, Kind.isDigit_of_isAlpha hc, if_neg Bool.false_ne_true, if_pos hc]
  exact (List.prefix_iff_eq_take.mp (List.takeWhile_prefix Kind.isNameChar)).symm

/-- A text whose lexeme is a keyword is that keyword, in any case. -/
theorem toLower_eq_of_lexemeOf {text : List Char} (h : lexemeOf text ∈ Kind.keywords) :
    text.map Char.toLower = (lexemeOf text).toList := by
  unfold lexemeOf at h ⊢
  dsimp only at h ⊢
  split
  · exact String.toList_ofList.symm
  · next hkeyword =>
    rw [if_neg hkeyword] at h
    have hsmall : ∀ word ∈ Kind.keywords, word.toList.map Char.toLower = word.toList := by decide
    have htext := hsmall _ h
    rwa [String.toList_ofList] at htext ⊢

/-- **The first token** of a line may be a keyword only if the line begins with that word. -/
theorem firstWord_of_scan {row : Nat} {line : List Char} {scanned : TokenLine}
    (hline : Text.isBlankText line = false) (h : scan row line = .ok scanned) {token : Token}
    {rest : List Token} (htokens : scanned.tokens = token :: rest)
    (hkeyword : token.lexeme ∈ Kind.keywords) : Text.firstWord line = token.lexeme.toList := by
  obtain ⟨tokens, hscan, rfl⟩ := scan_eq_ok_iff.mp h
  obtain ⟨c, cs, htrim, hc⟩ := Text.exists_trim_eq_cons hline
  rw [htrim, scanFrom, if_neg (by rw [hc]; exact Bool.false_ne_true)] at hscan
  split at hscan
  · cases hscan
  · next first hfirst =>
    split at hscan
    · cases hscan
    · cases hscan
      cases htokens
      obtain ⟨kind, -, rfl⟩ := Token.ofLexeme_eq_ok_iff.mp hfirst
      have hlower := toLower_eq_of_lexemeOf hkeyword
      -- keywords begin with a letter, so the text of the token is a whole word
      have halpha : c.isAlpha = true := by
        have hletters : ∀ word ∈ Kind.keywords, word.toList.head?.all Char.isAlpha = true := by
          decide
        have hfirst := hletters _ hkeyword
        rw [← hlower] at hfirst
        exact (Text.isAlpha_toLower c).symm.trans hfirst
      have hname : Kind.isNameChar c = true := by simp [Kind.isNameChar, Char.isAlphanum, halpha]
      rw [Text.firstWord, htrim, List.takeWhile_cons_of_pos hname, ← take_extent_of_isAlpha halpha]
      exact hlower

/-- A line that begins with a keyword, in any case, has that keyword for its first token. -/
theorem exists_of_firstWord {row : Nat} {line : List Char} {scanned : TokenLine}
    (hline : Text.isBlankText line = false) (h : scan row line = .ok scanned) {word : String}
    (hkeyword : word ∈ Kind.keywords) (hword : Text.firstWord line = word.toList) :
    ∃ token rest, scanned.tokens = token :: rest ∧ token.lexeme = word ∧
      Kind.classify word = some token.kind := by
  obtain ⟨tokens, hscan, rfl⟩ := scan_eq_ok_iff.mp h
  obtain ⟨c, cs, htrim, hc⟩ := Text.exists_trim_eq_cons hline
  rw [Text.firstWord, htrim] at hword
  have hletters : ∀ word ∈ Kind.keywords, word.toList.head?.any Char.isAlpha = true := by decide
  have hfirst := hletters word hkeyword
  -- the line begins with a letter, so its first lexeme is the whole word
  have hname : Kind.isNameChar c = true := by
    cases hname : Kind.isNameChar c with
    | true => rfl
    | false =>
      rw [List.takeWhile_cons_of_neg (by simp [hname])] at hword
      rw [← hword] at hfirst
      cases hfirst
  rw [List.takeWhile_cons_of_pos hname] at hword
  have halpha : c.isAlpha = true := by
    rw [← hword] at hfirst
    exact (Text.isAlpha_toLower c).symm.trans hfirst
  have hlexeme : lexemeOf (c :: cs.take (extent c cs)) = word := by
    rw [take_extent_of_isAlpha halpha, lexemeOf, hword, String.ofList_toList]
    exact if_pos hkeyword
  rw [htrim, scanFrom, if_neg (by rw [hc]; exact Bool.false_ne_true), hlexeme] at hscan
  split at hscan
  · cases hscan
  · next token hfirst =>
    obtain ⟨kind, hkind, rfl⟩ := Token.ofLexeme_eq_ok_iff.mp hfirst
    split at hscan
    · cases hscan
    · cases hscan
      exact ⟨_, _, rfl, rfl, hkind⟩

end TokenLine

end Offside

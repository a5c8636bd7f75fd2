import Offside.Proofs.Token.Settled

/-!
# Where tokens stand

The tokens of a line stand on its row and within its text, and so does a character that begins no
lexeme, which is all that scanning may fail by (`TokenLine.offence_of_scan`).
-/

namespace Offside.TokenLine

variable {row column : Nat} {cs line : List Char} {failure : Failure}

/-- Tokens stand within the text that is scanned. -/
private theorem column_of_mem_scanFrom {tokens : List Token}
    (h : scanFrom row column cs = .ok tokens)
    {token : Token} (hmem : token ∈ tokens) :
    column ≤ token.column ∧ token.column < column + cs.length := by
  fun_induction scanFrom row column cs generalizing tokens with
  | case1 => cases h; cases hmem
  | case2 column c cs hblank ih =>
    have hplace := ih h hmem
    rw [List.length_cons]
    omega
  | case3 => cases h
  | case4 => cases h
  | case5 column c cs hblank first hfirst rest hrest ih =>
    cases h
    obtain ⟨kind, -, rfl⟩ := Token.ofLexeme_eq_ok_iff.mp hfirst
    rw [List.length_cons]
    rcases List.mem_cons.mp hmem with rfl | hmem
    · exact ⟨Nat.le_refl column, by dsimp only; omega⟩
    · have hplace := ih hrest hmem
      rw [List.length_drop] at hplace
      omega

/-- What does not scan is a character within the text. -/
private theorem offence_of_scanFrom (h : scanFrom row column cs = .error failure) :
    ∃ lexeme, ∃ place : Nat, failure = .diagnosed ⟨.illegalLexeme lexeme, some row, some place⟩ ∧
      column ≤ place ∧ place < column + cs.length := by
  fun_induction scanFrom row column cs with
  | case1 => cases h
  | case2 column c cs hblank ih =>
    obtain ⟨lexeme, place, hfailure, hplace⟩ := ih h
    refine ⟨lexeme, place, hfailure, ?_⟩
    rw [List.length_cons]
    omega
  | case3 column c cs hblank first hfirst =>
    cases h
    unfold Token.ofLexeme at hfirst
    split at hfirst
    · cases hfirst
    · cases hfirst
      exact ⟨_, column, rfl, Nat.le_refl column, by rw [List.length_cons]; omega⟩
  | case4 column c cs hblank first hfirst found hrest ih =>
    cases h
    obtain ⟨lexeme, place, hfailure, hplace⟩ := ih hrest
    refine ⟨lexeme, place, hfailure, ?_⟩
    rw [List.length_drop] at hplace
    rw [List.length_cons]
    omega
  | case5 => cases h

/-- The tokens of a line stand within its text, and the one that ends it stands behind that. -/
theorem column_of_mem_scan {scanned : TokenLine} (h : scan row line = .ok scanned) {token : Token}
    (hmem : token ∈ scanned.toList) : token.column ≤ (Text.trim line).length := by
  obtain ⟨tokens, htokens, rfl⟩ := scan_eq_ok_iff.mp h
  rcases List.mem_append.mp hmem with hmem | hmem
  · have hplace := (column_of_mem_scanFrom htokens hmem).2
    omega
  · rw [List.mem_singleton.mp hmem]
    exact Nat.le_refl _

/-- All tokens of a line stand on its row. -/
theorem row_of_mem_scan {scanned : TokenLine} (h : scan row line = .ok scanned) {token : Token}
    (hmem : token ∈ scanned.toList) : token.row = row := by
  rcases List.mem_append.mp hmem with hmem | hmem
  · exact (settled_of_mem_scan h hmem).2
  · obtain ⟨tokens, -, rfl⟩ := scan_eq_ok_iff.mp h
    rw [List.mem_singleton.mp hmem]
    rfl

/-- **A line that does not scan** has a character that begins no lexeme. -/
theorem offence_of_scan (h : scan row line = .error failure) :
    ∃ lexeme, ∃ place : Nat, failure = .diagnosed ⟨.illegalLexeme lexeme, some row, some place⟩ ∧
      place < (Text.trim line).length := by
  rw [scan] at h
  cases hscan : scanFrom row 0 (Text.trim line) with
  | ok tokens =>
    rw [hscan] at h
    cases h
  | error failure' =>
    rw [hscan] at h
    cases h
    obtain ⟨lexeme, place, hfailure, -, hplace⟩ := offence_of_scanFrom hscan
    exact ⟨lexeme, place, hfailure, by omega⟩

end Offside.TokenLine

import Offside.Proofs.Token.Spelling
import Offside.Text.Indent

/-!
# Words written with spaces

Words that are written in a row with one space between any two of them scan as these words, with
tabs in front or not (`scan_tabbed`). A lexeme is cut out whole when nothing but a space
follows it, whatever class of lexemes it belongs to (`extent_eq_length`).
-/

namespace Offside

/-! ### Lexemes are cut out whole -/

namespace Kind

theorem isBlank_of_isNameChar {c : Char} (h : isNameChar c = true) : Text.isBlank c = false := by
  rw [isNameChar, Char.isAlphanum, Bool.or_eq_true, Bool.or_eq_true, Text.isAlpha_iff,
    Text.isDigit_iff, beq_iff_eq] at h
  have hrange : 48 ≤ c.toNat ∧ c.toNat ≤ 122 := by
    rcases h with (h | h) | rfl
    · omega
    · omega
    · decide
  simp only [Text.isBlank, Bool.or_eq_false_iff, Bool.and_eq_false_iff, decide_eq_false_iff_not,
    beq_eq_false_iff_ne]
  omega

theorem isNameChar_of_isDigit {c : Char} (h : c.isDigit = true) : isNameChar c = true := by
  simp [isNameChar, Char.isAlphanum, h]

theorem isNameChar_of_isAlpha {c : Char} (h : c.isAlpha = true) : isNameChar c = true := by
  simp [isNameChar, Char.isAlphanum, h]

end Kind

namespace TokenLine

/-- Whether the characters behind the first one are none, or complete an operator of two. -/
def isOperatorRest (c : Char) : List Char → Bool
  | [] => true
  | [d] => isPair c d && !Text.isBlank d
  | _ => false

/-- An operator is one character, or a pair that belongs together. -/
theorem isOperatorRest_iff {c : Char} {cs : List Char} :
    isOperatorRest c cs = true ↔
      cs = [] ∨ ∃ d, cs = [d] ∧ isPair c d = true ∧ Text.isBlank d = false := by
  cases cs with
  | nil => simp [isOperatorRest]
  | cons d cs => cases cs <;> simp [isOperatorRest]

/-- Whether a text is one lexeme by its shape: a number, a name or keyword, or an operator. -/
def isLexeme : List Char → Bool
  | [] => false
  | c :: cs =>
    if c.isDigit then cs.all Char.isDigit
    else if c.isAlpha then cs.all Kind.isNameChar
    else !Text.isBlank c && isOperatorRest c cs

/-- What is classified is a lexeme. -/
theorem isLexeme_of_classify {lexeme : String} {kind : Kind}
    (h : Kind.classify lexeme = some kind) : isLexeme lexeme.toList = true := by
  cases hspelling : kind.spelling? with
  | some spelling =>
    have htable : ∀ kind ∈ Kind.all, ∀ lexeme ∈ kind.spelling?, isLexeme lexeme.toList = true := by
      decide
    rw [Kind.lexeme_eq_of_classify h hspelling]
    exact htable kind (Kind.mem_all kind) spelling hspelling
  | none =>
    have hkind : kind = .integer ∨ kind = .identifier := by
      cases kind <;> simp_all [Kind.spelling?]
    rcases hkind with rfl | rfl
    · have hnumeral := Kind.classify_eq_integer_iff.mp h
      cases hcs : lexeme.toList with
      | nil => rw [hcs] at hnumeral; cases hnumeral
      | cons c cs =>
        rw [hcs, Kind.isNumeral, List.isEmpty_cons, List.all_cons, Bool.not_false, Bool.true_and,
          Bool.and_eq_true] at hnumeral
        rw [isLexeme, if_pos hnumeral.1]
        exact hnumeral.2
    · have hname := Kind.isName_of_classify h
      cases hcs : lexeme.toList with
      | nil => rw [hcs] at hname; cases hname
      | cons c cs =>
        rw [hcs, Kind.isName, Bool.and_eq_true] at hname
        rw [isLexeme, if_neg (by simp [Kind.isDigit_of_isAlpha hname.1]), if_pos hname.1]
        exact hname.2

/-- No character of a lexeme is blank. -/
private theorem isBlank_of_isLexeme {cs : List Char} (h : isLexeme cs = true) {c : Char}
    (hmem : c ∈ cs) :
    Text.isBlank c = false := by
  cases cs with
  | nil => cases hmem
  | cons first cs =>
    rw [isLexeme] at h
    split at h
    · next hdigit =>
      have hall : ∀ c ∈ first :: cs, c.isDigit = true :=
        List.forall_mem_cons.mpr ⟨hdigit, List.all_eq_true.mp h⟩
      exact Kind.isBlank_of_isNameChar (Kind.isNameChar_of_isDigit (hall c hmem))
    · split at h
      · next halpha =>
        have hall : ∀ c ∈ first :: cs, Kind.isNameChar c = true :=
          List.forall_mem_cons.mpr ⟨Kind.isNameChar_of_isAlpha halpha, List.all_eq_true.mp h⟩
        exact Kind.isBlank_of_isNameChar (hall c hmem)
      · rw [Bool.and_eq_true, Bool.not_eq_true'] at h
        obtain ⟨hfirst, hrest⟩ := h
        rcases isOperatorRest_iff.mp hrest with rfl | ⟨d, rfl, -, hd⟩
        · obtain rfl := List.mem_singleton.mp hmem
          exact hfirst
        · rcases List.mem_cons.mp hmem with rfl | hmem
          · exact hfirst
          · obtain rfl := List.mem_singleton.mp hmem
            exact hd

/-- A lexeme extends to its end where nothing but a space follows. -/
private theorem extent_eq_length {c : Char} {cs rest : List Char} (h : isLexeme (c :: cs) = true)
    (hrest : ∀ d ∈ rest.head?, d = ' ') : extent c (cs ++ rest) = cs.length := by
  have htake : ∀ p : Char → Bool, p ' ' = false → cs.all p = true →
      (cs ++ rest).takeWhile p = cs := by
    intro p hspace hall
    rw [List.takeWhile_append_of_pos (List.all_eq_true.mp hall)]
    -- a space stops the run
    cases rest with
    | nil => rw [List.takeWhile_nil, List.append_nil]
    | cons d rest =>
      obtain rfl := hrest d rfl
      rw [List.takeWhile_cons_of_neg (by simp [hspace]), List.append_nil]
  rw [isLexeme] at h
  rw [extent.eq_def]
  split at h
  · next hdigit => rw [if_pos hdigit, htake _ (by decide) h]
  · next hdigit =>
    rw [if_neg hdigit]
    split at h
    · next halpha => rw [if_pos halpha, htake _ (by decide) h]
    · next halpha =>
      rw [if_neg halpha]
      rw [Bool.and_eq_true] at h
      rcases isOperatorRest_iff.mp h.2 with rfl | ⟨d, rfl, hpair, -⟩
      · -- no operator of two characters ends in a space
        cases rest with
        | nil => rfl
        | cons d rest =>
          obtain rfl := hrest d rfl
          simp [isPair]
      · simp [hpair]

end TokenLine

/-! ### Words in a row -/

/-- The text of words, with a space between any two of them. -/
def Word.spaced : List Word → List Char
  | [] => []
  | [word] => word.lexeme.toList
  | word :: next :: words => word.lexeme.toList ++ ' ' :: spaced (next :: words)

/-- The tokens of words with a space between any two of them, the first one at the given column. -/
def Token.spaced (row column : Nat) : List Word → List Token
  | [] => []
  | word :: words =>
    ⟨word, row, column⟩ :: spaced row (column + word.lexeme.toList.length + 1) words

theorem Token.map_toWord_spaced (row column : Nat) (words : List Word) :
    (spaced row column words).map Token.toWord = words := by
  induction words generalizing column with
  | nil => rfl
  | cons word words ih => rw [spaced, List.map_cons, ih]

/-- A word in a row stands behind the words before it and the spaces behind those. -/
theorem Token.getElem?_spaced (row column : Nat) (words : List Word) (i : Nat) :
    (spaced row column words)[i]? = words[i]?.map fun word => ⟨word, row,
      column + ((words.take i).flatMap fun before => before.lexeme.toList ++ [' ']).length⟩ := by
  induction words generalizing column i with
  | nil => rfl
  | cons word words ih =>
    cases i with
    | zero => rfl
    | succ i =>
      rw [spaced, List.getElem?_cons_succ, List.getElem?_cons_succ, ih, List.take_succ_cons,
        List.flatMap_cons, List.length_append, List.length_append, List.length_singleton,
        Nat.add_assoc column, Nat.add_assoc column]

namespace TokenLine

variable {word : Word} {words : List Word}

private theorem isLexeme_of_isSettled (h : word.IsSettled) :
    ∃ c cs, word.lexeme.toList = c :: cs ∧ isLexeme (c :: cs) = true := by
  have hlexeme := isLexeme_of_classify h.legal
  cases hcs : word.lexeme.toList with
  | nil =>
    rw [hcs] at hlexeme
    cases hlexeme
  | cons c cs => exact ⟨c, cs, rfl, hcs ▸ hlexeme⟩

/-- The token of a settled word is scanned first, if nothing but a space follows its lexeme. -/
private theorem scanFrom_append (row column : Nat) (h : word.IsSettled) (rest : List Char)
    (hrest : ∀ d ∈ rest.head?, d = ' ') :
    scanFrom row column (word.lexeme.toList ++ rest) =
      (scanFrom row (column + word.lexeme.toList.length) rest).map
        fun tokens => ⟨word, row, column⟩ :: tokens := by
  obtain ⟨c, cs, hcs, hlexeme⟩ := isLexeme_of_isSettled h
  have hblank := isBlank_of_isLexeme hlexeme List.mem_cons_self
  have hspelled := h.spelled
  have htoken : Token.ofLexeme row column word.lexeme = .ok ⟨word, row, column⟩ :=
    Token.ofLexeme_eq_ok_iff.mpr ⟨word.kind, h.legal, rfl⟩
  rw [hcs] at hspelled
  rw [hcs, List.cons_append, scanFrom, if_neg (by simp [hblank]), extent_eq_length hlexeme hrest,
    List.take_left, hspelled, htoken, List.drop_left, List.length_cons,
    Nat.add_assoc column, Nat.add_comm 1]
  cases scanFrom row (column + (cs.length + 1)) rest <;> rfl

/-- Words in a row are scanned one by one. -/
private theorem scanFrom_spaced (row column : Nat) (hwords : ∀ word ∈ words, word.IsSettled) :
    scanFrom row column (Word.spaced words) = .ok (Token.spaced row column words) := by
  induction words generalizing column with
  | nil => exact scanFrom_nil row column
  | cons word words ih =>
    obtain ⟨hword, hrest⟩ := List.forall_mem_cons.mp hwords
    cases words with
    | nil =>
      have hscan := scanFrom_append row column hword [] nofun
      rwa [List.append_nil, scanFrom_nil] at hscan
    | cons next words =>
      have htokens := ih (column + word.lexeme.toList.length + 1) hrest
      have hscan := scanFrom_append row column hword (' ' :: Word.spaced (next :: words)) (by simp)
      rwa [scanFrom, if_pos (by decide), htokens] at hscan

end TokenLine

/-! ### Behind tabs -/

namespace Text

/-- Nothing is taken off the end of a text that ends in no white space. -/
theorem trimEnd_eq_self {cs : List Char} (h : ∀ c ∈ cs.getLast?, isBlank c = false) :
    trimEnd cs = cs := by
  induction cs with
  | nil => rfl
  | cons c cs ih =>
    cases cs with
    | nil => simp [trimEnd, h c rfl]
    | cons d cs =>
      have hrest := ih fun e he => h e (by rwa [List.getLast?_cons_cons])
      rw [trimEnd, hrest]

end Text

section Tabbed

variable {words : List Word}

/-- The first and the last character of words in a row are not blank. -/
private theorem spaced_ends (hne : words ≠ []) (hwords : ∀ word ∈ words, word.IsSettled) :
    ∃ c cs, Word.spaced words = c :: cs ∧ Text.isBlank c = false ∧
      ∀ d ∈ (c :: cs).getLast?, Text.isBlank d = false := by
  induction words with
  | nil => exact absurd rfl hne
  | cons word words ih =>
    obtain ⟨hword, hrest⟩ := List.forall_mem_cons.mp hwords
    obtain ⟨c, cs, hcs, hlexeme⟩ := TokenLine.isLexeme_of_isSettled hword
    have hblank : ∀ d ∈ c :: cs, Text.isBlank d = false := fun _ =>
      TokenLine.isBlank_of_isLexeme hlexeme
    cases words with
    | nil =>
      exact ⟨c, cs, hcs, hblank c List.mem_cons_self,
        fun d hd => hblank d (List.mem_of_getLast? hd)⟩
    | cons next words =>
      obtain ⟨c', cs', hspaced, -, hlast⟩ := ih (List.cons_ne_nil _ _) hrest
      refine ⟨c, cs ++ ' ' :: c' :: cs', ?_, hblank c List.mem_cons_self, fun d hd => hlast d ?_⟩
      · rw [Word.spaced, hcs, hspaced, List.cons_append]
      · rw [← List.cons_append, List.getLast?_append, List.getLast?_cons_cons, List.getLast?_cons,
          Option.some_or] at hd
        rwa [List.getLast?_cons]

/-- The text of words behind tabs. -/
def Word.tabbed (depth : Nat) (words : List Word) : List Char :=
  List.replicate depth '\t' ++ Word.spaced words

theorem Word.isBlankText_tabbed (depth : Nat) (hne : words ≠ [])
    (hwords : ∀ word ∈ words, word.IsSettled) : Text.isBlankText (tabbed depth words) = false := by
  obtain ⟨c, cs, hspaced, hblank, -⟩ := spaced_ends hne hwords
  rw [Text.isBlankText, tabbed, List.all_append, hspaced, List.all_cons, hblank, Bool.false_and,
    Bool.and_false]

/-- A line is indented by the tabs in front of its words. -/
theorem Word.indentLevel_tabbed (depth : Nat) (hne : words ≠ [])
    (hwords : ∀ word ∈ words, word.IsSettled) : Text.indentLevel (tabbed depth words) = depth := by
  obtain ⟨c, cs, hspaced, hblank, -⟩ := spaced_ends hne hwords
  have hmargin : Text.margin (tabbed depth words) = List.replicate depth '\t' := by
    have hc : Text.isMargin c = false := by
      rw [Text.isMargin, Bool.or_eq_false_iff, beq_eq_false_iff_ne, beq_eq_false_iff_ne]
      constructor <;> rintro rfl <;> revert hblank <;> decide
    rw [Text.margin, tabbed, hspaced, List.takeWhile_append_of_pos]
    · rw [List.takeWhile_cons_of_neg (by simp [hc]), List.append_nil]
    · intro d hd
      rw [List.eq_of_mem_replicate hd]
      rfl
  rw [Text.indentLevel, hmargin]
  simp [List.count_replicate]

/-- What is left of a line when its margin is taken off are its words. -/
private theorem Word.trim_tabbed (depth : Nat) (hwords : ∀ word ∈ words, word.IsSettled) :
    Text.trim (tabbed depth words) = spaced words := by
  have htab : ∀ c ∈ List.replicate depth '\t', Text.isBlank c = true := by
    intro c hc
    rw [List.eq_of_mem_replicate hc]
    rfl
  by_cases hne : words = []
  · subst hne
    refine Text.trim_eq_nil_iff.mpr ?_
    rw [Text.isBlankText, tabbed, spaced, List.append_nil]
    exact List.all_eq_true.mpr htab
  · obtain ⟨c, cs, hspaced, hblank, hlast⟩ := spaced_ends hne hwords
    rw [Text.trim, Text.trimStart, tabbed, List.dropWhile_append_of_pos htab, hspaced,
      List.dropWhile_cons_of_neg (by simp [hblank]), Text.trimEnd_eq_self hlast]

/-- **Words behind tabs** scan as the words, which stand as if the tabs were not there. -/
theorem TokenLine.scan_tabbed (row depth : Nat) (hwords : ∀ word ∈ words, word.IsSettled) :
    scan row (Word.tabbed depth words) =
      .ok ⟨Token.spaced row 0 words, .closing row (Word.spaced words).length⟩ := by
  have htrim := Word.trim_tabbed depth hwords
  exact scan_eq_ok_iff.mpr ⟨_, htrim ▸ scanFrom_spaced row 0 hwords, by rw [htrim]⟩

end Tabbed

end Offside

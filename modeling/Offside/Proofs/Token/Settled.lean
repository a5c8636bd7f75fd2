import Offside.Text.Cased
import Offside.Token.Line

/-!
# Settled words

A word is **settled** when its kind is the one that its lexeme has, and its lexeme is spelled
as scanning spells it: no keyword in capital letters. Scanning yields settled words only
(`settled_of_mem_scan`), so behind the scanner the kind of a word determines its lexeme if the
kind has a spelling (`lexeme_eq`), and the lexeme of a name is no keyword in any case
(`isIdentifier`).
-/

namespace Offside

/-! ### Kinds and lexemes -/

namespace Kind

/-- A name that may stand for a variable: no keyword in capital or small letters. -/
def IsIdentifier (name : String) : Prop :=
  isName name.toList = true ∧ String.ofList (name.toList.map Char.toLower) ∉ keywords

instance (name : String) : Decidable (IsIdentifier name) :=
  inferInstanceAs (Decidable (_ ∧ _))

/-- The spelling of a kind has that kind. -/
theorem classify_of_spelling {kind : Kind} {lexeme : String} (h : kind.spelling? = some lexeme) :
    classify lexeme = some kind := by
  cases kind <;> simp only [spelling?, Option.some.injEq, reduceCtorEq] at h <;> subst h <;> rfl

theorem mem_all (kind : Kind) : kind ∈ all := by
  cases kind <;> decide

/-- What a kind with one spelling classifies is that spelling. -/
theorem lexeme_eq_of_classify {kind : Kind} {lexeme spelling : String}
    (h : classify lexeme = some kind) (hs : kind.spelling? = some spelling) :
    lexeme = spelling := by
  unfold classify at h
  split at h
  · next found hfound =>
    have hlexeme := List.find?_some hfound
    rw [Option.some.injEq] at h
    rw [h, hs, beq_iff_eq, Option.some.injEq] at hlexeme
    exact hlexeme.symm
  · split at h
    · cases h
      cases hs
    · split at h
      · cases h
        cases hs
      · cases h

/-- A lexeme that is no spelling is classified by its characters. -/
private theorem classify_of_spelling_ne {lexeme : String}
    (h : ∀ kind : Kind, kind.spelling? ≠ some lexeme) :
    classify lexeme =
      if isNumeral lexeme.toList then some integer
      else if isName lexeme.toList then some identifier
      else none := by
  have hnone : all.find? (fun kind => kind.spelling? == some lexeme) = none :=
    List.find?_eq_none.mpr fun kind _ => by simpa using h kind
  rw [classify, hnone]

theorem classify_eq_integer_iff {lexeme : String} :
    classify lexeme = some .integer ↔ isNumeral lexeme.toList = true := by
  by_cases hspelling : ∃ kind : Kind, kind.spelling? = some lexeme
  · obtain ⟨kind, hkind⟩ := hspelling
    have table : ∀ kind ∈ all, ∀ lexeme ∈ kind.spelling?,
        kind ≠ integer ∧ isNumeral lexeme.toList = false := by decide
    obtain ⟨hne, hnumeral⟩ := table kind (mem_all kind) lexeme hkind
    rw [classify_of_spelling hkind, hnumeral]
    simp [hne]
  · rw [classify_of_spelling_ne (not_exists.mp hspelling)]
    split
    · next h => simp [h]
    · next h => split <;> simp [h]

theorem isName_of_classify {lexeme : String} (h : classify lexeme = some .identifier) :
    isName lexeme.toList = true := by
  by_cases hspelling : ∃ kind : Kind, kind.spelling? = some lexeme
  · obtain ⟨kind, hkind⟩ := hspelling
    rw [classify_of_spelling hkind, Option.some.injEq] at h
    rw [h] at hkind
    cases hkind
  · rw [classify_of_spelling_ne (not_exists.mp hspelling)] at h
    split at h
    · cases h
    · split at h
      · assumption
      · cases h

/-- A keyword is its own spelling in small letters, and no identifier. -/
private theorem keyword_facts : ∀ word ∈ keywords,
    String.ofList (word.toList.map Char.toLower) = word ∧ classify word ≠ some identifier := by
  decide +kernel

theorem isDigit_of_isAlpha {c : Char} (h : c.isAlpha = true) : c.isDigit = false := by
  rw [Text.isAlpha_iff] at h
  rw [Bool.eq_false_iff, Ne, Text.isDigit_iff]
  omega

private theorem toLower_of_isDigit {c : Char} (h : c.isDigit = true) : c.toLower = c := by
  simp only [Char.isDigit, Bool.and_eq_true, decide_eq_true_eq, UInt32.le_iff_toNat_le] at h
  refine dif_neg fun hupper => ?_
  have hnine : c.toNat ≤ 57 := h.2
  have hletter : 65 ≤ c.toNat := UInt32.le_iff_toNat_le.mp hupper.1
  omega

/-- A name that is no keyword is classified as an identifier. -/
theorem IsIdentifier.classify {name : String} (h : IsIdentifier name) :
    classify name = some .identifier := by
  obtain ⟨hname, hkeyword⟩ := h
  have hspelling : ∀ kind : Kind, kind.spelling? ≠ some name := by
    -- of the spellings only keywords are names
    intro kind hkind
    have table : ∀ kind ∈ all, ∀ lexeme ∈ kind.spelling?,
        isName lexeme.toList = true → lexeme ∈ keywords := by decide
    have hmem := table kind (mem_all kind) name hkind hname
    rw [(keyword_facts name hmem).1] at hkeyword
    exact hkeyword hmem
  have hnumeral : isNumeral name.toList = false := by
    cases hcs : name.toList with
    | nil => rfl
    | cons c cs =>
      rw [hcs, isName, Bool.and_eq_true] at hname
      simp [isNumeral, isDigit_of_isAlpha hname.1]
  rw [classify_of_spelling_ne hspelling, hnumeral, hname]
  rfl

end Kind

/-! ### Trimmed texts -/

namespace Text

private theorem trimEnd_subset (cs : List Char) : trimEnd cs ⊆ cs := by
  induction cs with
  | nil => exact List.Subset.refl _
  | cons c cs ih =>
    rw [trimEnd]
    split
    · split <;> simp
    · next kept hkept => exact List.cons_subset_cons c ih

private theorem trim_subset (cs : List Char) : trim cs ⊆ cs :=
  fun _ h => (List.dropWhile_sublist _).subset (trimEnd_subset _ h)

end Text

/-! ### Settled words -/

/-- A word is **settled** when its kind is that of its lexeme and its lexeme is spelled as
scanning spells it. -/
structure Word.IsSettled (word : Word) : Prop where
  legal : Kind.classify word.lexeme = some word.kind
  spelled : TokenLine.lexemeOf word.lexeme.toList = word.lexeme

namespace Word.IsSettled

variable {word : Word}

/-- The kind of a settled word determines its lexeme, if it has a spelling. -/
theorem lexeme_eq (h : word.IsSettled) {spelling : String}
    (hs : word.kind.spelling? = some spelling) : word.lexeme = spelling :=
  Kind.lexeme_eq_of_classify h.legal hs

theorem isNumeral (h : word.IsSettled) (hkind : word.kind = .integer) :
    Kind.isNumeral word.lexeme.toList = true :=
  Kind.classify_eq_integer_iff.mp (hkind ▸ h.legal)

theorem isIdentifier (h : word.IsSettled) (hkind : word.kind = .identifier) :
    Kind.IsIdentifier word.lexeme := by
  have hlegal : Kind.classify word.lexeme = some .identifier := hkind ▸ h.legal
  refine ⟨Kind.isName_of_classify hlegal, fun hkeyword => ?_⟩
  have hspelled := h.spelled
  rw [TokenLine.lexemeOf, if_pos hkeyword] at hspelled
  rw [hspelled] at hkeyword
  exact (Kind.keyword_facts _ hkeyword).2 hlegal

end Word.IsSettled

namespace TokenLine

/-- The lexeme of a text is the lexeme of itself. -/
private theorem lexemeOf_lexemeOf (text : List Char) :
    lexemeOf (lexemeOf text).toList = lexemeOf text := by
  unfold lexemeOf
  by_cases h : String.ofList (text.map Char.toLower) ∈ Kind.keywords
  · rw [if_pos h, (Kind.keyword_facts _ h).1, if_pos h]
  · rw [if_neg h, String.toList_ofList, if_neg h]

/-- A lexeme is a keyword or the text itself. -/
theorem lexemeOf_mem_or_eq (text : List Char) :
    lexemeOf text ∈ Kind.keywords ∨ lexemeOf text = String.ofList text := by
  unfold lexemeOf
  by_cases h : String.ofList (text.map Char.toLower) ∈ Kind.keywords
  · exact .inl (by rwa [if_pos h])
  · exact .inr (if_neg h)

/-- The spelling of a kind is the lexeme of itself. -/
private theorem lexemeOf_spelling {kind : Kind} {spelling : String}
    (h : kind.spelling? = some spelling) :
    lexemeOf spelling.toList = spelling := by
  have table : ∀ kind ∈ Kind.all, ∀ spelling ∈ kind.spelling?,
      lexemeOf spelling.toList = spelling := by decide +kernel
  exact table kind (Kind.mem_all kind) spelling h

/-- A numeral is a lexeme of itself, since digits have no case. -/
private theorem lexemeOf_of_isNumeral {text : List Char} (h : Kind.isNumeral text = true) :
    lexemeOf text = String.ofList text := by
  rw [Kind.isNumeral, Bool.and_eq_true, List.all_eq_true] at h
  have hlower : text.map Char.toLower = text :=
    (List.map_congr_left fun c hc => Kind.toLower_of_isDigit (h.2 c hc)).trans (List.map_id' _)
  rw [lexemeOf, hlower, ite_self]

end TokenLine

/-- A legal lexeme is settled, unless it is a keyword with capital letters in it. -/
theorem Word.isSettled_of_classify {word : Word} (h : Kind.classify word.lexeme = some word.kind)
    (hname : word.kind = .identifier →
      String.ofList (word.lexeme.toList.map Char.toLower) ∉ Kind.keywords) :
    word.IsSettled where
  legal := h
  spelled := by
    cases hspelling : word.kind.spelling? with
    | some spelling =>
      rw [Kind.lexeme_eq_of_classify h hspelling]
      exact TokenLine.lexemeOf_spelling hspelling
    | none =>
      have hkind : word.kind = .integer ∨ word.kind = .identifier := by
        cases hkind : word.kind <;> rw [hkind] at hspelling <;> simp_all [Kind.spelling?]
      rcases hkind with hkind | hkind
      · rw [TokenLine.lexemeOf_of_isNumeral (Kind.classify_eq_integer_iff.mp (hkind ▸ h)),
          String.ofList_toList]
      · rw [TokenLine.lexemeOf, if_neg (hname hkind), String.ofList_toList]

namespace TokenLine

theorem scanFrom_nil (row column : Nat) : scanFrom row column [] = .ok [] := by
  rw [scanFrom]

/-- Scanning yields settled words, on the row that is scanned. -/
private theorem settled_of_mem_scanFrom {row column : Nat} {cs : List Char} {tokens : List Token}
    (h : scanFrom row column cs = .ok tokens) {token : Token} (hmem : token ∈ tokens) :
    token.toWord.IsSettled ∧ token.row = row := by
  fun_induction scanFrom row column cs generalizing tokens with
  | case1 => cases h; cases hmem
  | case2 column c cs hblank ih => exact ih h hmem
  | case3 => cases h
  | case4 => cases h
  | case5 column c cs hblank first hfirst rest hrest ih =>
    cases h
    obtain ⟨kind, hkind, rfl⟩ := Token.ofLexeme_eq_ok_iff.mp hfirst
    rcases List.mem_cons.mp hmem with rfl | hmem
    · exact ⟨⟨hkind, lexemeOf_lexemeOf _⟩, rfl⟩
    · exact ih hrest hmem

/-- To scan a line is to scan what is left when white space is taken off its ends. -/
theorem scan_eq_ok_iff {row : Nat} {line : List Char} {scanned : TokenLine} :
    scan row line = .ok scanned ↔
      ∃ tokens, scanFrom row 0 (Text.trim line) = .ok tokens ∧
        scanned = ⟨tokens, .closing row (Text.trim line).length⟩ := by
  rw [scan]
  cases scanFrom row 0 (Text.trim line) with
  | error e => simp
  | ok tokens => simp [eq_comm]

/-- The words of a line that scans are settled, on its row. -/
theorem settled_of_mem_scan {row : Nat} {line : List Char} {scanned : TokenLine}
    (h : scan row line = .ok scanned) {token : Token} (hmem : token ∈ scanned.tokens) :
    token.toWord.IsSettled ∧ token.row = row := by
  obtain ⟨tokens, htokens, rfl⟩ := scan_eq_ok_iff.mp h
  exact settled_of_mem_scanFrom htokens hmem

/-- Where a token ends a line, a semicolon is written. -/
private theorem semicolon_mem_of_scanFrom {row column : Nat} {cs : List Char} {tokens : List Token}
    (h : scanFrom row column cs = .ok tokens) {token : Token} (hmem : token ∈ tokens)
    (hkind : token.kind = .endOfLine) : ';' ∈ cs := by
  fun_induction scanFrom row column cs generalizing tokens with
  | case1 => cases h; cases hmem
  | case2 column c cs hblank ih => exact List.mem_cons_of_mem c (ih h hmem)
  | case3 => cases h
  | case4 => cases h
  | case5 column c cs hblank first hfirst rest hrest ih =>
    cases h
    obtain ⟨kind, hclassify, rfl⟩ := Token.ofLexeme_eq_ok_iff.mp hfirst
    rcases List.mem_cons.mp hmem with rfl | hmem
    · obtain rfl : kind = .endOfLine := hkind
      have hlexeme := Kind.lexeme_eq_of_classify hclassify rfl
      rcases lexemeOf_mem_or_eq (c :: cs.take (extent c cs)) with hkeyword | hplain
      · rw [hlexeme] at hkeyword
        exact absurd hkeyword (by decide)
      · have htext : c :: cs.take (extent c cs) = [';'] :=
          String.ofList_injective (hplain.symm.trans hlexeme)
        rw [(List.cons.inj htext).1]
        exact List.mem_cons_self
    · exact List.mem_cons_of_mem c (List.mem_of_mem_drop (ih hrest hmem))

/-- A token of a line ends it only where a semicolon is written. -/
theorem semicolon_mem_of_scan {row : Nat} {line : List Char} {scanned : TokenLine}
    (h : scan row line = .ok scanned) {token : Token} (hmem : token ∈ scanned.tokens)
    (hkind : token.kind = .endOfLine) : ';' ∈ line := by
  obtain ⟨tokens, htokens, rfl⟩ := scan_eq_ok_iff.mp h
  exact Text.trim_subset line (semicolon_mem_of_scanFrom htokens hmem hkind)

/-- The token that ends a line is of the kind that ends lines. -/
theorem kind_stop_of_scan {row : Nat} {line : List Char} {scanned : TokenLine}
    (h : scan row line = .ok scanned) : scanned.stop.kind = .endOfLine := by
  obtain ⟨tokens, -, rfl⟩ := scan_eq_ok_iff.mp h
  rfl

end TokenLine

end Offside

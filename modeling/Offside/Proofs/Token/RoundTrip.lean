import Offside.Proofs.Failing
import Offside.Proofs.Token.Joined

/-!
# Lexemes written in a row

A line may be written from its lexemes, with one space between any two of them, and scans as these
lexemes again, each as far behind the beginning as those before it and their spaces are long. That
holds of all legal lexemes but the keywords with capital letters in them, which scanning spells in
small letters. So nothing is lost of a line that is written again from the lexemes it has scanned as
(`TokenLine.scanAt_joined`).
-/

namespace Offside

/-- A legal lexeme with its kind. -/
def Word.ofLexeme (lexeme : String) : Word :=
  ⟨lexeme, (Kind.classify lexeme).getD .endOfLine⟩

/-- The lexemes of words with spaces between them are the text of the words in a row. -/
theorem Word.toList_intercalate (words : List Word) :
    (" ".intercalate (words.map Word.lexeme)).toList = spaced words := by
  induction words with
  | nil => rfl
  | cons word words ih =>
    cases words with
    | nil => simp [spaced]
    | cons next words =>
      simp only [List.map_cons] at ih ⊢
      rw [String.intercalate_cons_cons, String.toList_append, String.toList_append, ih, spaced,
        List.append_assoc]
      rfl

namespace TokenLine

/-- Settled words in a row scan as themselves. -/
private theorem scanAt_spaced (row : Nat) {words : List Word}
    (hwords : ∀ word ∈ words, word.IsSettled) :
    scanAt row (" ".intercalate (words.map Word.lexeme)).toList =
      .ok ⟨Token.spaced row 0 words,
        .closing row (" ".intercalate (words.map Word.lexeme)).length⟩ := by
  have hscan := scan_tabbed row 0 hwords
  rw [← String.length_toList, Word.toList_intercalate, scanAt,
    if_neg (Int.not_lt.mpr (Int.natCast_nonneg row)), Int.toNat_natCast]
  exact hscan

/-- **Lexemes written in a row**, with one space between any two of them, scan as they are: each
becomes a token of its own kind, as far behind the beginning as the lexemes before it and their
spaces are long, and there are no others. The lexemes may be any that are legal, but for keywords
with capital letters in them. So a line is scanned as the same words again when it is written again
from the lexemes that it has been scanned as. -/
theorem scanAt_joined (row : Nat) :
    (∀ lexemes : List String,
      (∀ lexeme ∈ lexemes, ∃ kind, Kind.classify lexeme = some kind ∧
        (kind = .identifier → String.ofList (lexeme.toList.map Char.toLower) ∉ Kind.keywords)) →
      ∃ tokens : List Token, scanAt row (" ".intercalate lexemes).toList =
          .ok ⟨tokens, .closing row (" ".intercalate lexemes).length⟩ ∧
        tokens.length = lexemes.length ∧
        ∀ (i : Nat) (lexeme : String), lexemes[i]? = some lexeme →
          ∃ kind, Kind.classify lexeme = some kind ∧ tokens[i]? = some ⟨⟨lexeme, kind⟩, row,
            ((lexemes.take i).flatMap fun before => before.toList ++ [' ']).length⟩) ∧
    ∀ (row' : Int) (line : List Char) (scanned : TokenLine), scanAt row' line = .ok scanned →
      ∃ again,
        scanAt row (" ".intercalate (scanned.tokens.map fun token => token.lexeme)).toList =
          .ok again ∧
        again.toList.map Token.toWord = scanned.toList.map Token.toWord := by
  constructor
  · intro lexemes hlexemes
    have hwords : ∀ word ∈ lexemes.map Word.ofLexeme, word.IsSettled := by
      intro word hword
      obtain ⟨lexeme, hlexeme, rfl⟩ := List.mem_map.mp hword
      obtain ⟨kind, hkind, hname⟩ := hlexemes lexeme hlexeme
      have hword : (Word.ofLexeme lexeme).kind = kind := by
        rw [Word.ofLexeme, hkind, Option.getD_some]
      exact Word.isSettled_of_classify (hword ▸ hkind) fun h => hname (hword ▸ h)
    have hlexeme : (lexemes.map Word.ofLexeme).map Word.lexeme = lexemes := by
      rw [List.map_map]
      exact List.map_id _
    have hscan := scanAt_spaced row hwords
    rw [hlexeme] at hscan
    refine ⟨_, hscan, ?_, fun i lexeme hi => ?_⟩
    · rw [← List.length_map Token.toWord, Token.map_toWord_spaced, List.length_map]
    · obtain ⟨kind, hkind, -⟩ := hlexemes lexeme (List.mem_of_getElem? hi)
      refine ⟨kind, hkind, ?_⟩
      rw [Token.getElem?_spaced, List.getElem?_map, hi, Nat.zero_add, ← List.map_take,
        List.flatMap_map, Option.map_some, Option.map_some, Word.ofLexeme, hkind, Option.getD_some]
      rfl
  · intro row' line scanned h
    rw [scanAt] at h
    split at h
    · cases h
    have hwords : ∀ word ∈ scanned.tokens.map Token.toWord, word.IsSettled := by
      intro word hword
      obtain ⟨token, htoken, rfl⟩ := List.mem_map.mp hword
      exact (settled_of_mem_scan h htoken).1
    have hscan := scanAt_spaced row hwords
    rw [List.map_map] at hscan
    refine ⟨_, hscan, ?_⟩
    obtain ⟨tokens, -, rfl⟩ := scan_eq_ok_iff.mp h
    rw [toList, List.map_append, Token.map_toWord_spaced, toList, List.map_append]
    rfl

/-- A line written with single spaces, and one that is brought into that form. -/
theorem scanAt_joined_of_assignment :
    (∃ tokens : List Token, scanAt 2 "let x_1 := 007 ; (".toList = .ok ⟨tokens, .closing 2 18⟩ ∧
      tokens.length = 6 ∧ tokens[3]? = some ⟨⟨"007", .integer⟩, 2, 11⟩) ∧
    ∃ scanned again, scanAt 5 "\tIF x==(7):".toList = .ok scanned ∧
      scanAt 2 "if x == ( 7 ) :".toList = .ok again ∧
      again.toList.map Token.toWord = scanned.toList.map Token.toWord := by
  constructor
  · obtain ⟨tokens, hscan, hlength, htokens⟩ :=
      (scanAt_joined 2).1 ["let", "x_1", ":=", "007", ";", "("] (by decide +kernel)
    obtain ⟨kind, hkind, htoken⟩ := htokens 3 "007" rfl
    have hinteger : Kind.classify "007" = some .integer := by decide +kernel
    obtain rfl := Option.some.inj (hkind.symm.trans hinteger)
    exact ⟨tokens, hscan, hlength, htoken⟩
  · obtain ⟨scanned, hscan, hlexemes⟩ :=
      exists_eq_ok_and (scanAt 5 "\tIF x==(7):".toList)
        (fun scanned => (scanned.tokens.map fun token => token.lexeme) =
          ["if", "x", "==", "(", "7", ")", ":"]) (by decide +kernel)
    obtain ⟨again, hagain, hwords⟩ := (scanAt_joined 2).2 5 _ scanned hscan
    rw [hlexemes] at hagain
    exact ⟨scanned, again, hscan, hagain, hwords⟩

end TokenLine

end Offside

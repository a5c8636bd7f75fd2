import Offside.Proofs.Numeral
import Offside.Proofs.Tree.Words

/-!
# Tokens that spell words

A list of words may be spelled by tokens in more than one way: with leading zeros in a literal, or
with the second spelling of equality. `Spells row tokens words` says that `tokens` is one such
spelling, on the given row and within the limit on digits. It comes apart as the list of words
does, which is how readers are followed through the words of a tree.
-/

namespace Offside

/-- A word is **readable** when scanning may yield it and it is no literal of too many digits. -/
structure Word.IsReadable (word : Word) : Prop extends word.IsSettled where
  short : word.kind = .integer → word.lexeme.toList.length ≤ digitLimit

/-- A token is **readable** on a row when its word is and it stands there. -/
structure Token.IsReadable (row : Nat) (token : Token) : Prop extends token.toWord.IsReadable where
  row_eq : token.row = row

/-- A readable literal reads as its value. -/
theorem Word.IsReadable.read {word : Word} (h : word.IsReadable) (hkind : word.kind = .integer) :
    Numeral.read word.lexeme.toList = .ok (Numeral.value word.lexeme.toList) :=
  if_pos (h.short hkind)

/-- The value of a readable literal is below the bound. -/
theorem Word.IsReadable.value_lt {word : Word} (h : word.IsReadable)
    (hkind : word.kind = .integer) : Numeral.value word.lexeme.toList < Numeral.bound := by
  have hnumeral := h.isNumeral hkind
  rw [Kind.isNumeral, Bool.and_eq_true, List.all_eq_true] at hnumeral
  exact Numeral.lt_bound_of_read hnumeral.2 (h.read hkind)

/-- Tokens **spell** words on a row when they are readable there and have these words. -/
structure Spells (row : Nat) (tokens : List Token) (words : List Word) : Prop where
  words_eq : Token.words tokens = words
  readable : ∀ token ∈ tokens, token.IsReadable row

namespace Spells

variable {row : Nat} {tokens : List Token} {word : Word} {words back : List Word}

theorem nil (h : Spells row tokens []) : tokens = [] :=
  List.map_eq_nil_iff.mp h.words_eq

theorem cons (h : Spells row tokens (word :: words)) :
    ∃ token rest, tokens = token :: rest ∧ token.toWord.normal = word ∧ token.IsReadable row ∧
      Spells row rest words := by
  obtain ⟨token, rest, rfl, hword, hrest⟩ := List.map_eq_cons_iff.mp h.words_eq
  obtain ⟨htoken, hreadable⟩ := List.forall_mem_cons.mp h.readable
  exact ⟨token, rest, rfl, hword, htoken, hrest, hreadable⟩

theorem append (h : Spells row tokens (words ++ back)) :
    ∃ front rest, tokens = front ++ rest ∧ Spells row front words ∧ Spells row rest back := by
  obtain ⟨front, rest, rfl, hfront, hrest⟩ := List.map_eq_append_iff.mp h.words_eq
  obtain ⟨hreadable, hback⟩ := List.forall_mem_append.mp h.readable
  exact ⟨front, rest, rfl, ⟨hfront, hreadable⟩, hrest, hback⟩

end Spells

/-! ### The words of a line -/

/-- The words of a line as they are written. -/
def TokenLine.words (line : TokenLine) : List Word :=
  line.tokens.map Token.toWord

/-- Whether the literals of a line are within the limit on digits. -/
def TokenLine.IsShort (line : TokenLine) : Prop :=
  ∀ word ∈ line.words, word.kind = .integer → word.lexeme.toList.length ≤ digitLimit

instance (line : TokenLine) : Decidable line.IsShort :=
  inferInstanceAs (Decidable (∀ word ∈ line.words, _))

/-- A line whose literals are within the limit spells its own words. -/
theorem TokenLine.spells_of_scan {row : Nat} {line : List Char} {scanned : TokenLine}
    (h : scan row line = .ok scanned) (hshort : scanned.IsShort) :
    Spells row scanned.tokens (Token.words scanned.tokens) := by
  refine ⟨rfl, fun token hmem => ?_⟩
  obtain ⟨hsettled, hrow⟩ := settled_of_mem_scan h hmem
  exact ⟨⟨hsettled, hshort token.toWord (List.mem_map_of_mem hmem)⟩, hrow⟩

end Offside

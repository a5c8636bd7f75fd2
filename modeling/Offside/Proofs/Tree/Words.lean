import Offside.Numeral.Decimal
import Offside.Proofs.Token.Settled
import Offside.Tree.Statement

/-!
# The words of a tree

What a tree looks like when it is written: the words of an expression or a condition, and the
**phrases** of a statement, which are its simple statements and the heads of its clauses and
loops, up to the colon. The **pieces** of a tree are its phrases in the order of the text, each
with the number of bodies around it.

A tree does not keep how an integer literal was spelled, nor which spelling of equality was
used. The **normal** form of a word forgets the same two things. Misplaced nodes and unknown
operators are not written at all.
-/

namespace Offside

/-! ### Words -/

namespace Word

/-- The word of a kind with one spelling. -/
def fixed (kind : Kind) : Word :=
  ⟨kind.spelling?.getD "", kind⟩

/-- The integer literal of a value. -/
def numeral (value : Int) : Word :=
  ⟨Numeral.render value, .integer⟩

/-- The word of a name. -/
def name (name : String) : Word :=
  ⟨name, .identifier⟩

/-- A word as a tree keeps it: an integer literal by its value, and equality in one spelling. -/
def normal (word : Word) : Word :=
  match word.kind with
  | .integer => numeral (Numeral.value word.lexeme.toList)
  | .eqEq => fixed .eq
  | _ => word

variable {word : Word}

theorem normal_of_integer (h : word.kind = .integer) :
    word.normal = numeral (Numeral.value word.lexeme.toList) := by
  simp [normal, h]

theorem normal_of_eqEq (h : word.kind = .eqEq) : word.normal = fixed .eq := by
  simp [normal, h]

private theorem normal_of_ne (hinteger : word.kind ≠ .integer) (heqEq : word.kind ≠ .eqEq) :
    word.normal = word := by
  unfold normal
  split <;> simp_all

/-- The normal form of a settled word of a kind with one spelling is the word of that kind. -/
theorem IsSettled.normal_eq_fixed (h : word.IsSettled) {kind : Kind} (hkind : word.kind = kind)
    (hspelling : kind.spelling?.isSome = true) (hne : kind ≠ .eqEq) : word.normal = fixed kind := by
  obtain ⟨spelling, hs⟩ := Option.isSome_iff_exists.mp hspelling
  have hinteger : word.kind ≠ .integer := by
    rintro heq
    rw [← hkind, heq] at hs
    cases hs
  have hlexeme := h.lexeme_eq (hkind ▸ hs)
  rw [normal_of_ne hinteger (hkind ▸ hne), fixed, hs, Option.getD_some, ← hlexeme, ← hkind]

/-- The normal form changes the kind of the second spelling of equality only. -/
theorem kind_normal (word : Word) :
    word.normal.kind = if word.kind = .eqEq then .eq else word.kind := by
  unfold normal
  split
  · next h => simp [h, numeral]
  · next h => simp [h, fixed]
  · next _ h => rw [if_neg h]

private theorem kind_eq_of_normal {kind : Kind} (h : word.normal.kind = kind) (hne : kind ≠ .eq) :
    word.kind = kind := by
  rw [kind_normal] at h
  split at h
  · exact absurd h.symm hne
  · exact h

theorem normal_of_identifier (h : word.kind = .identifier) : word.normal = name word.lexeme := by
  rw [normal_of_ne (by simp [h]) (by simp [h]), name, ← h]

/-- A word with the normal form of a kind's word is of that kind. -/
theorem kind_of_fixed {kind : Kind} (h : word.normal = fixed kind) (hne : kind ≠ .eq) :
    word.kind = kind :=
  kind_eq_of_normal (congrArg Word.kind h) hne

theorem of_normal_eq_name {text : String} (h : word.normal = name text) :
    word.kind = .identifier ∧ word.lexeme = text := by
  have hkind : word.kind = .identifier := kind_eq_of_normal (congrArg Word.kind h) (by decide)
  rw [normal_of_identifier hkind] at h
  exact ⟨hkind, congrArg Word.lexeme h⟩

/-- A word with the normal form of a literal is a literal of the same value. -/
theorem of_normal_eq_numeral {value : Int} (h : word.normal = numeral value) (hvalue : 0 ≤ value) :
    word.kind = .integer ∧ (Numeral.value word.lexeme.toList : Int) = value := by
  have hkind : word.kind = .integer := kind_eq_of_normal (congrArg Word.kind h) (by decide)
  obtain ⟨n, rfl⟩ := Int.eq_ofNat_of_zero_le hvalue
  rw [normal_of_integer hkind] at h
  have hrepr : (Numeral.value word.lexeme.toList).repr = n.repr := congrArg Word.lexeme h
  have hn : Numeral.value word.lexeme.toList = n := by
    rw [← Numeral.value_repr (Numeral.value _), hrepr, Numeral.value_repr]
  exact ⟨hkind, congrArg Int.ofNat hn⟩

end Word

/-- The words of tokens, in normal form. -/
def Token.words (tokens : List Token) : List Word :=
  tokens.map fun token => token.toWord.normal

namespace Token

@[simp]
theorem words_nil : words [] = [] :=
  rfl

@[simp]
theorem words_cons (token : Token) (tokens : List Token) :
    words (token :: tokens) = token.toWord.normal :: words tokens :=
  rfl

@[simp]
theorem words_append (front back : List Token) :
    words (front ++ back) = words front ++ words back :=
  List.map_append

end Token

/-! ### Expressions and conditions -/

/-- The word of an operator. -/
def Operator.words : Operator → List Word
  | add => [.fixed .add]
  | subtract => [.fixed .subtract]
  | multiply => [.fixed .multiply]
  | divide => [.fixed .divide]
  | unknown _ => []

/-- The word of a relation. -/
def Relation.words : Relation → List Word
  | lt => [.fixed .lt]
  | le => [.fixed .le]
  | gt => [.fixed .gt]
  | ge => [.fixed .ge]
  | eq => [.fixed .eq]
  | ne => [.fixed .ne]
  | unknown _ => []

/-- The words of an expression. -/
def Expr.words : Expr → List Word
  | number _ value => [.numeral value]
  | var _ name => [.name name]
  | negate _ operand => .fixed .subtract :: operand.words
  | paren _ inner => .fixed .leftParen :: (inner.words ++ [.fixed .rightParen])
  | binary _ op left right => left.words ++ (op.words ++ right.words)
  | misplaced _ => []

/-- The words of a condition. -/
def Condition.words : Condition → List Word
  | compare _ relation left right => left.words ++ (relation.words ++ right.words)
  | misplaced _ => []

/-! ### Phrases and pieces -/

/-- A simple statement, or the head of a clause or of a loop. -/
inductive Phrase
  | assign (name : String) (value : Expr)
  | display (value : Expr)
  | input (name : String)
  | ifHead (condition : Condition)
  | elifHead (condition : Condition)
  | elseHead
  | whileHead (condition : Condition)
  | forHead (name : String) (first last : Expr)
  deriving DecidableEq, Repr

namespace Phrase

/-- The words of a phrase. A head ends with its colon. -/
def words : Phrase → List Word
  | assign name value => .fixed .letWord :: .name name :: .fixed .assign :: value.words
  | display value => .fixed .displayWord :: value.words
  | input name => [.fixed .inputWord, .name name]
  | ifHead condition => .fixed .ifWord :: (condition.words ++ [.fixed .colon])
  | elifHead condition => .fixed .elifWord :: (condition.words ++ [.fixed .colon])
  | elseHead => [.fixed .elseWord, .fixed .colon]
  | whileHead condition => .fixed .whileWord :: (condition.words ++ [.fixed .colon])
  | forHead name first last =>
    .fixed .forWord :: .name name :: .fixed .inWord ::
      (first.words ++ .fixed .range :: (last.words ++ [.fixed .colon]))

/-- The head of a guarded clause: the first clause of a branch has a keyword of its own. -/
def guardHead (isFirst : Bool) (condition : Condition) : Phrase :=
  if isFirst then ifHead condition else elifHead condition

theorem words_guardHead (isFirst : Bool) (condition : Condition) :
    (guardHead isFirst condition).words =
      .fixed (if isFirst then .ifWord else .elifWord) :: (condition.words ++ [.fixed .colon]) := by
  cases isFirst <;> rfl

end Phrase

/-- A phrase and the number of bodies around it. -/
structure Piece where
  depth : Nat
  phrase : Phrase
  deriving DecidableEq, Repr

/-- The words of a piece. -/
def Piece.words (piece : Piece) : List Word :=
  piece.phrase.words

mutual

/-- The pieces of a statement that has `depth` bodies around it. -/
def Statement.pieces (depth : Nat) : Statement → List Piece
  | .assign _ name value => [⟨depth, .assign name value⟩]
  | .display _ value => [⟨depth, .display value⟩]
  | .input _ name => [⟨depth, .input name⟩]
  | .branch _ clauses => clauses.pieces depth true
  | .whileLoop _ condition body => ⟨depth, .whileHead condition⟩ :: body.pieces (depth + 1)
  | .forLoop _ name first last body => ⟨depth, .forHead name first last⟩ :: body.pieces (depth + 1)
  | .block body => body.pieces (depth + 1)
  | .misplaced .. => []

/-- The pieces of clauses, the first of which may be the first of its branch. -/
def Clauses.pieces (depth : Nat) (isFirst : Bool) : Clauses → List Piece
  | .done => []
  | .otherwise body => ⟨depth, .elseHead⟩ :: body.pieces (depth + 1)
  | .guarded condition body rest =>
    ⟨depth, .guardHead isFirst condition⟩ :: (body.pieces (depth + 1) ++ rest.pieces depth false)

/-- The pieces of a body whose statements have `depth` bodies around them. -/
def Body.pieces (depth : Nat) : Body → List Piece
  | .mk _ statements => Statement.piecesOf depth statements

/-- The pieces of statements that have `depth` bodies around them. -/
def Statement.piecesOf (depth : Nat) : List Statement → List Piece
  | [] => []
  | statement :: rest => statement.pieces depth ++ Statement.piecesOf depth rest

end

/-- The pieces of a program. -/
def Program.pieces (program : Program) : List Piece :=
  Statement.piecesOf 0 program.statements

/-- The words of a program: its nodes from left to right, each before what it contains. -/
def Program.words (program : Program) : List Word :=
  program.pieces.flatMap Piece.words

/-! ### No phrase ends a line -/

theorem Expr.kind_ne_of_mem_words {e : Expr} {word : Word} (h : word ∈ e.words) :
    word.kind ≠ .endOfLine := by
  induction e with
  | number line value => simp_all [words, Word.numeral]
  | var line name => simp_all [words, Word.name]
  | negate line operand ih => grind [words, Word.fixed]
  | paren line inner ih => grind [words, Word.fixed]
  | binary line op left right ihl ihr => cases op <;> grind [words, Operator.words, Word.fixed]
  | misplaced form => simp [words] at h

private theorem Condition.kind_ne_of_mem_words {c : Condition} {word : Word} (h : word ∈ c.words) :
    word.kind ≠ .endOfLine := by
  cases c with
  | compare line relation left right =>
    have hleft := @Expr.kind_ne_of_mem_words left word
    have hright := @Expr.kind_ne_of_mem_words right word
    cases relation <;> grind [words, Relation.words, Word.fixed]
  | misplaced form => simp [words] at h

theorem Phrase.kind_ne_of_mem_words {phrase : Phrase} {word : Word} (h : word ∈ phrase.words) :
    word.kind ≠ .endOfLine := by
  have hexpr := @Expr.kind_ne_of_mem_words
  have hcondition := @Condition.kind_ne_of_mem_words
  cases phrase <;> grind [words, Word.fixed, Word.name]

/-- Tokens that are the words of pieces do not end a line. -/
theorem Piece.kind_ne_of_words_eq {pieces : List Piece} {tokens : List Token}
    (h : Token.words tokens = pieces.flatMap words) {token : Token} (hmem : token ∈ tokens) :
    token.kind ≠ .endOfLine := by
  intro hkind
  have hword : token.toWord.normal ∈ pieces.flatMap words := h ▸ List.mem_map_of_mem hmem
  obtain ⟨piece, -, hpiece⟩ := List.mem_flatMap.mp hword
  refine Phrase.kind_ne_of_mem_words hpiece ?_
  rw [Word.kind_normal, hkind]
  rfl

end Offside

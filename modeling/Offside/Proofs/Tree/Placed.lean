import Offside.Proofs.Tree.Nodes

/-!
# Where the words of a tree stand

The words of a tree in the order of the text, each **placed** on the line of the node that it
belongs to. Every node but the whole program has a word that it is told by: a simple statement, a
branch or a loop has its first keyword, a body the colon in front of it, a comparison its relation,
an operation its operator, a negation the minus sign, a parenthesis its opening sign, and a literal
or a variable has itself. So where the words are placed says which line each of the nodes keeps.

A clause behind the first one of its branch is no node. Its keyword is placed with the colon of its
body.
-/

namespace Offside

/-! ### The placed words -/

/-- Words that stand on one line. -/
def Word.placedOn (line : Option Int) (words : List Word) : List (Word × Option Int) :=
  words.map fun word => (word, line)

/-- The placed words of an expression. -/
def Expr.placed : Expr → List (Word × Option Int)
  | number line value => [(.numeral value, line)]
  | var line name => [(.name name, line)]
  | negate line operand => (.fixed .subtract, line) :: operand.placed
  | paren line inner => (.fixed .leftParen, line) :: (inner.placed ++ [(.fixed .rightParen, line)])
  | binary line op left right => left.placed ++ (Word.placedOn line op.words ++ right.placed)
  | misplaced _ => []

/-- The placed words of a condition. -/
def Condition.placed : Condition → List (Word × Option Int)
  | compare line relation left right =>
    left.placed ++ (Word.placedOn line relation.words ++ right.placed)
  | misplaced _ => []

mutual

/-- The placed words of a statement. -/
def Statement.placed : Statement → List (Word × Option Int)
  | .assign line name value =>
    (.fixed .letWord, line) :: (.name name, line) :: (.fixed .assign, line) :: value.placed
  | .display line value => (.fixed .displayWord, line) :: value.placed
  | .input line name => [(.fixed .inputWord, line), (.name name, line)]
  | .branch line clauses => clauses.placed line true
  | .whileLoop line condition body =>
    (.fixed .whileWord, line) :: (condition.placed ++ (.fixed .colon, body.line) :: body.placed)
  | .forLoop line name first last body =>
    (.fixed .forWord, line) :: (.name name, line) :: (.fixed .inWord, line) ::
      (first.placed ++ (.fixed .range, line) ::
        (last.placed ++ (.fixed .colon, body.line) :: body.placed))
  | .block body => body.placed
  | .misplaced .. => []

/-- The placed words of clauses of a branch on the given line, the first of which may be the first
of the branch. -/
def Clauses.placed (line : Option Int) (isFirst : Bool) : Clauses → List (Word × Option Int)
  | .done => []
  | .otherwise body => (.fixed .elseWord, body.line) :: (.fixed .colon, body.line) :: body.placed
  | .guarded condition body rest =>
    (if isFirst then (.fixed .ifWord, line) else (.fixed .elifWord, body.line)) ::
      (condition.placed ++ (.fixed .colon, body.line) :: (body.placed ++ rest.placed line false))

/-- The placed words of a body, without its colon. -/
def Body.placed : Body → List (Word × Option Int)
  | .mk _ statements => Statement.placedOf statements

/-- The placed words of statements. -/
def Statement.placedOf : List Statement → List (Word × Option Int)
  | [] => []
  | statement :: rest => statement.placed ++ Statement.placedOf rest

end

/-- The placed words of a program. -/
def Program.placed (program : Program) : List (Word × Option Int) :=
  Statement.placedOf program.statements

/-! ### The words without their lines -/

section Words

theorem Word.map_fst_placedOn (line : Option Int) (words : List Word) :
    (placedOn line words).map Prod.fst = words := by
  rw [placedOn, List.map_map]
  exact List.map_id words

/-- The placed words of an expression are its words. -/
theorem Expr.map_fst_placed (e : Expr) : e.placed.map Prod.fst = e.words := by
  induction e with
  | number | var | misplaced => rfl
  | negate line operand ih => rw [placed, List.map_cons, ih, words]
  | paren line inner ih =>
    simp only [placed, words, List.map_cons, List.map_append, ih, List.map_nil]
  | binary line op left right ihl ihr =>
    simp only [placed, words, List.map_append, Word.map_fst_placedOn, ihl, ihr]

theorem Condition.map_fst_placed (condition : Condition) :
    condition.placed.map Prod.fst = condition.words := by
  cases condition with
  | compare line relation left right =>
    simp only [placed, words, List.map_append, Word.map_fst_placedOn, Expr.map_fst_placed]
  | misplaced form => rfl

mutual

/-- The placed words of a statement are those of its pieces. -/
theorem Statement.map_fst_placed (depth : Nat) : ∀ statement : Statement,
    statement.placed.map Prod.fst = (statement.pieces depth).flatMap Piece.words
  | .assign _ name value => by
    simp [Statement.placed, Statement.pieces, Piece.words, Phrase.words, Expr.map_fst_placed]
  | .display _ value => by
    simp [Statement.placed, Statement.pieces, Piece.words, Phrase.words, Expr.map_fst_placed]
  | .input .. => rfl
  | .branch line clauses => Clauses.map_fst_placed depth line true clauses
  | .whileLoop _ condition body => by
    simp [Statement.placed, Statement.pieces, Piece.words, Phrase.words, Condition.map_fst_placed,
      Body.map_fst_placed (depth + 1) body]
  | .forLoop _ name first last body => by
    simp [Statement.placed, Statement.pieces, Piece.words, Phrase.words, Expr.map_fst_placed,
      Body.map_fst_placed (depth + 1) body]
  | .block body => Body.map_fst_placed (depth + 1) body
  | .misplaced .. => rfl

theorem Clauses.map_fst_placed (depth : Nat) (line : Option Int) (isFirst : Bool) :
    ∀ clauses : Clauses, (clauses.placed line isFirst).map Prod.fst =
      (clauses.pieces depth isFirst).flatMap Piece.words
  | .done => rfl
  | .otherwise body => by
    simp [Clauses.placed, Clauses.pieces, Piece.words, Phrase.words,
      Body.map_fst_placed (depth + 1) body]
  | .guarded condition body rest => by
    cases isFirst <;>
      simp [Clauses.placed, Clauses.pieces, Piece.words, Phrase.guardHead, Phrase.words,
        Condition.map_fst_placed, Body.map_fst_placed (depth + 1) body,
        Clauses.map_fst_placed depth line false rest]

theorem Body.map_fst_placed (depth : Nat) : ∀ body : Body,
    body.placed.map Prod.fst = (body.pieces depth).flatMap Piece.words
  | .mk _ statements => Statement.map_fst_placedOf depth statements

theorem Statement.map_fst_placedOf (depth : Nat) : ∀ statements : List Statement,
    (Statement.placedOf statements).map Prod.fst =
      (Statement.piecesOf depth statements).flatMap Piece.words
  | [] => rfl
  | statement :: rest => by
    rw [Statement.placedOf, Statement.piecesOf, List.map_append, List.flatMap_append,
      Statement.map_fst_placed depth statement, Statement.map_fst_placedOf depth rest]

end

/-- The placed words of a program are its words. -/
theorem Program.map_fst_placed (program : Program) :
    program.placed.map Prod.fst = program.words :=
  Statement.map_fst_placedOf 0 program.statements

end Words

/-! ### Statements and clauses in a row -/

namespace Statement

private theorem placedOf_append (front back : List Statement) :
    placedOf (front ++ back) = placedOf front ++ placedOf back := by
  induction front with
  | nil => rfl
  | cons statement rest ih => rw [List.cons_append, placedOf, placedOf, ih, List.append_assoc]

/-- The placed words of statements that are listed last first. -/
theorem placedOf_reverse_cons (statement : Statement) (before : List Statement) :
    placedOf (statement :: before).reverse = placedOf before.reverse ++ statement.placed := by
  rw [List.reverse_cons, placedOf_append, placedOf, placedOf, List.append_nil]

end Statement

/-- Appended clauses are not the first ones of their branch, unless there are none in front. -/
theorem Clauses.placed_append {clauses more : Clauses} (h : clauses.isOpen = true)
    (line : Option Int) (isFirst : Bool) :
    (clauses.append more).placed line isFirst =
      clauses.placed line isFirst ++ more.placed line (isFirst && clauses.isDone) := by
  induction clauses generalizing isFirst with
  | done => simp [append, placed, isDone]
  | otherwise body => cases h
  | guarded condition body rest ih =>
    have hdone : (guarded condition body rest).isDone = false := rfl
    rw [append, placed, placed, ih h, Bool.false_and, hdone, Bool.and_false]
    simp only [List.cons_append, List.append_assoc]

/-! ### The words of the parts -/

section Parts

/-- The further clauses of a branch are placed behind the first one. -/
private theorem Clauses.suffix_guarded (condition : Condition) (body : Body) (rest : Clauses)
    (line : Option Int) (isFirst : Bool) :
    rest.placed line false <:+ (guarded condition body rest).placed line isFirst := by
  rw [placed]
  refine .trans ?_ (List.suffix_cons _ _)
  refine .trans ?_ (List.suffix_append condition.placed _)
  refine .trans ?_ (List.suffix_cons _ _)
  exact List.suffix_append body.placed _

private theorem Clauses.infix_of_mem_conditions {clauses : Clauses} {condition : Condition}
    (h : condition ∈ clauses.conditions) (line : Option Int) (isFirst : Bool) :
    condition.placed <:+: clauses.placed line isFirst := by
  induction clauses generalizing isFirst with
  | done => cases h
  | otherwise body => cases h
  | guarded first body rest ih =>
    rcases List.mem_cons.mp h with rfl | h
    · exact ⟨[_], _, rfl⟩
    · exact (ih h false).trans (suffix_guarded first body rest line isFirst).isInfix

private theorem Clauses.infix_of_mem_bodies {clauses : Clauses} {body : Body}
    (h : body ∈ clauses.bodies)
    (line : Option Int) (isFirst : Bool) : body.placed <:+: clauses.placed line isFirst := by
  induction clauses generalizing isFirst with
  | done => cases h
  | otherwise last =>
    obtain rfl := List.mem_singleton.mp h
    exact (List.suffix_append [_, _] _).isInfix
  | guarded condition first rest ih =>
    rcases List.mem_cons.mp h with rfl | h
    · rw [placed]
      refine .trans ?_ (List.suffix_cons _ _).isInfix
      refine .trans ?_ (List.suffix_append condition.placed _).isInfix
      exact .trans (List.prefix_append _ _).isInfix (List.suffix_cons _ _).isInfix
    · exact (ih h false).trans (suffix_guarded condition first rest line isFirst).isInfix

namespace Statement

variable {node : Statement}

/-- The expressions of a node are placed among its words. -/
theorem infix_of_mem_exprs {e : Expr} (h : e ∈ node.exprs) : e.placed <:+: node.placed := by
  cases node with
  | assign line name value =>
    obtain rfl := List.mem_singleton.mp h
    exact (List.suffix_append [_, _, _] _).isInfix
  | display line value =>
    obtain rfl := List.mem_singleton.mp h
    exact (List.suffix_cons _ _).isInfix
  | forLoop line name first last body =>
    rw [placed]
    refine .trans ?_ (List.suffix_append [_, _, _] _).isInfix
    rcases List.mem_cons.mp h with rfl | h
    · exact (List.prefix_append _ _).isInfix
    · obtain rfl := List.mem_singleton.mp h
      refine .trans ?_ (List.suffix_append first.placed _).isInfix
      exact .trans (List.prefix_append _ _).isInfix (List.suffix_cons _ _).isInfix
  | input | branch | whileLoop | block | misplaced => cases h

/-- The conditions of a node are placed among its words. -/
theorem infix_of_mem_conditions {condition : Condition} (h : condition ∈ node.conditions) :
    condition.placed <:+: node.placed := by
  cases node with
  | branch line clauses => exact Clauses.infix_of_mem_conditions h line true
  | whileLoop line own body =>
    obtain rfl := List.mem_singleton.mp h
    exact ⟨[_], _, rfl⟩
  | assign | display | input | forLoop | block | misplaced => cases h

/-- The bodies of a statement are placed among its words. -/
private theorem infix_of_mem_bodies {body : Body} (h : body ∈ node.bodies) :
    body.placed <:+: node.placed := by
  cases node with
  | branch line clauses => exact Clauses.infix_of_mem_bodies h line true
  | whileLoop line condition own =>
    obtain rfl := List.mem_singleton.mp h
    rw [placed]
    refine .trans ?_ (List.suffix_cons _ _).isInfix
    exact .trans (List.suffix_cons _ _).isInfix (List.suffix_append condition.placed _).isInfix
  | forLoop line name first last own =>
    obtain rfl := List.mem_singleton.mp h
    rw [placed]
    refine .trans ?_ (List.suffix_append [_, _, _] _).isInfix
    refine .trans ?_ (List.suffix_append first.placed _).isInfix
    refine .trans ?_ (List.suffix_cons _ _).isInfix
    exact .trans (List.suffix_cons _ _).isInfix (List.suffix_append last.placed _).isInfix
  | block own =>
    obtain rfl := List.mem_singleton.mp h
    exact List.infix_refl _
  | assign | display | input | misplaced => cases h

private theorem infix_placedOf {statement : Statement} {statements : List Statement}
    (h : statement ∈ statements) : statement.placed <:+: placedOf statements := by
  obtain ⟨front, back, rfl⟩ := List.append_of_mem h
  rw [placedOf_append, placedOf]
  exact .trans (List.prefix_append _ _).isInfix (List.suffix_append _ _).isInfix

/-- The nodes inside a statement are placed among its words. -/
theorem infix_of_mem_nodes {statement : Statement} (h : node ∈ statement.nodes) :
    node.placed <:+: statement.placed := by
  induction statement using bodiesInduction with
  | step statement ih =>
    rcases List.mem_cons.mp h with rfl | h
    · exact List.infix_refl _
    · obtain ⟨body, hbody, hnode⟩ := mem_inner.mp h
      obtain ⟨inner, hinner, hnode⟩ := Body.mem_nodes.mp hnode
      have hwithin : inner.placed <:+: body.placed := by
        obtain ⟨line, statements⟩ := body
        exact infix_placedOf hinner
      exact (ih body hbody inner hinner hnode).trans (hwithin.trans (infix_of_mem_bodies hbody))

end Statement

/-- The nodes of a program are placed among its words. -/
theorem Program.infix_of_mem_nodes {program : Program} {node : Statement}
    (h : node ∈ program.nodes) : node.placed <:+: program.placed := by
  obtain ⟨statement, hstatement, hnode⟩ := Statement.mem_nodesOf.mp h
  exact (Statement.infix_of_mem_nodes hnode).trans (Statement.infix_placedOf hstatement)

end Parts

end Offside

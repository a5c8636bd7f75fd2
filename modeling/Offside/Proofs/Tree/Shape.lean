import Offside.Proofs.Tree.Lines
import Offside.Proofs.Tree.Words

/-!
# The shape of trees

Which trees a text can stand for. An expression is **canonical** when both tiers of operators
fold to the left, and a minus sign goes as far as it can: no operator follows an operand that
ends in a minus sign's. A tree is **well formed** when its expressions are canonical, its
literals and names are legal, every body holds a statement, and every branch begins with a
guarded clause.

The **nesting** of an expression counts what is nested in its depth: minus signs, and parentheses
unless they open the expression or stand directly behind another one.
-/

namespace Offside

/-! ### Expressions -/

/-- Whether an operator is one of the language's. -/
def Operator.isKnown : Operator → Bool
  | unknown _ => false
  | _ => true

/-- Whether a relation is one of the language's. -/
def Relation.isKnown : Relation → Bool
  | unknown _ => false
  | _ => true

namespace Expr

/-- Whether an expression is an operand of multiplication, without an operator of its own
outside parentheses other than a minus sign in front. -/
def isFactor : Expr → Bool
  | number .. | var .. | negate .. | paren .. => true
  | binary .. | misplaced _ => false

/-- Whether an expression is an operand of addition. -/
def isTerm : Expr → Bool
  | binary _ op _ _ => op.isTight
  | e => e.isFactor

/-- Whether an expression ends in the operand of a minus sign, outside parentheses. -/
def endsOpen : Expr → Bool
  | negate .. => true
  | binary _ _ _ right => right.endsOpen
  | _ => false

/-- Whether `left` and `right` may stand around an operator: as operands of its tier, and so that
no minus sign in `left` ends before the operator. -/
def isFolded (op : Operator) (left right : Expr) : Bool :=
  !left.endsOpen && (if op.isTight then left.isTerm && right.isFactor else right.isTerm)

/-- Whether an expression is **canonical**. -/
def isCanonical : Expr → Bool
  | number .. | var .. => true
  | negate _ operand => operand.isCanonical
  | paren _ inner => inner.isCanonical
  | binary _ op left right =>
    op.isKnown && left.isCanonical && right.isCanonical && isFolded op left right
  | misplaced _ => false

/-- Whether the literals and the names of an expression can be written. -/
def isLegal : Expr → Bool
  | number _ value => 0 ≤ value && value < Numeral.bound
  | var _ name => Kind.IsIdentifier name
  | negate _ operand => operand.isLegal
  | paren _ inner => inner.isLegal
  | binary _ _ left right => left.isLegal && right.isLegal
  | misplaced _ => false

/-- Whether an expression is **well formed**. -/
def isWellFormed (e : Expr) : Bool :=
  e.isCanonical && e.isLegal

/-- How deeply an expression is nested. A parenthesis that it begins with counts unless the
expression itself stands at the beginning or behind a parenthesis, that is, `direct`ly. -/
def nesting : Expr → (direct : Bool) → Nat
  | number .., _ | var .., _ | misplaced _, _ => 0
  | negate _ operand, _ => operand.nesting false + 1
  | paren _ inner, direct => inner.nesting true + if direct then 0 else 1
  | binary _ _ left right, direct => max (left.nesting direct) (right.nesting false)

/-- A number is well formed when it can be written as a literal. -/
theorem isWellFormed_number_iff {line : Option Int} {value : Int} :
    (number line value).isWellFormed = true ↔ 0 ≤ value ∧ value < Numeral.bound := by
  rw [isWellFormed, isCanonical, isLegal, Bool.true_and, Bool.and_eq_true, decide_eq_true_iff,
    decide_eq_true_iff]

theorem isFolded_iff {op : Operator} {left right : Expr} :
    isFolded op left right = true ↔
      left.endsOpen = false ∧
        if op.isTight then left.isTerm = true ∧ right.isFactor = true else right.isTerm = true := by
  rw [isFolded, Bool.and_eq_true, Bool.not_eq_true']
  cases op.isTight <;> simp

/-- An operation is well formed when its operands are and fit. -/
theorem isWellFormed_binary_iff {line : Option Int} {op : Operator} {left right : Expr} :
    (binary line op left right).isWellFormed = true ↔
      op.isKnown = true ∧ left.isWellFormed = true ∧ right.isWellFormed = true ∧
        isFolded op left right = true := by
  simp only [isWellFormed, isCanonical, isLegal, Bool.and_eq_true]
  constructor
  · rintro ⟨⟨⟨⟨hknown, hcl⟩, hcr⟩, hfolded⟩, hll, hlr⟩
    exact ⟨hknown, ⟨hcl, hll⟩, ⟨hcr, hlr⟩, hfolded⟩
  · rintro ⟨hknown, ⟨hcl, hll⟩, ⟨hcr, hlr⟩, hfolded⟩
    exact ⟨⟨⟨⟨hknown, hcl⟩, hcr⟩, hfolded⟩, hll, hlr⟩

/-- A factor is a term. -/
theorem isTerm_of_isFactor {e : Expr} (h : e.isFactor = true) : e.isTerm = true := by
  cases e <;> simp_all [isFactor, isTerm]

end Expr

/-! ### Statements -/

/-- Whether a condition is well formed. -/
def Condition.isWellFormed : Condition → Bool
  | compare _ relation left right =>
    relation.isKnown && left.isWellFormed && right.isWellFormed
  | misplaced _ => false

/-- Whether clauses begin with a guarded one. -/
def Clauses.isGuarded : Clauses → Bool
  | guarded .. => true
  | _ => false

mutual

/-- Whether a statement is well formed. -/
def Statement.isWellFormed : Statement → Bool
  | .assign _ name value => Kind.IsIdentifier name && value.isWellFormed
  | .display _ value => value.isWellFormed
  | .input _ name => Kind.IsIdentifier name
  | .branch _ clauses => clauses.isGuarded && clauses.isWellFormed
  | .whileLoop _ condition body => condition.isWellFormed && body.isWellFormed
  | .forLoop _ name first last body =>
    Kind.IsIdentifier name && first.isWellFormed && last.isWellFormed && body.isWellFormed
  | .block _ | .misplaced .. => false

/-- Whether the clauses of a branch are well formed. -/
def Clauses.isWellFormed : Clauses → Bool
  | .done => true
  | .otherwise body => body.isWellFormed
  | .guarded condition body rest =>
    condition.isWellFormed && body.isWellFormed && rest.isWellFormed

/-- Whether a body is well formed: there are statements in it, and they are. -/
def Body.isWellFormed : Body → Bool
  | .mk _ statements => !statements.isEmpty && Statement.areWellFormed statements

/-- Whether statements are well formed. -/
def Statement.areWellFormed : List Statement → Bool
  | [] => true
  | statement :: rest => statement.isWellFormed && Statement.areWellFormed rest

end

/-- Whether a program is well formed. -/
def Program.isWellFormed (program : Program) : Bool :=
  Statement.areWellFormed program.statements

end Offside

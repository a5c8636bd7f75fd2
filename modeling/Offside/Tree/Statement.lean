import Offside.Tree.Expr

/-!
# Statements and programs

A program is a list of statements. Three of them are simple, and three hold further statements
in **bodies**: the chain of guarded clauses, the loop that tests a condition, and the loop that
counts. Statements and bodies keep their line, as expressions do; the line of a body is that of
the colon in front of it.

Like the expressions, the statements have a misplaced node, for a node that is no statement in
the place of one.
-/

namespace Offside

mutual

/-- Statements. -/
inductive Statement
  | assign (line : Option Int) (name : String) (value : Expr)
  | display (line : Option Int) (value : Expr)
  | input (line : Option Int) (name : String)
  | branch (line : Option Int) (clauses : Clauses)
  | whileLoop (line : Option Int) (condition : Condition) (body : Body)
  | forLoop (line : Option Int) (name : String) (first last : Expr) (body : Body)
  | block (body : Body)
  | misplaced (line : Option Int) (form : Form)

/-- The clauses of a branch: guarded bodies, and possibly a last body without a guard. -/
inductive Clauses
  | done
  | otherwise (body : Body)
  | guarded (condition : Condition) (body : Body) (rest : Clauses)

/-- Statements that are run together, and the line they belong to. -/
inductive Body
  | mk (line : Option Int) (statements : List Statement)

end

/-- The line of a body. -/
def Body.line : Body → Option Int
  | mk line _ => line

/-- The statements of a body. -/
def Body.statements : Body → List Statement
  | mk _ statements => statements

namespace Clauses

/-- Whether a further clause may follow: there is no body without a guard yet. -/
def isOpen : Clauses → Bool
  | done => true
  | otherwise _ => false
  | guarded _ _ rest => rest.isOpen

/-- Clauses followed by more of them. Behind a body without a guard nothing can follow. -/
def append : Clauses → Clauses → Clauses
  | done, more => more
  | otherwise body, _ => otherwise body
  | guarded condition body rest, more => guarded condition body (rest.append more)

end Clauses

namespace Statement

/-- The form of a statement. -/
def form : Statement → Form
  | assign .. => .assign
  | display .. => .display
  | input .. => .input
  | branch .. => .branch
  | whileLoop .. => .whileLoop
  | forLoop .. => .forLoop
  | block .. => .block
  | misplaced _ form => form

/-- The line of a statement. -/
def line : Statement → Option Int
  | assign line .. | display line .. | input line .. | branch line .. | whileLoop line ..
  | forLoop line .. | misplaced line .. => line
  | block body => body.line

end Statement

/-- A program: the statements at its top level. -/
structure Program where
  statements : List Statement

end Offside

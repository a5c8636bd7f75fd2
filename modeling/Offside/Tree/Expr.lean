import Offside.Tree.Form
import Offside.Token.Kind

/-!
# Expressions and conditions

Arithmetic expressions over integer variables, and the comparisons that decide branches and
loops. Every node keeps the **line** of the program that it stands on, if it stands on any.

Two kinds of node occur in no program that is read from text: an operator whose symbol is not
one of the language's, and a node that is *misplaced*, that is, no expression at all (or no
condition) in the place of one. A misplaced node is kept as its form, which is all that a run
can complain about.
-/

namespace Offside

/-- The arithmetic operators. -/
inductive Operator
  | add
  | subtract
  | multiply
  | divide
  | unknown (symbol : String)
  deriving DecidableEq, Repr

namespace Operator

/-- How an operator is written. -/
def symbol : Operator → String
  | add => "+"
  | subtract => "-"
  | multiply => "*"
  | divide => "/"
  | unknown symbol => symbol

/-- The operator that is written so. -/
def ofSymbol : String → Operator
  | "+" => add
  | "-" => subtract
  | "*" => multiply
  | "/" => divide
  | symbol => unknown symbol

/-- The operator that a kind of token stands for between two operands. -/
def ofKind? : Kind → Option Operator
  | .add => some add
  | .subtract => some subtract
  | .multiply => some multiply
  | .divide => some divide
  | _ => none

/-- Whether an operator binds as tightly as multiplication does. -/
def isTight : Operator → Bool
  | multiply | divide => true
  | _ => false

end Operator

/-- The relational operators. -/
inductive Relation
  | lt
  | le
  | gt
  | ge
  | eq
  | ne
  | unknown (symbol : String)
  deriving DecidableEq, Repr

namespace Relation

/-- How a relation is written in a tree. -/
def symbol : Relation → String
  | lt => "<"
  | le => "<="
  | gt => ">"
  | ge => ">="
  | eq => "="
  | ne => "/="
  | unknown symbol => symbol

/-- The relation that is written so in a tree. -/
def ofSymbol : String → Relation
  | "<" => lt
  | "<=" => le
  | ">" => gt
  | ">=" => ge
  | "=" => eq
  | "/=" => ne
  | symbol => unknown symbol

/-- The relation that a kind of token stands for; equality has two spellings. -/
def ofKind? : Kind → Option Relation
  | .lt => some lt
  | .le => some le
  | .gt => some gt
  | .ge => some ge
  | .eq | .eqEq => some eq
  | .ne => some ne
  | _ => none

end Relation

/-- Arithmetic expressions. -/
inductive Expr
  | number (line : Option Int) (value : Int)
  | var (line : Option Int) (name : String)
  | negate (line : Option Int) (operand : Expr)
  | paren (line : Option Int) (inner : Expr)
  | binary (line : Option Int) (op : Operator) (left right : Expr)
  | misplaced (form : Form)
  deriving DecidableEq, Repr

/-- The number of nodes of an expression. -/
def Expr.size : Expr → Nat
  | number .. | var .. | misplaced _ => 1
  | negate _ operand => operand.size + 1
  | paren _ inner => inner.size + 1
  | binary _ _ left right => left.size + right.size + 1

/-- Conditions: one comparison of two expressions. -/
inductive Condition
  | compare (line : Option Int) (relation : Relation) (left right : Expr)
  | misplaced (form : Form)
  deriving DecidableEq, Repr

end Offside

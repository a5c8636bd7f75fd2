import Offside.Diagnostic
import Offside.Store
import Offside.Tree.Expr

/-!
# The values of expressions

An expression is evaluated on a list of pending **tasks** and a stack of values: to visit an
expression, or to apply an operator to the values on top of the stack. Operands are visited
left before right, and an operator is applied once both are known, so of several things that go
wrong in an expression the first in this order is reported. Neither the length of a chain of
operators nor the depth of its parentheses matters.

Division rounds toward zero; a divisor of zero is a fault on the operator's line.
-/

namespace Offside

/-- The quotient rounded toward zero. There is none for the divisor zero. -/
def quotient (a b : Int) : Except Breakdown Int :=
  if b = 0 then .error .zeroDivisor else .ok (a.tdiv b)

/-- Applies an operator that stands on the given line. -/
def Operator.apply (line : Option Int) (a b : Int) : Operator → Except Failure Int
  | add => .ok (a + b)
  | subtract => .ok (a - b)
  | multiply => .ok (a * b)
  | divide =>
    if b = 0 then .error (.onLine .divisionByZero line) else (quotient a b).mapError .broken
  | unknown symbol => .error (.broken (.unknownOperator symbol))

/-- Compares two values. -/
def Relation.holds (a b : Int) : Relation → Except Failure Bool
  | lt => .ok (a < b)
  | le => .ok (a ≤ b)
  | gt => .ok (b < a)
  | ge => .ok (b ≤ a)
  | eq => .ok (a = b)
  | ne => .ok (a ≠ b)
  | unknown symbol => .error (.broken (.unknownRelation symbol))

/-- What is still to be done in an evaluation. -/
inductive Task
  | visit (expr : Expr)
  | negate
  | apply (line : Option Int) (op : Operator)
  deriving DecidableEq, Repr

namespace Task

/-- A bound on the work that a task amounts to. -/
def weight : Task → Nat
  | visit expr => 2 * expr.size
  | negate | apply .. => 1

/-- A bound on the work that tasks amount to. -/
def weightOf : List Task → Nat
  | [] => 0
  | task :: tasks => task.weight + weightOf tasks

/-- Carries out tasks on a stack of values. -/
def perform (store : Store) : List Task → List Int → Except Failure (List Int)
  | [], values => .ok values
  | .visit (.number _ value) :: tasks, values => perform store tasks (value :: values)
  | .visit (.var _ name) :: tasks, values => perform store tasks (store.get name :: values)
  | .visit (.paren _ inner) :: tasks, values => perform store (.visit inner :: tasks) values
  | .visit (.negate _ operand) :: tasks, values =>
    perform store (.visit operand :: .negate :: tasks) values
  | .visit (.binary line op left right) :: tasks, values =>
    perform store (.visit left :: .visit right :: .apply line op :: tasks) values
  | .visit (.misplaced form) :: _, _ => .error (.broken (.notExpression form))
  | .negate :: tasks, value :: values => perform store tasks (-value :: values)
  | .apply line op :: tasks, b :: a :: values =>
    match op.apply line a b with
    | .error e => .error e
    | .ok value => perform store tasks (value :: values)
  | _ :: _, _ => .error (.broken .noOperand)
termination_by tasks => weightOf tasks
decreasing_by
  all_goals
    simp only [weightOf, weight, Expr.size]
    omega

end Task

namespace Expr

/-- The value of an expression. -/
def value (store : Store) (expr : Expr) : Except Failure Int :=
  match Task.perform store [.visit expr] [] with
  | .error e => .error e
  | .ok (value :: _) => .ok value
  | .ok [] => .error (.broken .noOperand)

end Expr

/-- Whether a condition holds. -/
def Condition.holds (store : Store) : Condition → Except Failure Bool
  | compare _ relation left right =>
    match left.value store with
    | .error e => .error e
    | .ok a =>
      match right.value store with
      | .error e => .error e
      | .ok b => relation.holds a b
  | misplaced form => .error (.broken (.notCondition form))

end Offside

import Offside.Tree.Form

/-!
# Breakdowns

A **breakdown** is a failure that the language has no diagnostic for: it carries no position
in the program, nothing reports it and nothing recovers from it. Numbers whose text would be
longer than the limit break down in either direction; the others arise only from trees that no
program text reads as, or from operations used outside their domain.
-/

namespace Offside

/-- The most decimal digits that a number may have where it is read or written as text. -/
def digitLimit : Nat := 4300

/-- The causes of a breakdown. -/
inductive Breakdown
  /-- A numeral of too many digits, counted as written. -/
  | numeralTooLong (digits : Nat)
  /-- A value whose decimal text would have too many digits. -/
  | valueTooLong
  /-- An arithmetic operator that has no meaning. -/
  | unknownOperator (symbol : String)
  /-- A relational operator that has no meaning. -/
  | unknownRelation (symbol : String)
  /-- A node in the place of a statement that is none. -/
  | notStatement (form : Form)
  /-- A node in the place of an expression that is none. -/
  | notExpression (form : Form)
  /-- A node in the place of a condition that is none. -/
  | notCondition (form : Form)
  /-- A tree to be run that is no whole program. -/
  | notProgram
  /-- A token asked for where no line has been read. -/
  | noTokens
  /-- A value asked for where none has been computed. -/
  | noOperand
  /-- A quotient with the divisor zero. -/
  | zeroDivisor
  /-- A program file that is not UTF-8 text. -/
  | undecodable
  deriving DecidableEq, Repr

/-- The limit as the messages quote it. -/
private def limitText : String :=
  "Exceeds the limit (" ++ digitLimit.repr ++ " digits) for integer string conversion"

/-- The advice that ends a message about the limit. -/
private def limitAdvice : String :=
  "; use sys.set_int_max_str_digits() to increase the limit"

/-- What a breakdown says; about bytes that are no text it says nothing. -/
def Breakdown.message? : Breakdown → Option String
  | numeralTooLong digits =>
    some (limitText ++ ": value has " ++ digits.repr ++ " digits" ++ limitAdvice)
  | valueTooLong => some (limitText ++ limitAdvice)
  | unknownOperator symbol => some ("Unknown arithmetic operator: " ++ symbol)
  | unknownRelation symbol => some ("Unknown relational operator: " ++ symbol)
  | notStatement form => some ("Unknown statement node: " ++ form.name)
  | notExpression form => some ("Unknown expression node: " ++ form.name)
  | notCondition form => some ("Unknown boolean node: " ++ form.name)
  | notProgram => some "Interpreter expects a Program node at the top"
  | noTokens => some "list index out of range"
  | noOperand => some "pop from empty list"
  | zeroDivisor => some "integer division or modulo by zero"
  | undecodable => none

end Offside

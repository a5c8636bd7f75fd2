import Offside.Breakdown
import Offside.Token.Basic

/-!
# Diagnostics

What can be wrong with a program, said by **cause** and place. A cause belongs to one of the
**families** of errors, which give the diagnostic its title, and `Cause.message` is the one
place where the wording of every message stands. Rows and columns count from zero and are
printed counting from one.

A **failure** is a diagnostic or a breakdown; only diagnostics are ever reported and survived.
-/

namespace Offside

/-- The families of errors. -/
inductive Family
  | general
  | lexical
  | grammatical
  | runtime
  | arithmetic
  | inputFormat
  deriving DecidableEq, Repr

namespace Family

/-- All families. -/
def all : List Family :=
  [general, lexical, grammatical, runtime, arithmetic, inputFormat]

/-- The title that opens a diagnostic of the family. -/
def title : Family → String
  | general => "Error"
  | lexical => "Lexical error"
  | grammatical => "Syntax error"
  | runtime => "Runtime error"
  | arithmetic => "Arithmetic fault"
  | inputFormat => "Input format fault"

/-- The identifier that debugging output calls the family by. -/
def identifier : Family → String
  | general => "TabscriptError"
  | lexical => "LexicalError"
  | grammatical => "TabscriptSyntaxError"
  | runtime => "TabscriptRuntimeError"
  | arithmetic => "ArithmeticFault"
  | inputFormat => "InputFormatFault"

/-- The text of a diagnostic: title, place as far as it is known, and message. A column
without a row is not mentioned. -/
def format (family : Family) (message : String) (row column : Option Int)
    (indent : String := "") : String :=
  let place :=
    match row, column with
    | none, _ => ""
    | some r, none => " at line " ++ (r + 1).repr
    | some r, some c => " at line " ++ (r + 1).repr ++ ", col " ++ (c + 1).repr
  indent ++ family.title ++ place ++ ": " ++ message

end Family

/-- The causes of a diagnostic. -/
inductive Cause
  /-- A token without a lexeme. -/
  | blankLexeme
  /-- A token at a place before the first line or column. -/
  | negativePlace (row column : Int)
  /-- Text that is no lexeme of the language. -/
  | illegalLexeme (lexeme : String)
  /-- One kind of token required, another word there. -/
  | expected (kind : Kind) (found : Word)
  /-- An operand required. -/
  | expectedOperand (found : Word)
  /-- A relational operator required. -/
  | expectedRelation (found : Word)
  /-- A simple statement required. -/
  | expectedStatement (found : Word)
  /-- A clause with no branch to belong to. -/
  | strayClause (keyword : String)
  /-- A compound statement in the place of a simple one. -/
  | compoundAfterColon (keyword : String)
  /-- Something behind the end of a line. -/
  | afterEnd (found : Word)
  /-- Indentation where there is no block. -/
  | indentedAtTop (found : Nat)
  /-- Indentation deeper than the block's. -/
  | indentedTooFar (wanted found : Nat)
  /-- A block without statements; the row of the next line, if there is one. -/
  | missingBlock (next : Option Nat)
  /-- Nesting that exceeds what can be read. -/
  | nestedTooDeeplyToRead
  /-- Nesting that exceeds what can be run. -/
  | nestedTooDeeplyToRun
  /-- More statements started than the limit allows. -/
  | stepLimit
  /-- A quotient with the divisor zero. -/
  | divisionByZero
  /-- No line of input left for a variable. -/
  | noInput (name : String)
  /-- A line of input that is no integer. -/
  | illegalInput (text name : String)
  deriving DecidableEq, Repr

namespace Cause

/-- The family that a cause belongs to. -/
def family : Cause → Family
  | blankLexeme | negativePlace .. | illegalLexeme _ => .lexical
  | nestedTooDeeplyToRun | stepLimit => .runtime
  | divisionByZero => .arithmetic
  | noInput _ | illegalInput .. => .inputFormat
  | _ => .grammatical

/-- The message of a cause. -/
def message : Cause → String
  | blankLexeme => "lexeme cannot be blank"
  | negativePlace row column =>
    "negative token position (" ++ row.repr ++ ", " ++ column.repr ++ ")"
  | illegalLexeme lexeme => "invalid lexeme \"" ++ lexeme ++ "\""
  | expected kind found => "Expected " ++ kind.describe ++ ", found " ++ found.describe
  | expectedOperand found => "Expected a factor, found " ++ found.describe
  | expectedRelation found => "Expected a relational operator, found " ++ found.describe
  | expectedStatement found => "Expected a statement, found " ++ found.describe
  | strayClause keyword => keyword ++ " used without a preceding if"
  | compoundAfterColon keyword => keyword ++ " cannot follow ':' on the same line"
  | afterEnd found => "Unexpected " ++ found.describe ++ " after ';'"
  | indentedAtTop found =>
    "Unexpected indentation at top level (found " ++ found.repr ++ " levels)"
  | indentedTooFar wanted found =>
    "Unexpected indentation: expected " ++ wanted.repr ++ " levels, found " ++ found.repr
  | missingBlock none => "Expected an indented block after ':', found end of input"
  | missingBlock (some row) =>
    "Expected an indented block after ':', found line " ++ (row + 1).repr
  | nestedTooDeeplyToRead => "statement nested too deeply to parse"
  | nestedTooDeeplyToRun => "program nested too deeply to execute"
  | stepLimit => "Step limit exceeded (possible infinite loop)"
  | divisionByZero => "division by zero"
  | noInput name => "no input available for " ++ name
  | illegalInput text name => "invalid integer input \"" ++ text ++ "\" for " ++ name

end Cause

/-- A cause and its place, as far as it has one. -/
structure Diagnostic where
  cause : Cause
  row : Option Int
  column : Option Int
  deriving DecidableEq, Repr

/-- The text that reports a diagnostic. -/
def Diagnostic.text (d : Diagnostic) : String :=
  d.cause.family.format d.cause.message d.row d.column

/-- Why something failed: by a fault of the program, or by a breakdown. -/
inductive Failure
  | diagnosed (d : Diagnostic)
  | broken (b : Breakdown)
  deriving DecidableEq, Repr

namespace Failure

/-- A failure whose cause is a token. -/
def atToken (cause : Cause) (token : Token) : Failure :=
  .diagnosed ⟨cause, some token.row, some token.column⟩

/-- A failure whose cause is a whole line, if it is known which. -/
def onLine (cause : Cause) (line : Option Int) : Failure :=
  .diagnosed ⟨cause, line, none⟩

/-- A failure that has no place. -/
def unplaced (cause : Cause) : Failure :=
  .diagnosed ⟨cause, none, none⟩

end Failure

end Offside

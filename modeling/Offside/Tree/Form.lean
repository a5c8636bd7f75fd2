/-!
# Forms of syntax

The **form** of a node of a syntax tree: which construct of the language it is, apart from what
it contains. Traces, printed trees and complaints about misplaced nodes name a node by its form.
-/

namespace Offside

/-- The constructs of the language, each the form of some node. -/
inductive Form
  | program
  | block
  | assign
  | display
  | input
  | branch
  | whileLoop
  | forLoop
  | number
  | var
  | negate
  | paren
  | binary
  | compare
  deriving DecidableEq, Repr

/-- The name that a form goes by in traces and printed trees. -/
def Form.name : Form → String
  | program => "Program"
  | block => "Block"
  | assign => "Assign"
  | display => "Display"
  | input => "Input"
  | branch => "If"
  | whileLoop => "While"
  | forLoop => "For"
  | number => "Number"
  | var => "Var"
  | negate => "Negate"
  | paren => "Paren"
  | binary => "Binary"
  | compare => "Compare"

end Offside

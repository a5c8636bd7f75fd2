import Offside.Outline.Basic
import Offside.Tree.Statement

/-!
# Outlines of programs

The outline that shows how a program was read. Every node of the tree has a node in the outline,
headed by its form; names, numbers and operators are fields, expressions, conditions and bodies
are labelled parts, and the statements of a body and the clauses of a branch are items.

For each form there is a function that puts its outline together from the outlines of its
parts. A part may be missing, and then nothing is printed for it.
-/

namespace Offside.Outline

/-! ### Outlines by form -/

/-- A part with a label, if it is there. -/
def labelled (label : String) (part : Option Outline) : List (Option String × Outline) :=
  part.toList.map ((some label, ·))

/-- Items, one after another. -/
def items (parts : List Outline) : List (Option String × Outline) :=
  parts.map ((none, ·))

/-- A node that is nothing but text. -/
def raw (text : String) : Outline :=
  node "str" [("raw", .text text)] []

/-- A program or a block. -/
def statements (form : Form) (parts : List Outline) : Outline :=
  node form.name [] (items parts)

def assign (name : String) (value : Option Outline) : Outline :=
  node Form.assign.name [("name", .text name)] (labelled "value" value)

def display (expr : Option Outline) : Outline :=
  node Form.display.name [] (labelled "expr" expr)

def input (name : String) : Outline :=
  node Form.input.name [("name", .text name)] []

/-- A clause of a branch; the last one may do without a condition. -/
def clause (keyword : String) (condition body : Option Outline) : Outline :=
  node "Clause" [("keyword", .text keyword)]
    (labelled "condition" condition ++ labelled "body" body)

def branch (clauses : List Outline) : Outline :=
  node Form.branch.name [] (items clauses)

def whileLoop (condition body : Option Outline) : Outline :=
  node Form.whileLoop.name [] (labelled "condition" condition ++ labelled "body" body)

def forLoop (name : String) (first last body : Option Outline) : Outline :=
  node Form.forLoop.name [("var_name", .text name)]
    (labelled "start" first ++ labelled "end" last ++ labelled "body" body)

/-- A node with an operator between two operands: an expression or a condition. -/
def operation (form : Form) (symbol : String) (left right : Option Outline) : Outline :=
  node form.name [("op", .text symbol)] (labelled "left" left ++ labelled "right" right)

/-- A node around one expression. -/
def around (form : Form) (expr : Option Outline) : Outline :=
  node form.name [] (labelled "expr" expr)

def number (value : Int) : Outline :=
  node Form.number.name [("value", .number value)] []

def var (name : String) : Outline :=
  node Form.var.name [("name", .text name)] []

/-- The keyword of a guarded clause: the first clause of a branch has one of its own. -/
def guardWord (isFirst : Bool) : String :=
  if isFirst then "if" else "elif"

end Offside.Outline

namespace Offside

/-! ### Outlines of trees -/

/-- The outline of an expression. -/
def Expr.outline : Expr → Outline
  | number _ value => .number value
  | var _ name => .var name
  | negate _ operand => .around .negate operand.outline
  | paren _ inner => .around .paren inner.outline
  | binary _ op left right => .operation .binary op.symbol left.outline right.outline
  | misplaced form => .node form.name [] []

/-- The outline of a condition. -/
def Condition.outline : Condition → Outline
  | compare _ relation left right =>
    .operation .compare relation.symbol left.outline right.outline
  | misplaced form => .node form.name [] []

mutual

/-- The outline of a statement. -/
def Statement.outline : Statement → Outline
  | .assign _ name value => .assign name value.outline
  | .display _ value => .display value.outline
  | .input _ name => .input name
  | .branch _ clauses => .branch (clauses.outlines true)
  | .whileLoop _ condition body => .whileLoop condition.outline body.outline
  | .forLoop _ name first last body => .forLoop name first.outline last.outline body.outline
  | .block body => body.outline
  | .misplaced _ form => .node form.name [] []

/-- The outlines of clauses, the first of which may be the first of its branch. -/
def Clauses.outlines (isFirst : Bool) : Clauses → List Outline
  | .done => []
  | .otherwise body => [.clause "else" none body.outline]
  | .guarded condition body rest =>
    .clause (Outline.guardWord isFirst) condition.outline body.outline :: rest.outlines false

/-- The outline of a body. -/
def Body.outline : Body → Outline
  | .mk _ statements => .statements .block (Statement.outlines statements)

/-- The outlines of statements. -/
def Statement.outlines : List Statement → List Outline
  | [] => []
  | statement :: rest => statement.outline :: Statement.outlines rest

end

/-- The outline of a program. -/
def Program.outline (program : Program) : Outline :=
  .statements .program (Statement.outlines program.statements)

end Offside

import Offside.Proofs.Tree.Clauses

/-!
# Trees with other names

`mapName g` changes every name in a tree by `g`, as `mapLine f` does with the lines. Both are
functorial: to change nothing leaves a tree as it is, and two changes of the lines are one change.
-/

namespace Offside

section Names

variable (g : String → String)

/-- An expression with its names changed by `g`. -/
def Expr.mapName : Expr → Expr
  | number line value => number line value
  | var line name => var line (g name)
  | negate line operand => negate line operand.mapName
  | paren line inner => paren line inner.mapName
  | binary line op left right => binary line op left.mapName right.mapName
  | misplaced form => misplaced form

/-- A condition with its names changed by `g`. -/
def Condition.mapName : Condition → Condition
  | compare line relation left right => compare line relation (left.mapName g) (right.mapName g)
  | misplaced form => misplaced form

mutual

/-- A statement with its names changed by `g`. -/
def Statement.mapName : Statement → Statement
  | .assign line name value => .assign line (g name) (value.mapName g)
  | .display line value => .display line (value.mapName g)
  | .input line name => .input line (g name)
  | .branch line clauses => .branch line clauses.mapName
  | .whileLoop line condition body => .whileLoop line (condition.mapName g) body.mapName
  | .forLoop line name first last body =>
    .forLoop line (g name) (first.mapName g) (last.mapName g) body.mapName
  | .block body => .block body.mapName
  | .misplaced line form => .misplaced line form

/-- Clauses with their names changed by `g`. -/
def Clauses.mapName : Clauses → Clauses
  | .done => .done
  | .otherwise body => .otherwise body.mapName
  | .guarded condition body rest => .guarded (condition.mapName g) body.mapName rest.mapName

/-- A body with its names changed by `g`. -/
def Body.mapName : Body → Body
  | .mk line statements => .mk line (Statement.mapNames statements)

/-- Statements with their names changed by `g`. -/
def Statement.mapNames : List Statement → List Statement
  | [] => []
  | statement :: rest => statement.mapName :: Statement.mapNames rest

end

/-- A program with its names changed by `g`. -/
def Program.mapName (program : Program) : Program :=
  ⟨Statement.mapNames g program.statements⟩

theorem Statement.mapNames_eq_map (statements : List Statement) :
    mapNames g statements = statements.map (mapName g) := by
  induction statements with
  | nil => rfl
  | cons statement rest ih => rw [mapNames, ih, List.map_cons]

end Names

/-! ### To change nothing -/

/-- An expression whose names are kept is kept. -/
@[simp]
theorem Expr.mapName_id (e : Expr) : e.mapName id = e := by
  induction e <;> simp_all [mapName]

@[simp]
theorem Condition.mapName_id (c : Condition) : c.mapName id = c := by
  cases c <;> simp [mapName]

/-- An expression whose lines are kept is kept. -/
@[simp]
theorem Expr.mapLine_id (e : Expr) : e.mapLine id = e := by
  induction e <;> simp_all [mapLine]

@[simp]
theorem Condition.mapLine_id (c : Condition) : c.mapLine id = c := by
  cases c <;> simp [mapLine]

mutual

theorem Statement.mapName_id : ∀ statement : Statement, statement.mapName id = statement
  | .assign .. | .display .. | .input .. | .misplaced .. => by simp [Statement.mapName]
  | .branch _ clauses => by rw [Statement.mapName, Clauses.mapName_id clauses]
  | .whileLoop _ _ body => by rw [Statement.mapName, Condition.mapName_id, Body.mapName_id body]
  | .forLoop _ _ _ _ body => by
    rw [Statement.mapName, Expr.mapName_id, Expr.mapName_id, Body.mapName_id body, id]
  | .block body => by rw [Statement.mapName, Body.mapName_id body]

theorem Clauses.mapName_id : ∀ clauses : Clauses, clauses.mapName id = clauses
  | .done => rfl
  | .otherwise body => by rw [Clauses.mapName, Body.mapName_id body]
  | .guarded _ body rest => by
    rw [Clauses.mapName, Condition.mapName_id, Body.mapName_id body, Clauses.mapName_id rest]

theorem Body.mapName_id : ∀ body : Body, body.mapName id = body
  | .mk _ statements => by rw [Body.mapName, Statement.mapNames_id statements]

private theorem Statement.mapNames_id :
    ∀ statements : List Statement, Statement.mapNames id statements = statements
  | [] => rfl
  | statement :: rest => by
    rw [Statement.mapNames, Statement.mapName_id statement, Statement.mapNames_id rest]

end

mutual

theorem Statement.mapLine_id : ∀ statement : Statement, statement.mapLine id = statement
  | .assign .. | .display .. | .input .. | .misplaced .. => by simp [Statement.mapLine]
  | .branch _ clauses => by rw [Statement.mapLine, Clauses.mapLine_id clauses, id]
  | .whileLoop _ _ body => by rw [Statement.mapLine, Condition.mapLine_id, Body.mapLine_id body, id]
  | .forLoop _ _ _ _ body => by
    rw [Statement.mapLine, Expr.mapLine_id, Expr.mapLine_id, Body.mapLine_id body, id]
  | .block body => by rw [Statement.mapLine, Body.mapLine_id body]

theorem Clauses.mapLine_id : ∀ clauses : Clauses, clauses.mapLine id = clauses
  | .done => rfl
  | .otherwise body => by rw [Clauses.mapLine, Body.mapLine_id body]
  | .guarded _ body rest => by
    rw [Clauses.mapLine, Condition.mapLine_id, Body.mapLine_id body, Clauses.mapLine_id rest]

theorem Body.mapLine_id : ∀ body : Body, body.mapLine id = body
  | .mk _ statements => by rw [Body.mapLine, Statement.mapLines_id statements, id]

private theorem Statement.mapLines_id :
    ∀ statements : List Statement, Statement.mapLines id statements = statements
  | [] => rfl
  | statement :: rest => by
    rw [Statement.mapLines, Statement.mapLine_id statement, Statement.mapLines_id rest]

end

/-- A program whose names are kept is kept. -/
@[simp]
theorem Program.mapName_id (program : Program) : program.mapName id = program := by
  rw [mapName, Statement.mapNames_id]

/-- A program whose lines are kept is kept. -/
@[simp]
theorem Program.mapLine_id (program : Program) : program.mapLine id = program := by
  rw [mapLine, Statement.mapLines_id]

/-! ### To change lines twice -/

section Lines

variable (f g : Option Int → Option Int)

mutual

theorem Statement.mapLine_mapLine :
    ∀ statement : Statement, (statement.mapLine g).mapLine f = statement.mapLine (f ∘ g)
  | .assign .. | .display .. | .input .. | .misplaced .. => by
    simp [Statement.mapLine, Expr.mapLine_mapLine]
  | .branch _ clauses => by simp [Statement.mapLine, Clauses.mapLine_mapLine clauses]
  | .whileLoop _ _ body => by
    simp [Statement.mapLine, Condition.mapLine_mapLine, Body.mapLine_mapLine body]
  | .forLoop _ _ _ _ body => by
    simp [Statement.mapLine, Expr.mapLine_mapLine, Body.mapLine_mapLine body]
  | .block body => by simp [Statement.mapLine, Body.mapLine_mapLine body]

theorem Clauses.mapLine_mapLine :
    ∀ clauses : Clauses, (clauses.mapLine g).mapLine f = clauses.mapLine (f ∘ g)
  | .done => rfl
  | .otherwise body => by simp [Clauses.mapLine, Body.mapLine_mapLine body]
  | .guarded _ body rest => by
    simp [Clauses.mapLine, Condition.mapLine_mapLine, Body.mapLine_mapLine body,
      Clauses.mapLine_mapLine rest]

theorem Body.mapLine_mapLine :
    ∀ body : Body, (body.mapLine g).mapLine f = body.mapLine (f ∘ g)
  | .mk _ statements => by simp [Body.mapLine, Statement.mapLines_mapLines statements]

private theorem Statement.mapLines_mapLines : ∀ statements : List Statement,
    Statement.mapLines f (Statement.mapLines g statements) = Statement.mapLines (f ∘ g) statements
  | [] => rfl
  | statement :: rest => by
    simp [Statement.mapLines, Statement.mapLine_mapLine statement,
      Statement.mapLines_mapLines rest]

end

/-- The lines of a program may be moved in two steps or in one. -/
theorem Program.mapLine_mapLine (program : Program) :
    (program.mapLine g).mapLine f = program.mapLine (f ∘ g) := by
  rw [mapLine, mapLine, mapLine, Statement.mapLines_mapLines]

end Lines

end Offside

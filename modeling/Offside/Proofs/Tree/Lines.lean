import Offside.Tree.Statement

/-!
# Trees with other lines

Two trees that differ in their line numbers alone are the same program. `mapLine f` changes every
line of a tree by `f`; `unlined` forgets all of them, so that trees are equal up to lines when
their `unlined` forms are equal.
-/

namespace Offside

variable (f g : Option Int → Option Int)

/-- An expression with its lines changed by `f`. -/
def Expr.mapLine : Expr → Expr
  | number line value => number (f line) value
  | var line name => var (f line) name
  | negate line operand => negate (f line) operand.mapLine
  | paren line inner => paren (f line) inner.mapLine
  | binary line op left right => binary (f line) op left.mapLine right.mapLine
  | misplaced form => misplaced form

/-- A condition with its lines changed by `f`. -/
def Condition.mapLine : Condition → Condition
  | compare line relation left right => compare (f line) relation (left.mapLine f) (right.mapLine f)
  | misplaced form => misplaced form

mutual

/-- A statement with its lines changed by `f`. -/
def Statement.mapLine : Statement → Statement
  | .assign line name value => .assign (f line) name (value.mapLine f)
  | .display line value => .display (f line) (value.mapLine f)
  | .input line name => .input (f line) name
  | .branch line clauses => .branch (f line) clauses.mapLine
  | .whileLoop line condition body => .whileLoop (f line) (condition.mapLine f) body.mapLine
  | .forLoop line name first last body =>
    .forLoop (f line) name (first.mapLine f) (last.mapLine f) body.mapLine
  | .block body => .block body.mapLine
  | .misplaced line form => .misplaced (f line) form

/-- Clauses with their lines changed by `f`. -/
def Clauses.mapLine : Clauses → Clauses
  | .done => .done
  | .otherwise body => .otherwise body.mapLine
  | .guarded condition body rest => .guarded (condition.mapLine f) body.mapLine rest.mapLine

/-- A body with its lines changed by `f`. -/
def Body.mapLine : Body → Body
  | .mk line statements => .mk (f line) (Statement.mapLines statements)

/-- Statements with their lines changed by `f`. -/
def Statement.mapLines : List Statement → List Statement
  | [] => []
  | statement :: rest => statement.mapLine :: Statement.mapLines rest

end

/-- A program with its lines changed by `f`. -/
def Program.mapLine (program : Program) : Program :=
  ⟨Statement.mapLines f program.statements⟩

theorem Statement.mapLines_eq_map (statements : List Statement) :
    mapLines f statements = statements.map (mapLine f) := by
  induction statements with
  | nil => rfl
  | cons statement rest ih => rw [mapLines, ih, List.map_cons]

/-! ### Changing lines twice -/

theorem Expr.mapLine_mapLine (e : Expr) : (e.mapLine g).mapLine f = e.mapLine (f ∘ g) := by
  induction e <;> simp_all [mapLine]

theorem Condition.mapLine_mapLine (c : Condition) :
    (c.mapLine g).mapLine f = c.mapLine (f ∘ g) := by
  cases c <;> simp [mapLine, Expr.mapLine_mapLine]

/-! ### Trees without lines -/

/-- An expression without its lines. -/
def Expr.unlined (e : Expr) : Expr :=
  e.mapLine fun _ => none

/-- A condition without its lines. -/
def Condition.unlined (c : Condition) : Condition :=
  c.mapLine fun _ => none

/-- A statement without its lines. -/
def Statement.unlined (s : Statement) : Statement :=
  s.mapLine fun _ => none

/-- Clauses without their lines. -/
def Clauses.unlined (clauses : Clauses) : Clauses :=
  clauses.mapLine fun _ => none

/-- A body without its lines. -/
def Body.unlined (body : Body) : Body :=
  body.mapLine fun _ => none

/-- A program without its lines. -/
def Program.unlined (program : Program) : Program :=
  program.mapLine fun _ => none

theorem Body.unlined_mk (line : Option Int) (statements : List Statement) :
    (mk line statements).unlined = mk none (statements.map Statement.unlined) := by
  rw [unlined, mapLine, Statement.mapLines_eq_map]
  rfl

theorem Statement.unlined_whileLoop (line : Option Int) (condition : Condition) (body : Body) :
    (whileLoop line condition body).unlined = whileLoop none condition.unlined body.unlined :=
  rfl

theorem Statement.unlined_forLoop (line : Option Int) (name : String) (first last : Expr)
    (body : Body) :
    (forLoop line name first last body).unlined =
      forLoop none name first.unlined last.unlined body.unlined :=
  rfl

theorem Clauses.unlined_guarded (condition : Condition) (body : Body) (rest : Clauses) :
    (guarded condition body rest).unlined =
      guarded condition.unlined body.unlined rest.unlined :=
  rfl

@[simp]
theorem Expr.unlined_mapLine (e : Expr) : (e.mapLine f).unlined = e.unlined :=
  e.mapLine_mapLine _ f

@[simp]
theorem Condition.unlined_mapLine (c : Condition) : (c.mapLine f).unlined = c.unlined :=
  c.mapLine_mapLine _ f

end Offside

import Offside.Proofs.Tree.Clauses

/-!
# The nodes of programs

The **nodes** of a program are all the statements in it, at every depth. A node has parts of its
own: expressions, conditions, variables that it sets, and bodies, which hold further nodes. What a
run of a program does is done by its nodes, one at a time, with their own parts, so that claims
about runs come down to claims about single nodes. The nodes of a well-formed program are well
formed.
-/

namespace Offside

/-! ### The parts of a node -/

/-- The conditions of the clauses of a branch. -/
def Clauses.conditions : Clauses → List Condition
  | done | otherwise _ => []
  | guarded condition _ rest => condition :: rest.conditions

/-- The bodies of the clauses of a branch. -/
def Clauses.bodies : Clauses → List Body
  | done => []
  | otherwise body => [body]
  | guarded _ body rest => body :: rest.bodies

namespace Statement

/-- The expressions of a statement, apart from those in its conditions and bodies. -/
def exprs : Statement → List Expr
  | assign _ _ value | display _ value => [value]
  | forLoop _ _ first last _ => [first, last]
  | input .. | branch .. | whileLoop .. | block _ | misplaced .. => []

/-- The conditions that a statement tests itself. -/
def conditions : Statement → List Condition
  | branch _ clauses => clauses.conditions
  | whileLoop _ condition _ => [condition]
  | assign .. | display .. | input .. | forLoop .. | block _ | misplaced .. => []

/-- The variable that a statement sets itself, if it sets one. -/
def target? : Statement → Option String
  | assign _ name _ | input _ name | forLoop _ name _ _ _ => some name
  | display .. | branch .. | whileLoop .. | block _ | misplaced .. => none

/-- The bodies directly inside a statement. -/
def bodies : Statement → List Body
  | branch _ clauses => clauses.bodies
  | whileLoop _ _ body | forLoop _ _ _ _ body | block body => [body]
  | assign .. | display .. | input .. | misplaced .. => []

end Statement

/-! ### Nodes -/

mutual

/-- The statements inside a statement. -/
def Statement.inner : Statement → List Statement
  | .branch _ clauses => clauses.nodes
  | .whileLoop _ _ body | .forLoop _ _ _ _ body | .block body => body.nodes
  | .assign .. | .display .. | .input .. | .misplaced .. => []

/-- The statements inside the clauses of a branch. -/
def Clauses.nodes : Clauses → List Statement
  | .done => []
  | .otherwise body => body.nodes
  | .guarded _ body rest => body.nodes ++ rest.nodes

/-- The statements inside a body. -/
def Body.nodes : Body → List Statement
  | .mk _ statements => Statement.nodesOf statements

/-- Statements, each followed by those inside it. -/
def Statement.nodesOf : List Statement → List Statement
  | [] => []
  | statement :: rest => statement :: (statement.inner ++ Statement.nodesOf rest)

end

/-- The nodes of a statement: the statement itself and those inside it. -/
def Statement.nodes (statement : Statement) : List Statement :=
  statement :: statement.inner

/-- The nodes of a program. -/
def Program.nodes (program : Program) : List Statement :=
  Statement.nodesOf program.statements

theorem Statement.mem_nodesOf {node : Statement} {statements : List Statement} :
    node ∈ nodesOf statements ↔ ∃ statement ∈ statements, node ∈ statement.nodes := by
  induction statements with
  | nil => simp [nodesOf]
  | cons statement rest ih => simp [nodesOf, nodes, ih, or_assoc]

theorem Body.mem_nodes {node : Statement} {body : Body} :
    node ∈ body.nodes ↔ ∃ statement ∈ body.statements, node ∈ statement.nodes := by
  cases body
  exact Statement.mem_nodesOf

private theorem Clauses.mem_nodes {node : Statement} {clauses : Clauses} :
    node ∈ clauses.nodes ↔ ∃ body ∈ clauses.bodies, node ∈ body.nodes := by
  induction clauses with
  | done => simp [nodes, bodies]
  | otherwise body => simp [nodes, bodies]
  | guarded condition body rest ih => simp [nodes, bodies, ih]

/-- The statements inside a statement are the nodes of its bodies. -/
theorem Statement.mem_inner {node statement : Statement} :
    node ∈ statement.inner ↔ ∃ body ∈ statement.bodies, node ∈ body.nodes := by
  cases statement with
  | branch line clauses => exact Clauses.mem_nodes
  | whileLoop | forLoop | block => simp [inner, bodies]
  | assign | display | input | misplaced => simp [inner, bodies]

/-- The nodes of a statement in a body are nodes of whatever the body belongs to. -/
theorem Statement.mem_nodes_of_mem_body {statement within node : Statement} {body : Body}
    (hbody : body ∈ within.bodies) (hstatement : statement ∈ body.statements)
    (hnode : node ∈ statement.nodes) : node ∈ within.nodes :=
  List.mem_cons_of_mem _
    (mem_inner.mpr ⟨body, hbody, Body.mem_nodes.mpr ⟨statement, hstatement, hnode⟩⟩)

/-- Induction on a statement by its bodies: what holds of a statement if it holds of all those in
its bodies holds of every statement. -/
@[elab_as_elim]
theorem Statement.bodiesInduction {motive : Statement → Prop}
    (step : ∀ statement : Statement,
      (∀ body ∈ statement.bodies, ∀ inner ∈ body.statements, motive inner) → motive statement)
    (statement : Statement) : motive statement := by
  have simple : ∀ statement : Statement, statement.bodies = [] → motive statement :=
    fun statement h => step statement (h ▸ List.forall_mem_nil _)
  -- clauses, bodies and lists of statements have the motive of the statements in them
  refine @Statement.rec motive
    (fun clauses => ∀ body ∈ clauses.bodies, ∀ inner ∈ body.statements, motive inner)
    (fun body => ∀ inner ∈ body.statements, motive inner)
    (fun statements => ∀ inner ∈ statements, motive inner)
    (fun _ _ _ => simple _ rfl) (fun _ _ => simple _ rfl) (fun _ _ => simple _ rfl)
    (fun _ _ ih => step _ ih) (fun _ _ _ ih => step _ (List.forall_mem_singleton.mpr ih))
    (fun _ _ _ _ _ ih => step _ (List.forall_mem_singleton.mpr ih))
    (fun _ ih => step _ (List.forall_mem_singleton.mpr ih)) (fun _ _ => simple _ rfl)
    (List.forall_mem_nil _) (fun _ ih => List.forall_mem_singleton.mpr ih)
    (fun _ _ _ ih ihrest => List.forall_mem_cons.mpr ⟨ih, ihrest⟩) (fun _ _ ih => ih)
    (List.forall_mem_nil _) (fun _ _ ih ihrest => List.forall_mem_cons.mpr ⟨ih, ihrest⟩) statement

/-! ### Nodes of well-formed programs -/

private theorem Clauses.isWellFormed_of_mem_conditions {clauses : Clauses} {condition : Condition}
    (h : clauses.isWellFormed = true) (hmem : condition ∈ clauses.conditions) :
    condition.isWellFormed = true := by
  induction clauses with
  | done => cases hmem
  | otherwise body => cases hmem
  | guarded first body rest ih =>
    simp only [isWellFormed, Bool.and_eq_true] at h
    rcases List.mem_cons.mp hmem with rfl | hmem
    · exact h.1.1
    · exact ih h.2 hmem

private theorem Clauses.isWellFormed_of_mem_bodies {clauses : Clauses} {body : Body}
    (h : clauses.isWellFormed = true) (hmem : body ∈ clauses.bodies) :
    body.isWellFormed = true := by
  induction clauses with
  | done => cases hmem
  | otherwise last =>
    obtain rfl := List.mem_singleton.mp hmem
    exact h
  | guarded condition first rest ih =>
    simp only [isWellFormed, Bool.and_eq_true] at h
    rcases List.mem_cons.mp hmem with rfl | hmem
    · exact h.1.2
    · exact ih h.2 hmem

/-- There is a statement in a well-formed body, and all statements in it are well formed. -/
theorem Body.isWellFormed_iff {body : Body} :
    body.isWellFormed = true ↔
      body.statements ≠ [] ∧ ∀ statement ∈ body.statements, statement.isWellFormed = true := by
  cases body
  simp [isWellFormed, statements, Statement.areWellFormed_iff]

namespace Statement

variable {statement : Statement}

theorem isWellFormed_of_mem_exprs {e : Expr} (h : statement.isWellFormed = true)
    (hmem : e ∈ statement.exprs) : e.isWellFormed = true := by
  cases statement <;> simp_all [isWellFormed, exprs]
  rcases hmem with rfl | rfl
  · exact h.1.1.2
  · exact h.1.2

theorem isWellFormed_of_mem_conditions {condition : Condition} (h : statement.isWellFormed = true)
    (hmem : condition ∈ statement.conditions) : condition.isWellFormed = true := by
  cases statement with
  | branch line clauses =>
    exact Clauses.isWellFormed_of_mem_conditions (Bool.and_eq_true_iff.mp h).2 hmem
  | whileLoop line own body =>
    obtain rfl := List.mem_singleton.mp hmem
    exact (Bool.and_eq_true_iff.mp h).1
  | assign | display | input | forLoop | block | misplaced => cases hmem

theorem isWellFormed_of_mem_bodies {body : Body} (h : statement.isWellFormed = true)
    (hmem : body ∈ statement.bodies) : body.isWellFormed = true := by
  cases statement with
  | branch line clauses =>
    exact Clauses.isWellFormed_of_mem_bodies (Bool.and_eq_true_iff.mp h).2 hmem
  | whileLoop line condition own | forLoop line name first last own =>
    obtain rfl := List.mem_singleton.mp hmem
    exact (Bool.and_eq_true_iff.mp h).2
  | block own => cases h
  | assign | display | input | misplaced => cases hmem

private theorem isWellFormed_of_mem_nodes {node : Statement} (h : statement.isWellFormed = true)
    (hmem : node ∈ statement.nodes) : node.isWellFormed = true := by
  induction statement using bodiesInduction with
  | step statement ih =>
    rcases List.mem_cons.mp hmem with rfl | hmem
    · exact h
    · obtain ⟨body, hbody, hnode⟩ := mem_inner.mp hmem
      obtain ⟨inner, hinner, hnode⟩ := Body.mem_nodes.mp hnode
      have hwithin := (Body.isWellFormed_iff.mp (isWellFormed_of_mem_bodies h hbody)).2
      exact ih body hbody inner hinner (hwithin inner hinner) hnode

end Statement

/-- The nodes of a well-formed program are well formed. -/
theorem Program.isWellFormed_of_mem_nodes {program : Program} {node : Statement}
    (h : program.isWellFormed = true) (hmem : node ∈ program.nodes) : node.isWellFormed = true := by
  obtain ⟨statement, hstatement, hnode⟩ := Statement.mem_nodesOf.mp hmem
  exact Statement.isWellFormed_of_mem_nodes (Statement.areWellFormed_iff.mp h statement hstatement)
    hnode

end Offside

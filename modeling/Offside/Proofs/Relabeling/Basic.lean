import Offside.Proofs.Failing
import Offside.Proofs.Tree.Names
import Offside.Diagnostic

/-!
# Relabelings

What a program does depends on its words and their order, and neither on where these words stand
nor on how its names are spelled. A **relabeling** changes all that does not matter: rows, columns
and names. It acts on tokens, and from there on everything that is made of tokens: on trees, on the
diagnostics that quote them, and on the events of a run.

Reading and running commute with relabelings; this module has the actions alone.
-/

namespace Offside

/-- A **relabeling**: how rows, columns and names are changed. The lines of trees are rows, and
change as these do. The first column stays, since a line that is indented too far is reported
there. -/
structure Relabeling where
  row : Nat → Nat
  column : Nat → Nat
  name : String → String
  line : Int → Int
  line_row : ∀ n : Nat, line n = row n
  column_zero : column 0 = 0

namespace Relabeling

/-- The relabeling that moves rows, and lines with them. -/
def ofRows (row : Nat → Nat) (line : Int → Int) (h : ∀ n : Nat, line n = row n) : Relabeling where
  row := row
  column := id
  name := id
  line := line
  line_row := h
  column_zero := rfl

/-- The relabeling that moves rows. -/
def ofRow (row : Nat → Nat) : Relabeling :=
  ofRows row (fun line => row line.toNat) fun _ => rfl

/-- The relabeling that changes names. -/
def ofName (name : String → String) : Relabeling where
  row := id
  column := id
  name := name
  line := id
  line_row _ := rfl
  column_zero := rfl

/-- The relabeling that forgets all columns besides. -/
def flatten (r : Relabeling) : Relabeling where
  row := r.row
  column _ := 0
  name := r.name
  line := r.line
  line_row := r.line_row
  column_zero := rfl

end Relabeling

variable (r : Relabeling)

/-! ### Words and tokens -/

/-- A word with its name changed, if it is one. -/
def Word.relabel (word : Word) : Word :=
  if word.kind = .identifier then { word with lexeme := r.name word.lexeme } else word

/-- A token with its place and its name changed. -/
def Token.relabel (token : Token) : Token where
  toWord := token.toWord.relabel r
  row := r.row token.row
  column := r.column token.column

@[simp]
theorem Word.kind_relabel (word : Word) : (word.relabel r).kind = word.kind := by
  unfold relabel
  split <;> rfl

private theorem Word.relabel_of_ne {word : Word} (h : word.kind ≠ .identifier) :
    word.relabel r = word :=
  if_neg h

variable {r} in
theorem Word.relabel_of_name_eq_id (h : r.name = id) (word : Word) : word.relabel r = word := by
  rw [relabel, h]
  exact ite_self word

@[simp]
theorem Token.kind_relabel (token : Token) : (token.relabel r).kind = token.kind :=
  Word.kind_relabel r token.toWord

theorem Token.row_relabel (token : Token) : (token.relabel r).row = r.row token.row :=
  rfl

theorem Token.lexeme_relabel_of_eq {token : Token} (h : token.kind = .identifier) :
    (token.relabel r).lexeme = r.name token.lexeme :=
  congrArg Word.lexeme (if_pos h)

theorem Token.lexeme_relabel_of_ne {token : Token} (h : token.kind ≠ .identifier) :
    (token.relabel r).lexeme = token.lexeme :=
  congrArg Word.lexeme (Word.relabel_of_ne r h)

/-! ### Trees -/

/-- An expression with its lines and names changed. -/
def Expr.relabel (e : Expr) : Expr :=
  (e.mapLine (Option.map r.line)).mapName r.name

/-- A condition with its lines and names changed. -/
def Condition.relabel (c : Condition) : Condition :=
  (c.mapLine (Option.map r.line)).mapName r.name

/-- A statement with its lines and names changed. -/
def Statement.relabel (s : Statement) : Statement :=
  (s.mapLine (Option.map r.line)).mapName r.name

/-- Clauses with their lines and names changed. -/
def Clauses.relabel (clauses : Clauses) : Clauses :=
  (clauses.mapLine (Option.map r.line)).mapName r.name

/-- A body with its lines and names changed. -/
def Body.relabel (body : Body) : Body :=
  (body.mapLine (Option.map r.line)).mapName r.name

/-- A program with its lines and names changed. -/
def Program.relabel (program : Program) : Program :=
  (program.mapLine (Option.map r.line)).mapName r.name

theorem Body.relabel_mk (line : Option Int) (statements : List Statement) :
    (mk line statements).relabel r =
      mk (line.map r.line) (statements.map (Statement.relabel r)) := by
  rw [relabel, mapLine, mapName, Statement.mapLines_eq_map, Statement.mapNames_eq_map, List.map_map]
  rfl

theorem Body.statements_relabel (body : Body) :
    (body.relabel r).statements = body.statements.map (Statement.relabel r) := by
  cases body
  rw [relabel_mk]
  rfl

theorem Program.relabel_mk (statements : List Statement) :
    (mk statements).relabel r = mk (statements.map (Statement.relabel r)) := by
  rw [relabel, mapLine, mapName, Statement.mapLines_eq_map, Statement.mapNames_eq_map, List.map_map]
  rfl

variable {r} in
/-- A relabeling that keeps names moves lines. -/
theorem Program.relabel_of_name_eq_id (h : r.name = id) (program : Program) :
    program.relabel r = program.mapLine (Option.map r.line) := by
  rw [relabel, h, mapName_id]

variable {r} in
/-- A relabeling that keeps lines changes names. -/
theorem Program.relabel_of_line_eq_id (h : r.line = id) (program : Program) :
    program.relabel r = program.mapName r.name := by
  rw [relabel, h, Option.map_id, mapLine_id]

private theorem Body.line_relabel (body : Body) : (body.relabel r).line = body.line.map r.line := by
  cases body
  rfl

theorem Statement.line_relabel (statement : Statement) :
    (statement.relabel r).line = statement.line.map r.line := by
  cases statement with
  | block body => exact body.line_relabel r
  | assign | display | input | branch | whileLoop | forLoop | misplaced => rfl

theorem Statement.form_relabel (statement : Statement) :
    (statement.relabel r).form = statement.form := by
  cases statement <;> rfl

theorem Clauses.relabel_append (front back : Clauses) :
    (front.append back).relabel r = (front.relabel r).append (back.relabel r) := by
  induction front with
  | done => rfl
  | otherwise body => rfl
  | guarded condition body rest ih =>
    exact congrArg (guarded (condition.relabel r) (body.relabel r)) ih

@[simp]
theorem Clauses.isOpen_relabel (clauses : Clauses) :
    (clauses.relabel r).isOpen = clauses.isOpen := by
  induction clauses with
  | done => rfl
  | otherwise body => rfl
  | guarded condition body rest ih => exact ih

/-! ### Failures -/

/-- A cause with the row and the names in it changed. -/
def Cause.relabel : Cause → Cause
  | .expected kind found => .expected kind (found.relabel r)
  | .expectedOperand found => .expectedOperand (found.relabel r)
  | .expectedRelation found => .expectedRelation (found.relabel r)
  | .expectedStatement found => .expectedStatement (found.relabel r)
  | .afterEnd found => .afterEnd (found.relabel r)
  | .missingBlock next => .missingBlock (next.map r.row)
  | .noInput name => .noInput (r.name name)
  | .illegalInput text name => .illegalInput text (r.name name)
  | cause => cause

/-- A cause stays in its family. -/
private theorem Cause.family_relabel (cause : Cause) : (cause.relabel r).family = cause.family := by
  cases cause <;> rfl

/-- The column of a diagnostic, changed. What is no column stays. -/
def Relabeling.place : Int → Int
  | .ofNat column => r.column column
  | .negSucc n => .negSucc n

/-- A diagnostic with its cause and place changed. -/
def Diagnostic.relabel (d : Diagnostic) : Diagnostic where
  cause := d.cause.relabel r
  row := d.row.map r.line
  column := d.column.map r.place

/-- A failure with its diagnostic changed, if it has one. -/
def Failure.relabel : Failure → Failure
  | .diagnosed d => .diagnosed (d.relabel r)
  | .broken b => .broken b

private theorem Failure.relabel_atToken (cause : Cause) (token : Token) :
    (atToken cause token).relabel r = atToken (cause.relabel r) (token.relabel r) := by
  simp only [atToken, relabel, Diagnostic.relabel, Option.map_some, r.line_row]
  rfl

section Equal

variable {r} {r' : Relabeling}

/-- Diagnostics that are relabeled to the same one are of one family. -/
theorem Diagnostic.family_eq_of_relabel_eq {d d' : Diagnostic} (h : d.relabel r = d'.relabel r') :
    d.cause.family = d'.cause.family := by
  rw [← d.cause.family_relabel r, ← d'.cause.family_relabel r']
  exact congrArg (fun d => d.cause.family) h

/-- Failures that are relabeled to the same one are the same breakdown, or diagnostics that are
relabeled to the same one. -/
theorem Failure.eq_or_of_relabel_eq {failure failure' : Failure}
    (h : failure.relabel r = failure'.relabel r') :
    (∃ b, failure = .broken b ∧ failure' = .broken b) ∨
      ∃ d d', failure = .diagnosed d ∧ failure' = .diagnosed d' ∧ d.relabel r = d'.relabel r' := by
  cases failure with
  | broken b =>
    cases failure' with
    | broken b' => exact .inl ⟨b, rfl, congrArg Failure.broken (Failure.broken.inj h).symm⟩
    | diagnosed d' => cases h
  | diagnosed d =>
    cases failure' with
    | broken b' => cases h
    | diagnosed d' => exact .inr ⟨d, d', rfl, rfl, Failure.diagnosed.inj h⟩

end Equal

/-! ### Results -/

namespace Relabeling

variable {α α' β β' : Type} (f : α → α') (g : β → β')

/-- A result with its value changed by `f`, or its failure relabeled. -/
def result : Except Failure α → Except Failure α'
  | .ok a => .ok (f a)
  | .error failure => .error (failure.relabel r)

/-- The result of a reader, which comes with the tokens that are left over. -/
def reading : Except Failure (α × List Token) → Except Failure (α' × List Token) :=
  r.result (Prod.map f (List.map (Token.relabel r)))

variable {f g}

theorem result_eq_ok_iff {first : Except Failure α} {value : α'} :
    r.result f first = .ok value ↔ ∃ a, first = .ok a ∧ f a = value := by
  cases first with
  | error failure => simp [result]
  | ok a => simp [result]

/-- A complaint about a token becomes one about the changed token. -/
theorem result_atToken {cause cause' : Cause} {token : Token} (h : cause' = cause.relabel r) :
    .error (.atToken cause' (token.relabel r)) = r.result f (.error (.atToken cause token)) := by
  rw [result, Failure.relabel_atToken, h]

/-- What goes on with a result goes on with the changed result. -/
theorem bind_result {first : Except Failure α} {next : α → Except Failure β}
    {next' : α' → Except Failure β'}
    (h : ∀ a, first = .ok a → next' (f a) = r.result g (next a)) :
    r.result f first >>= next' = r.result g (first >>= next) := by
  cases first with
  | error failure => rfl
  | ok a => exact h a rfl

/-- What goes on with a reading goes on with the changed reading. -/
theorem bind_reading {first : Except Failure (α × List Token)}
    {next : α × List Token → Except Failure β} {next' : α' × List Token → Except Failure β'}
    (h : ∀ a rest, first = .ok (a, rest) →
      next' (f a, rest.map (Token.relabel r)) = r.result g (next (a, rest))) :
    r.reading f first >>= next' = r.result g (first >>= next) :=
  r.bind_result fun (a, rest) => h a rest

end Relabeling

end Offside

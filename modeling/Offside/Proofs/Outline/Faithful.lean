import Offside.Command
import Offside.Proofs.Failing
import Offside.Proofs.Outline.ReadBack
import Offside.Proofs.Outline.Words
import Offside.Proofs.Source.Program

/-!
# Outlines are faithful

A program that was read can be printed, and its text tells its outline
(`Outline.spelled_eq_of_render_eq`). The outline in turn tells the program, up to the lines that its
nodes stand on: the head of a node tells its form, and the form says what its fields and parts are.
Printed trees are therefore the same exactly for programs that are the same but for their lines
(`Program.outline_faithful`).
-/

namespace Offside

open Outline

/-! ### Outlines tell trees -/

/-- Forms have different names. -/
private theorem Form.name_injective {form form' : Form} (h : form.name = form'.name) :
    form = form' := by
  cases form <;> cases form' <;> first | rfl | exact absurd h (by decide)

/-- The form of an expression. -/
def Expr.form : Expr → Form
  | number .. => .number
  | var .. => .var
  | negate .. => .negate
  | paren .. => .paren
  | binary .. => .binary
  | misplaced form => form

/-- The head of an outline. -/
def Outline.head : Outline → String
  | node head _ _ => head

private theorem Outline.head_spelled (outline : Outline) : outline.spelled.head = outline.head := by
  cases outline
  rfl

private theorem Expr.head_outline (e : Expr) : e.outline.head = e.form.name := by
  cases e <;> rfl

/-- An operator of the language is told by its symbol. -/
private theorem Operator.ofSymbol_symbol {op : Operator} (h : op.isKnown = true) :
    ofSymbol op.symbol = op := by
  cases op with
  | unknown => cases h
  | add | subtract | multiply | divide => rfl

/-- A relation of the language is told by its symbol. -/
private theorem Relation.ofSymbol_symbol {relation : Relation} (h : relation.isKnown = true) :
    ofSymbol relation.symbol = relation := by
  cases relation with
  | unknown => cases h
  | lt | le | gt | ge | eq | ne => rfl

/-- Literals are told by their text. -/
theorem Numeral.render_injective {value value' : Int} (h : 0 ≤ value) (h' : 0 ≤ value')
    (hrender : render value = render value') : value = value' := by
  obtain ⟨n, rfl⟩ := Int.eq_ofNat_of_zero_le h
  obtain ⟨n', rfl⟩ := Int.eq_ofNat_of_zero_le h'
  have hvalue := congrArg (fun text : String => Numeral.value text.toList) hrender
  exact congrArg Int.ofNat ((value_repr n).symm.trans (hvalue.trans (value_repr n')))

/-- The head of a node tells its form. -/
private theorem Outline.form_eq_of_spelled_eq {outline outline' : Outline} {form form' : Form}
    (h : outline.head = form.name) (h' : outline'.head = form'.name)
    (hspelled : outline.spelled = outline'.spelled) : form = form' := by
  have hheads := congrArg head hspelled
  rw [head_spelled, head_spelled, h, h'] at hheads
  exact Form.name_injective hheads

/-- Expressions that are spelled alike have one form. -/
private theorem Expr.form_eq_of_spelled_eq {e e' : Expr}
    (h : e.outline.spelled = e'.outline.spelled) :
    e.form = e'.form :=
  Outline.form_eq_of_spelled_eq e.head_outline e'.head_outline h

/-- **Expressions** are told by their outlines, up to lines. -/
theorem Expr.unlined_eq_of_spelled_eq {e e' : Expr} (h : e.isWellFormed = true)
    (h' : e'.isWellFormed = true) (hspelled : e.outline.spelled = e'.outline.spelled) :
    e.unlined = e'.unlined := by
  induction e generalizing e' with
  | number line value =>
    cases e' with
    | number line' value' =>
      have hvalue : Numeral.render value = Numeral.render value' := by
        simpa [outline, Outline.number, spelled, spelledField, FieldValue.render] using hspelled
      have heq := Numeral.render_injective (isWellFormed_number_iff.mp h).1
        (isWellFormed_number_iff.mp h').1 hvalue
      rw [heq]
      rfl
    | var | negate | paren | binary => cases form_eq_of_spelled_eq hspelled
    | misplaced => cases h'
  | var line name =>
    cases e' with
    | var line' name' =>
      have hname : name = name' := by
        simpa [outline, Outline.var, spelled, spelledField, FieldValue.render] using hspelled
      rw [hname]
      rfl
    | number | negate | paren | binary => cases form_eq_of_spelled_eq hspelled
    | misplaced => cases h'
  | negate line operand ih =>
    cases e' with
    | negate line' operand' =>
      have hoperand : operand.outline.spelled = operand'.outline.spelled := by
        simpa [outline, around, labelled, spelled, spelledParts] using hspelled
      exact congrArg (negate none) (ih h h' hoperand)
    | number | var | paren | binary => cases form_eq_of_spelled_eq hspelled
    | misplaced => cases h'
  | paren line inner ih =>
    cases e' with
    | paren line' inner' =>
      have hinner : inner.outline.spelled = inner'.outline.spelled := by
        simpa [outline, around, labelled, spelled, spelledParts] using hspelled
      exact congrArg (paren none) (ih h h' hinner)
    | number | var | negate | binary => cases form_eq_of_spelled_eq hspelled
    | misplaced => cases h'
  | binary line op left right ihl ihr =>
    cases e' with
    | binary line' op' left' right' =>
      obtain ⟨hop, hleft, hright, -⟩ := isWellFormed_binary_iff.mp h
      obtain ⟨hop', hleft', hright', -⟩ := isWellFormed_binary_iff.mp h'
      have hparts : op.symbol = op'.symbol ∧ left.outline.spelled = left'.outline.spelled ∧
          right.outline.spelled = right'.outline.spelled := by
        simpa [outline, operation, labelled, spelled, spelledParts, spelledField,
          FieldValue.render] using hspelled
      have heq : op = op' := by
        rw [← Operator.ofSymbol_symbol hop, hparts.1, Operator.ofSymbol_symbol hop']
      rw [heq]
      exact congrArg₂ (binary none op') (ihl hleft hleft' hparts.2.1)
        (ihr hright hright' hparts.2.2)
    | number | var | negate | paren => cases form_eq_of_spelled_eq hspelled
    | misplaced => cases h'
  | misplaced form => cases h

/-- A well-formed condition is told by the spelling of its outline, up to lines. -/
private theorem Condition.unlined_eq_of_spelled_eq {condition condition' : Condition}
    (h : condition.isWellFormed = true) (h' : condition'.isWellFormed = true)
    (hspelled : condition.outline.spelled = condition'.outline.spelled) :
    condition.unlined = condition'.unlined := by
  cases condition with
  | misplaced form => cases h
  | compare line relation left right =>
    cases condition' with
    | misplaced form => cases h'
    | compare line' relation' left' right' =>
      simp only [isWellFormed, Bool.and_eq_true] at h h'
      have hparts : relation.symbol = relation'.symbol ∧
          left.outline.spelled = left'.outline.spelled ∧
          right.outline.spelled = right'.outline.spelled := by
        simpa [outline, operation, labelled, spelled, spelledParts, spelledField,
          FieldValue.render] using hspelled
      have heq : relation = relation' := by
        rw [← Relation.ofSymbol_symbol h.1.1, hparts.1, Relation.ofSymbol_symbol h'.1.1]
      rw [heq]
      exact congrArg₂ (compare none relation')
        (Expr.unlined_eq_of_spelled_eq h.1.2 h'.1.2 hparts.2.1)
        (Expr.unlined_eq_of_spelled_eq h.2 h'.2 hparts.2.2)

/-! ### Statements -/

private theorem Outline.spelledParts_items (outlines : List Outline) :
    spelledParts (items outlines) = items (outlines.map spelled) := by
  induction outlines with
  | nil => rfl
  | cons outline outlines ih => exact congrArg (_ :: ·) ih

/-- The items of a node are told by the node. -/
private theorem Outline.map_spelled_eq_of_items {head head' : String}
    {fields fields' : List (String × FieldValue)} {outlines outlines' : List Outline}
    (h : (node head fields (items outlines)).spelled =
      (node head' fields' (items outlines')).spelled) :
    outlines.map spelled = outlines'.map spelled := by
  have hitems := (Outline.node.inj h).2.2
  rw [spelledParts_items, spelledParts_items] at hitems
  exact List.map_injective_iff.mpr (fun _ _ heq => (Prod.mk.inj heq).2) hitems

/-- The outline of a statement is headed by its form. -/
private theorem Statement.head_outline (statement : Statement) :
    statement.outline.head = statement.form.name := by
  cases statement with
  | block body =>
    cases body
    rfl
  | assign | display | input | branch | whileLoop | forLoop | misplaced => rfl

private theorem Statement.form_eq_of_spelled_eq {statement statement' : Statement}
    (h : statement.outline.spelled = statement'.outline.spelled) :
    statement.form = statement'.form :=
  Outline.form_eq_of_spelled_eq statement.head_outline statement'.head_outline h

mutual

/-- **Statements** are told by their outlines, up to lines. -/
theorem Statement.unlined_eq_of_spelled_eq : ∀ {statement statement' : Statement},
    statement.isWellFormed = true → statement'.isWellFormed = true →
    statement.outline.spelled = statement'.outline.spelled →
    statement.unlined = statement'.unlined
  | .assign line name value, statement', h, h', hspelled => by
    cases statement' with
    | assign line' name' value' =>
      simp only [Statement.isWellFormed, Bool.and_eq_true] at h h'
      have hparts : name = name' ∧ value.outline.spelled = value'.outline.spelled := by
        simpa [Statement.outline, Outline.assign, labelled, spelled, spelledParts, spelledField,
          FieldValue.render] using hspelled
      rw [hparts.1]
      exact congrArg (Statement.assign none name')
        (Expr.unlined_eq_of_spelled_eq h.2 h'.2 hparts.2)
    | display | input | branch | whileLoop | forLoop =>
      cases Statement.form_eq_of_spelled_eq hspelled
    | block | misplaced => cases h'
  | .display line value, statement', h, h', hspelled => by
    cases statement' with
    | display line' value' =>
      have hvalue : value.outline.spelled = value'.outline.spelled := by
        simpa [Statement.outline, Outline.display, labelled, spelled, spelledParts] using hspelled
      exact congrArg (Statement.display none) (Expr.unlined_eq_of_spelled_eq h h' hvalue)
    | assign | input | branch | whileLoop | forLoop =>
      cases Statement.form_eq_of_spelled_eq hspelled
    | block | misplaced => cases h'
  | .input line name, statement', h, h', hspelled => by
    cases statement' with
    | input line' name' =>
      have hname : name = name' := by
        simpa [Statement.outline, Outline.input, spelled, spelledField, FieldValue.render] using
          hspelled
      rw [hname]
      rfl
    | assign | display | branch | whileLoop | forLoop =>
      cases Statement.form_eq_of_spelled_eq hspelled
    | block | misplaced => cases h'
  | .branch line clauses, statement', h, h', hspelled => by
    cases statement' with
    | branch line' clauses' =>
      obtain ⟨-, h⟩ := Bool.and_eq_true_iff.mp h
      obtain ⟨-, h'⟩ := Bool.and_eq_true_iff.mp h'
      exact congrArg (Statement.branch none)
        (Clauses.unlined_eq_of_spelled_eq h h' (map_spelled_eq_of_items hspelled))
    | assign | display | input | whileLoop | forLoop =>
      cases Statement.form_eq_of_spelled_eq hspelled
    | block | misplaced => cases h'
  | .whileLoop line condition body, statement', h, h', hspelled => by
    cases statement' with
    | whileLoop line' condition' body' =>
      obtain ⟨hcondition, hbody⟩ := Bool.and_eq_true_iff.mp h
      obtain ⟨hcondition', hbody'⟩ := Bool.and_eq_true_iff.mp h'
      have hparts : condition.outline.spelled = condition'.outline.spelled ∧
          body.outline.spelled = body'.outline.spelled := by
        simpa [Statement.outline, Outline.whileLoop, labelled, spelled, spelledParts] using hspelled
      exact congrArg₂ (Statement.whileLoop none)
        (Condition.unlined_eq_of_spelled_eq hcondition hcondition' hparts.1)
        (Body.unlined_eq_of_spelled_eq hbody hbody' hparts.2)
    | assign | display | input | branch | forLoop =>
      cases Statement.form_eq_of_spelled_eq hspelled
    | block | misplaced => cases h'
  | .forLoop line name first last body, statement', h, h', hspelled => by
    cases statement' with
    | forLoop line' name' first' last' body' =>
      simp only [Statement.isWellFormed, Bool.and_eq_true] at h h'
      have hparts : name = name' ∧ first.outline.spelled = first'.outline.spelled ∧
          last.outline.spelled = last'.outline.spelled ∧
          body.outline.spelled = body'.outline.spelled := by
        simpa [Statement.outline, Outline.forLoop, labelled, spelled, spelledParts, spelledField,
          FieldValue.render] using hspelled
      obtain ⟨hname, hfirst, hlast, hbody⟩ := hparts
      rw [Statement.unlined_forLoop, Statement.unlined_forLoop, hname,
        Expr.unlined_eq_of_spelled_eq h.1.1.2 h'.1.1.2 hfirst,
        Expr.unlined_eq_of_spelled_eq h.1.2 h'.1.2 hlast,
        Body.unlined_eq_of_spelled_eq h.2 h'.2 hbody]
    | assign | display | input | branch | whileLoop =>
      cases Statement.form_eq_of_spelled_eq hspelled
    | block | misplaced => cases h'

/-- Well-formed clauses are told by the spelling of their outlines, up to lines. -/
theorem Clauses.unlined_eq_of_spelled_eq : ∀ {clauses clauses' : Clauses} {isFirst : Bool},
    clauses.isWellFormed = true → clauses'.isWellFormed = true →
    (clauses.outlines isFirst).map spelled = (clauses'.outlines isFirst).map spelled →
    clauses.unlined = clauses'.unlined
  | .done, clauses', isFirst, _, _, hspelled => by
    cases clauses' with
    | done => rfl
    | otherwise | guarded => cases hspelled
  | .otherwise body, clauses', isFirst, h, h', hspelled => by
    cases clauses' with
    | done => cases hspelled
    | otherwise body' =>
      have hbody : body.outline.spelled = body'.outline.spelled := by
        simpa [Clauses.outlines, Outline.clause, labelled, spelled, spelledParts] using hspelled
      exact congrArg Clauses.otherwise (Body.unlined_eq_of_spelled_eq h h' hbody)
    | guarded condition' body' rest' =>
      -- a clause without a condition has one part less
      simp [Clauses.outlines, Outline.clause, labelled, spelled, spelledParts] at hspelled
  | .guarded condition body rest, clauses', isFirst, h, h', hspelled => by
    cases clauses' with
    | done => cases hspelled
    | otherwise body' =>
      simp [Clauses.outlines, Outline.clause, labelled, spelled, spelledParts] at hspelled
    | guarded condition' body' rest' =>
      simp only [Clauses.isWellFormed, Bool.and_eq_true] at h h'
      obtain ⟨hclause, hrest⟩ := List.cons.inj hspelled
      have hparts : condition.outline.spelled = condition'.outline.spelled ∧
          body.outline.spelled = body'.outline.spelled := by
        simpa [Outline.clause, labelled, spelled, spelledParts] using hclause
      rw [Clauses.unlined_guarded, Clauses.unlined_guarded,
        Condition.unlined_eq_of_spelled_eq h.1.1 h'.1.1 hparts.1,
        Body.unlined_eq_of_spelled_eq h.1.2 h'.1.2 hparts.2,
        Clauses.unlined_eq_of_spelled_eq h.2 h'.2 hrest]

/-- A well-formed body is told by the spelling of its outline, up to lines. -/
theorem Body.unlined_eq_of_spelled_eq : ∀ {body body' : Body},
    body.isWellFormed = true → body'.isWellFormed = true →
    body.outline.spelled = body'.outline.spelled → body.unlined = body'.unlined
  | .mk line statements, .mk line' statements', h, h', hspelled => by
    rw [Body.unlined_mk, Body.unlined_mk,
      Statement.map_unlined_eq_of_spelled_eq (Bool.and_eq_true_iff.mp h).2
        (Bool.and_eq_true_iff.mp h').2 (map_spelled_eq_of_items hspelled)]

private theorem Statement.map_unlined_eq_of_spelled_eq :
    ∀ {statements statements' : List Statement},
    Statement.areWellFormed statements = true → Statement.areWellFormed statements' = true →
    (Statement.outlines statements).map spelled = (Statement.outlines statements').map spelled →
    statements.map Statement.unlined = statements'.map Statement.unlined
  | [], statements', _, _, hspelled => by
    cases statements' with
    | nil => rfl
    | cons => cases hspelled
  | statement :: rest, statements', h, h', hspelled => by
    cases statements' with
    | nil => cases hspelled
    | cons statement' rest' =>
      obtain ⟨hstatement, hrest⟩ := Bool.and_eq_true_iff.mp h
      obtain ⟨hstatement', hrest'⟩ := Bool.and_eq_true_iff.mp h'
      obtain ⟨hfirst, hmore⟩ := List.cons.inj hspelled
      rw [List.map_cons, List.map_cons,
        Statement.unlined_eq_of_spelled_eq hstatement hstatement' hfirst,
        Statement.map_unlined_eq_of_spelled_eq hrest hrest' hmore]

end

/-! ### Outlines do not go by lines -/

private theorem Expr.outline_unlined (e : Expr) : e.unlined.outline = e.outline := by
  induction e <;> simp_all [unlined, mapLine, outline]

private theorem Condition.outline_unlined (condition : Condition) :
    condition.unlined.outline = condition.outline := by
  cases condition with
  | compare line relation left right =>
    rw [outline, ← left.outline_unlined, ← right.outline_unlined]
    rfl
  | misplaced form => rfl

mutual

/-- No line is printed in the outline of a statement. -/
theorem Statement.outline_unlined : ∀ statement : Statement,
    statement.unlined.outline = statement.outline
  | .assign line name value => congrArg (Outline.assign name ∘ some) value.outline_unlined
  | .display line value => congrArg (Outline.display ∘ some) value.outline_unlined
  | .input line name => rfl
  | .branch line clauses => congrArg Outline.branch (Clauses.outlines_unlined clauses true)
  | .whileLoop line condition body => by
    rw [Statement.outline, ← condition.outline_unlined, ← Body.outline_unlined body]
    rfl
  | .forLoop line name first last body => by
    rw [Statement.outline, ← first.outline_unlined, ← last.outline_unlined,
      ← Body.outline_unlined body]
    rfl
  | .block body => Body.outline_unlined body
  | .misplaced line form => rfl

/-- No line is printed in the outlines of clauses. -/
theorem Clauses.outlines_unlined : ∀ (clauses : Clauses) (isFirst : Bool),
    clauses.unlined.outlines isFirst = clauses.outlines isFirst
  | .done, _ => rfl
  | .otherwise body, _ => congrArg (fun outline => [Outline.clause "else" none (some outline)])
    (Body.outline_unlined body)
  | .guarded condition body rest, isFirst => by
    rw [Clauses.outlines, ← condition.outline_unlined, ← Body.outline_unlined body,
      ← Clauses.outlines_unlined rest false]
    rfl

/-- No line is printed in the outline of a body. -/
theorem Body.outline_unlined : ∀ body : Body, body.unlined.outline = body.outline
  | .mk line statements => by
    rw [Body.unlined_mk, Body.outline, Body.outline, Statement.outlines_map_unlined statements]

private theorem Statement.outlines_map_unlined : ∀ statements : List Statement,
    Statement.outlines (statements.map Statement.unlined) = Statement.outlines statements
  | [] => rfl
  | statement :: rest => by
    rw [List.map_cons, Statement.outlines, Statement.outlines,
      Statement.outline_unlined statement, Statement.outlines_map_unlined rest]

end

/-! ### Programs -/

namespace Program

variable {program program' : Program}

private theorem unlined_eq (program : Program) :
    program.unlined = ⟨program.statements.map Statement.unlined⟩ :=
  congrArg mk (Statement.mapLines_eq_map _ _)

/-- A well-formed program is told by the spelling of its outline, up to lines. -/
private theorem unlined_eq_of_spelled_eq (h : program.isWellFormed = true)
    (h' : program'.isWellFormed = true)
    (hspelled : program.outline.spelled = program'.outline.spelled) :
    program.unlined = program'.unlined := by
  rw [unlined_eq, unlined_eq,
    Statement.map_unlined_eq_of_spelled_eq h h' (map_spelled_eq_of_items hspelled)]

/-- No line is printed in the outline of a program. -/
private theorem outline_unlined (program : Program) :
    program.unlined.outline = program.outline := by
  rw [unlined_eq, outline, outline, Statement.outlines_map_unlined]

/-- **Printed trees are faithful.** A program that was read can be printed, and is unless its
outline is too deep. And what is printed tells the program: another program that was read has the
same text exactly if it is the same but for the lines that things stand on. -/
theorem outline_faithful {lines : List String} (h : ofLines lines = .ok program) :
    program.outline.write = .ok program.outline.render ∧
    (program.outline.depth ≤ Outline.printingLimit →
      Invocation.printOutline program = (.status 0, [.message program.outline.render])) ∧
    ∀ lines' program', ofLines lines' = .ok program' →
      (program'.outline.render = program.outline.render ↔ program'.unlined = program.unlined) := by
  have hprogram : program.isWellFormed = true := (exists_groups h).1
  have hlegible := isLegible_outline hprogram
  have hwrite : program.outline.write = .ok program.outline.render := by
    rw [Outline.write, if_pos (isWritable_of_isLegible _ hlegible)]
  refine ⟨hwrite, fun hdepth => ?_, fun lines' program' h' => ⟨fun hrender => ?_, fun heq => ?_⟩⟩
  · rw [Invocation.printOutline, if_neg (Nat.not_lt.mpr hdepth), hwrite]
  · have hprogram' : program'.isWellFormed = true := (exists_groups h').1
    exact unlined_eq_of_spelled_eq hprogram' hprogram
      (spelled_eq_of_render_eq (isLegible_outline hprogram') hlegible hrender)
  · rw [← outline_unlined program', heq, outline_unlined program]

/-- A loop on one line and on three, and what is printed for both. -/
theorem outline_faithful_of_layouts :
    let text := "Program\n  While\n    condition:\n      Compare op=<\n        left:\n" ++
      "          Var name=x\n        right:\n          Number value=2\n    body:\n      Block\n" ++
      "        Display\n          expr:\n            Negate\n              expr:\n" ++
      "                Var name=x"
    ∃ program program', ofLines ["while x < 2: display -x"] = .ok program ∧
      ofLines ["while x<2:", "", "\tdisplay - x"] = .ok program' ∧
      Invocation.printOutline program = (.status 0, [.message text]) ∧
      program'.unlined = program.unlined := by
  intro text
  obtain ⟨program, hprogram, hdepth, hrender⟩ := exists_eq_ok_and
    (ofLines ["while x < 2: display -x"])
    (fun program =>
      program.outline.depth ≤ Outline.printingLimit ∧ program.outline.render = text)
    (by decide +kernel)
  obtain ⟨program', hprogram', hrender'⟩ := exists_eq_ok_and
    (ofLines ["while x<2:", "", "\tdisplay - x"])
    (fun program => program.outline.render = text) (by decide +kernel)
  obtain ⟨-, hprint, htells⟩ := outline_faithful hprogram
  refine ⟨program, program', hprogram, hprogram', ?_, ?_⟩
  · rw [← hrender]
    exact hprint hdepth
  · exact (htells _ program' hprogram').mp (hrender'.trans hrender.symm)

end Program

end Offside

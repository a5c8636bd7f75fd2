import Offside.Outline.Tree
import Offside.Proofs.Outline.Legible
import Offside.Proofs.Token.Joined
import Offside.Proofs.Tree.Shape

/-!
# Words in outlines

The outline of a well-formed program is legible: its heads and labels are words, and so are the
names, operators and literals of the program.
-/

namespace Offside

/-! ### Names and literals -/

namespace Outline

/-- A text of letters, digits and underscores is a word. -/
private theorem isWord_of_isNameChar {text : String} (hne : text.toList ≠ [])
    (h : ∀ c ∈ text.toList, Kind.isNameChar c = true) : isWord text = true := by
  refine isWord_iff.mpr ⟨hne, fun c hc => ⟨?_, ?_, ?_⟩⟩ <;>
    · rintro rfl
      exact absurd (h _ hc) (by decide)

/-- Names are words. -/
private theorem isWord_of_isIdentifier {name : String} (h : Kind.IsIdentifier name) :
    isWord name = true := by
  have hname := h.1
  cases hcs : name.toList with
  | nil =>
    rw [hcs] at hname
    cases hname
  | cons c cs =>
    rw [hcs, Kind.isName, Bool.and_eq_true, List.all_eq_true] at hname
    refine isWord_of_isNameChar (hcs ▸ List.cons_ne_nil c cs) ?_
    rw [hcs]
    exact List.forall_mem_cons.mpr ⟨Kind.isNameChar_of_isAlpha hname.1, hname.2⟩

/-- A literal can be written, as a word. -/
private theorem isLegibleValue_number {value : Int} (h : 0 ≤ value)
    (hbound : value < Numeral.bound) :
    isLegibleValue (.number value) = true := by
  obtain ⟨n, rfl⟩ := Int.eq_ofNat_of_zero_le h
  have hdigits := Numeral.isNumeral_repr n
  rw [Kind.isNumeral, Bool.and_eq_true, List.all_eq_true, Bool.not_eq_true'] at hdigits
  have hlt : (n : Int).natAbs < Numeral.bound := by
    rw [Int.natAbs_natCast]
    exact Int.ofNat_lt.mp hbound
  rw [isLegibleValue, FieldValue.isWritable, decide_eq_true hlt, Bool.true_and]
  have hne : n.repr.toList ≠ [] := List.isEmpty_eq_false_iff.mp hdigits.1
  refine isWord_of_isNameChar hne fun c hc => ?_
  exact Kind.isNameChar_of_isDigit (hdigits.2 c hc)

/-- Items are legible if the outlines are. -/
private theorem areLegible_items {outlines : List Outline}
    (h : ∀ outline ∈ outlines, outline.isLegible = true) : areLegible (items outlines) = true := by
  induction outlines with
  | nil => rfl
  | cons outline outlines ih =>
    obtain ⟨houtline, houtlines⟩ := List.forall_mem_cons.mp h
    exact areLegible_cons.mpr ⟨nofun, houtline, ih houtlines⟩

end Outline

open Outline

/-! ### Trees -/

/-- The operators of the language are words. -/
private theorem Operator.isWord_symbol {op : Operator} (h : op.isKnown = true) :
    isWord op.symbol = true := by
  cases op with
  | unknown => cases h
  | add | subtract | multiply | divide => decide

private theorem Relation.isWord_symbol {relation : Relation} (h : relation.isKnown = true) :
    isWord relation.symbol = true := by
  cases relation with
  | unknown => cases h
  | lt | le | gt | ge | eq | ne => decide

/-- The outline of a well-formed expression is legible. -/
theorem Expr.isLegible_outline {e : Expr} (h : e.isWellFormed = true) :
    e.outline.isLegible = true := by
  induction e with
  | number line value =>
    obtain ⟨hle, hlt⟩ := isWellFormed_number_iff.mp h
    exact isLegible_node_singleton (by decide) (by decide) (isLegibleValue_number hle hlt) rfl
  | var line name =>
    have hname : Kind.IsIdentifier name := by
      simpa [isWellFormed, isCanonical, isLegal] using h
    exact isLegible_node_singleton (by decide) (by decide) (isWord_of_isIdentifier hname) rfl
  | negate line operand ih =>
    exact isLegible_node_nil (by decide) (areLegible_some (by decide) (ih h) rfl)
  | paren line inner ih =>
    exact isLegible_node_nil (by decide) (areLegible_some (by decide) (ih h) rfl)
  | binary line op left right ihl ihr =>
    obtain ⟨hop, hleft, hright, -⟩ := isWellFormed_binary_iff.mp h
    exact isLegible_node_singleton (by decide) (by decide) (Operator.isWord_symbol hop)
      (areLegible_some (by decide) (ihl hleft) (areLegible_some (by decide) (ihr hright) rfl))
  | misplaced form => cases h

theorem Condition.isLegible_outline {condition : Condition}
    (h : condition.isWellFormed = true) :
    condition.outline.isLegible = true := by
  cases condition with
  | compare line relation left right =>
    simp only [isWellFormed, Bool.and_eq_true] at h
    obtain ⟨⟨hrelation, hleft⟩, hright⟩ := h
    exact isLegible_node_singleton (by decide) (by decide) (Relation.isWord_symbol hrelation)
      (areLegible_some (by decide) (Expr.isLegible_outline hleft)
        (areLegible_some (by decide) (Expr.isLegible_outline hright) rfl))
  | misplaced form => cases h

mutual

/-- The outline of a well-formed statement is legible. -/
theorem Statement.isLegible_outline : ∀ statement : Statement, statement.isWellFormed = true →
    statement.outline.isLegible = true
  | .assign line name value, h => by
    simp only [Statement.isWellFormed, Bool.and_eq_true, decide_eq_true_eq] at h
    exact isLegible_node_singleton (by decide) (by decide) (isWord_of_isIdentifier h.1)
      (areLegible_some (by decide) (Expr.isLegible_outline h.2) rfl)
  | .display line value, h =>
    isLegible_node_nil (by decide) (areLegible_some (by decide) (Expr.isLegible_outline h) rfl)
  | .input line name, h =>
    isLegible_node_singleton (by decide) (by decide)
      (isWord_of_isIdentifier (of_decide_eq_true h)) rfl
  | .branch line clauses, h =>
    isLegible_node_nil (by decide)
      (areLegible_items (Clauses.isLegible_outlines clauses true (Bool.and_eq_true_iff.mp h).2))
  | .whileLoop line condition body, h => by
    obtain ⟨hcondition, hbody⟩ := Bool.and_eq_true_iff.mp h
    exact isLegible_node_nil (by decide)
      (areLegible_some (by decide) (Condition.isLegible_outline hcondition)
        (areLegible_some (by decide) (Body.isLegible_outline body hbody) rfl))
  | .forLoop line name first last body, h => by
    simp only [Statement.isWellFormed, Bool.and_eq_true, decide_eq_true_eq] at h
    obtain ⟨⟨⟨hname, hfirst⟩, hlast⟩, hbody⟩ := h
    exact isLegible_node_singleton (by decide) (by decide) (isWord_of_isIdentifier hname)
      (areLegible_some (by decide) (Expr.isLegible_outline hfirst)
        (areLegible_some (by decide) (Expr.isLegible_outline hlast)
          (areLegible_some (by decide) (Body.isLegible_outline body hbody) rfl)))

/-- The outlines of well-formed clauses are legible, wherever in a branch the clauses begin. -/
theorem Clauses.isLegible_outlines : ∀ (clauses : Clauses) (isFirst : Bool),
    clauses.isWellFormed = true → ∀ outline ∈ clauses.outlines isFirst, outline.isLegible = true
  | .done, _, _ => List.forall_mem_nil _
  | .otherwise body, _, h =>
    List.forall_mem_singleton.mpr (isLegible_node_singleton (by decide) (by decide) (by decide)
      (areLegible_some (by decide) (Body.isLegible_outline body h) rfl))
  | .guarded condition body rest, isFirst, h => by
    simp only [Clauses.isWellFormed, Bool.and_eq_true] at h
    obtain ⟨⟨hcondition, hbody⟩, hrest⟩ := h
    have hword : isWord (guardWord isFirst) = true := by
      cases isFirst <;> decide
    refine List.forall_mem_cons.mpr ⟨?_, Clauses.isLegible_outlines rest false hrest⟩
    exact isLegible_node_singleton (by decide) (by decide) hword
      (areLegible_some (by decide) (Condition.isLegible_outline hcondition)
        (areLegible_some (by decide) (Body.isLegible_outline body hbody) rfl))

/-- The outline of a well-formed body is legible. -/
theorem Body.isLegible_outline : ∀ body : Body, body.isWellFormed = true →
    body.outline.isLegible = true
  | .mk line statements, h =>
    isLegible_node_nil (by decide)
      (areLegible_items (Statement.isLegible_outlines statements (Bool.and_eq_true_iff.mp h).2))

private theorem Statement.isLegible_outlines : ∀ statements : List Statement,
    Statement.areWellFormed statements = true →
    ∀ outline ∈ Statement.outlines statements, outline.isLegible = true
  | [], _ => List.forall_mem_nil _
  | statement :: rest, h => by
    obtain ⟨hstatement, hrest⟩ := Bool.and_eq_true_iff.mp h
    exact List.forall_mem_cons.mpr
      ⟨Statement.isLegible_outline statement hstatement, Statement.isLegible_outlines rest hrest⟩

end

/-- The outline of a well-formed program is legible, so it falls apart into words again when it has
been printed. -/
theorem Program.isLegible_outline {program : Program} (h : program.isWellFormed = true) :
    program.outline.isLegible = true :=
  isLegible_node_nil (by decide) (areLegible_items (Statement.isLegible_outlines _ h))

end Offside

import Offside.Proofs.Tree.Shape

/-!
# Clauses in a row

A branch is read clause by clause, and each further clause is appended to those read so far. As
long as these are open, appending puts pieces behind pieces and keeps the shape.
-/

namespace Offside

namespace Clauses

/-- Induction along a row of clauses, whatever their bodies are. -/
@[elab_as_elim, induction_eliminator]
theorem rowInduction {motive : Clauses → Prop} (done : motive .done)
    (otherwise : ∀ body, motive (.otherwise body))
    (guarded : ∀ condition body rest, motive rest → motive (.guarded condition body rest)) :
    ∀ clauses, motive clauses
  | .done => done
  | .otherwise body => otherwise body
  | .guarded condition body rest =>
    guarded condition body rest (rowInduction done otherwise guarded rest)

variable {clauses more : Clauses}

/-- Whether there are no clauses. -/
def isDone : Clauses → Bool
  | done => true
  | _ => false

@[simp]
theorem append_done (clauses : Clauses) : clauses.append done = clauses := by
  induction clauses with
  | done => rfl
  | otherwise body => rfl
  | guarded condition body rest ih => rw [append, ih]

theorem append_assoc (front middle back : Clauses) :
    (front.append middle).append back = front.append (middle.append back) := by
  induction front with
  | done => rfl
  | otherwise body => rfl
  | guarded condition body rest ih => rw [append, append, append, ih]

/-- Open clauses are none, or begin with a guarded one. -/
private theorem isDone_or_isGuarded (h : clauses.isOpen = true) :
    clauses = done ∨ clauses.isGuarded = true := by
  cases clauses with
  | done => exact .inl rfl
  | otherwise body => cases h
  | guarded condition body rest => exact .inr rfl

/-- Appended clauses are not the first ones of their branch, unless there are none in front. -/
theorem pieces_append (h : clauses.isOpen = true) (depth : Nat) (isFirst : Bool) :
    (clauses.append more).pieces depth isFirst =
      clauses.pieces depth isFirst ++ more.pieces depth (isFirst && clauses.isDone) := by
  induction clauses generalizing isFirst with
  | done => simp [append, pieces, isDone]
  | otherwise body => cases h
  | guarded condition body rest ih =>
    have hdone : (guarded condition body rest).isDone = false := rfl
    rw [append, pieces, pieces, ih h, Bool.false_and, hdone, Bool.and_false, List.cons_append,
      List.append_assoc]

/-- Behind open clauses, further ones are well formed if they are so by themselves. -/
theorem isWellFormed_append (h : clauses.isOpen = true) :
    (clauses.append more).isWellFormed = (clauses.isWellFormed && more.isWellFormed) := by
  induction clauses with
  | done => rfl
  | otherwise body => cases h
  | guarded condition body rest ih =>
    rw [append, isWellFormed, isWellFormed, ih h]
    simp only [Bool.and_assoc]

/-- Clauses are open at their end. -/
theorem isOpen_append (h : clauses.isOpen = true) :
    (clauses.append more).isOpen = more.isOpen := by
  induction clauses with
  | done => rfl
  | otherwise body => cases h
  | guarded condition body rest ih => exact ih h

theorem isGuarded_append (h : clauses.isGuarded = true) :
    (clauses.append more).isGuarded = true := by
  cases clauses with
  | done => cases h
  | otherwise body => cases h
  | guarded condition body rest => rfl

/-! ### One more guarded clause -/

section Guarded

variable (condition : Condition) (body : Body)

/-- A guarded clause behind open ones adds its head and its body to their pieces. -/
theorem pieces_append_guarded (h : clauses.isOpen = true) (depth : Nat) :
    (clauses.append (.guarded condition body .done)).pieces depth true =
      clauses.pieces depth true ++
        ⟨depth, .guardHead clauses.isDone condition⟩ :: body.pieces (depth + 1) := by
  rw [pieces_append h, Bool.true_and, pieces, pieces, List.append_nil]

theorem isWellFormed_append_guarded (h : clauses.isOpen = true)
    (hclauses : clauses.isWellFormed = true) (hcondition : condition.isWellFormed = true)
    (hbody : body.isWellFormed = true) :
    (clauses.append (.guarded condition body .done)).isWellFormed = true := by
  rw [isWellFormed_append h, hclauses, isWellFormed, hcondition, hbody]
  rfl

theorem isOpen_append_guarded (h : clauses.isOpen = true) :
    (clauses.append (.guarded condition body .done)).isOpen = true :=
  isOpen_append h

theorem isGuarded_append_guarded (h : clauses.isOpen = true) :
    (clauses.append (.guarded condition body .done)).isGuarded = true := by
  rcases isDone_or_isGuarded h with rfl | hguarded
  · rfl
  · exact isGuarded_append hguarded

end Guarded

theorem isDone_eq_false (h : clauses.isGuarded = true) : clauses.isDone = false := by
  cases clauses with
  | done => cases h
  | otherwise body => rfl
  | guarded condition body rest => rfl

end Clauses

/-! ### Lists of statements -/

namespace Statement

/-- Statements are well formed if each of them is. -/
theorem areWellFormed_iff {statements : List Statement} :
    areWellFormed statements = true ↔ ∀ statement ∈ statements, statement.isWellFormed = true := by
  induction statements with
  | nil => simp [areWellFormed]
  | cons statement rest ih => simp [areWellFormed, ih]

private theorem piecesOf_append (depth : Nat) (front back : List Statement) :
    piecesOf depth (front ++ back) = piecesOf depth front ++ piecesOf depth back := by
  induction front with
  | nil => rfl
  | cons statement rest ih => rw [List.cons_append, piecesOf, piecesOf, ih, List.append_assoc]

/-- The pieces of statements that are listed last first. -/
theorem piecesOf_reverse_cons (depth : Nat) (statement : Statement) (before : List Statement) :
    piecesOf depth (statement :: before).reverse =
      piecesOf depth before.reverse ++ statement.pieces depth := by
  rw [List.reverse_cons, piecesOf_append, piecesOf, piecesOf, List.append_nil]

end Statement

end Offside

import Offside.Proofs.Tree.Shape
import Offside.Source.Expression

/-!
# Pending frames

What the frames of an unfinished expression stand for. The **words** of a stack of frames are
the words read for it, and completing frames keeps them. A stack is **well formed** when its
operators still wait for an operand that they can take; then whatever completes them is well
formed again.

In the other direction, `edge` gives the frames and the operand that are there when the pass has
come to the end of a given expression. They are what is pending along its right edge, and
closing them gives the expression back (`closeExpression_edge`, `closeOperators_edge`).
-/

namespace Offside

/-- An expression with all its nodes on one row. -/
def Expr.onRow (row : Nat) (e : Expr) : Expr :=
  e.mapLine fun _ => some row

namespace Frame

/-! ### The words of frames -/

/-- The words read for a stack of frames, the innermost of which comes first. -/
def words : List Frame → List Word
  | [] => []
  | .opened _ :: outer => words outer ++ [.fixed .leftParen]
  | .negate _ :: outer => words outer ++ [.fixed .subtract]
  | .binary _ op left :: outer => words outer ++ (left.words ++ op.words)

/-- Completing operators keeps the words. -/
theorem words_closeOperators (op : Operator) (frames : List Frame) (value : Expr) :
    words (closeOperators op frames value).1 ++ (closeOperators op frames value).2.words =
      words frames ++ value.words := by
  fun_induction closeOperators op frames value with
  | case1 value row pending left outer hcloses ih =>
    rw [ih, Expr.words, words]
    simp only [List.append_assoc]
  | case2 => rfl
  | case3 => rfl

private theorem words_closed (frames : List Frame) (value : Expr) :
    match closeExpression frames value with
    | (whole, none) => whole.words = words frames ++ value.words
    | (inner, some (row, outer)) =>
      words (.opened row :: outer) ++ inner.words = words frames ++ value.words := by
  fun_induction closeExpression frames value with
  | case1 value => rfl
  | case2 value row outer => rfl
  | case3 value row outer ih =>
    simpa only [Expr.words, words, List.append_assoc, List.singleton_append] using ih
  | case4 value row op left outer ih =>
    simpa only [Expr.words, words, List.append_assoc] using ih

/-- Completing an expression keeps the words. -/
theorem words_closeExpression {frames : List Frame} {value whole : Expr}
    (h : closeExpression frames value = (whole, none)) :
    whole.words = words frames ++ value.words := by
  have hwords := words_closed frames value
  rwa [h] at hwords

/-- Completing an expression up to an open parenthesis keeps the words, its own included. -/
theorem words_closeExpression_opened {frames outer : List Frame} {value inner : Expr} {row : Nat}
    (h : closeExpression frames value = (inner, some (row, outer))) :
    words (.opened row :: outer) ++ inner.words = words frames ++ value.words := by
  have hwords := words_closed frames value
  rwa [h] at hwords

/-! ### Well-formed frames -/

/-- Whether the innermost frame can take an expression for its operand. -/
def Takes : List Frame → Expr → Prop
  | .binary _ op _ :: _, e => if op.isTight then e.isFactor = true else e.isTerm = true
  | _, _ => True

/-- Whether an operator may wait inside a stack of frames: it binds more tightly than an operator
that waits right outside it. -/
def Bears : List Frame → Operator → Prop
  | .binary _ pending _ :: _, op => pending.isTight = false ∧ op.isTight = true
  | _, _ => True

/-- Whether a stack of frames is well formed. -/
def WellFormed : List Frame → Prop
  | [] => True
  | .opened _ :: outer => WellFormed outer
  | .negate _ :: outer => WellFormed outer
  | .binary _ op left :: outer =>
    op.isKnown = true ∧ left.isWellFormed = true ∧ left.endsOpen = false ∧
      (op.isTight = true → left.isTerm = true) ∧ Bears outer op ∧ WellFormed outer

/-- Closed operands: what an operator can follow without changing what comes before it. -/
structure Closed (op : Operator) (e : Expr) : Prop where
  wellFormed : e.isWellFormed = true
  closed : e.endsOpen = false
  term : op.isTight = true → e.isTerm = true

/-- What waits for an operand makes a well-formed operation with one that it takes. -/
private theorem isWellFormed_operation {line : Option Int} {op : Operator} {left right : Expr}
    (hknown : op.isKnown = true) (hleft : Closed op left) (hright : right.isWellFormed = true)
    (htakes : if op.isTight then right.isFactor = true else right.isTerm = true) :
    (Expr.binary line op left right).isWellFormed = true := by
  refine Expr.isWellFormed_binary_iff.mpr ⟨hknown, hleft.wellFormed, hright, ?_⟩
  refine Expr.isFolded_iff.mpr ⟨hleft.closed, ?_⟩
  split
  · next htight => exact ⟨hleft.term htight, by rwa [if_pos htight] at htakes⟩
  · next htight => rwa [if_neg htight] at htakes

/-- A factor completes whatever waits. -/
theorem takes_of_isFactor (frames : List Frame) {e : Expr} (h : e.isFactor = true) :
    Takes frames e := by
  unfold Takes
  split
  · split
    · exact h
    · exact Expr.isTerm_of_isFactor h
  · trivial

/-- An operation completes what waits outside its operator. -/
private theorem takes_binary {frames : List Frame} {op : Operator} (h : Bears frames op)
    (line : Option Int) (left right : Expr) : Takes frames (.binary line op left right) := by
  unfold Bears at h
  unfold Takes
  split at h
  · obtain ⟨hloose, htight⟩ := h
    simp only [hloose, Bool.false_eq_true, if_false, Expr.isTerm]
    exact htight
  · split
    · next hnot => exact (hnot _ _ _ _ rfl).elim
    · trivial

/-- An operator whose operation completes what waits outside can wait inside it. -/
theorem bears_of_takes_binary {frames : List Frame} {line : Option Int} {op : Operator}
    {left right : Expr} (h : Takes frames (.binary line op left right)) : Bears frames op := by
  unfold Takes at h
  unfold Bears
  split at h
  · split at h
    · cases h
    · next hloose => exact ⟨by simpa using hloose, h⟩
  · split
    · next hnot => exact (hnot _ _ _ _ rfl).elim
    · trivial

/-- A term completes what bears the operator behind it. -/
theorem takes_of_bears {frames : List Frame} {op : Operator} {e : Expr} (h : Bears frames op)
    (hterm : op.isTight = true → e.isTerm = true) : Takes frames e := by
  unfold Bears at h
  unfold Takes
  split at h
  · simp only [h.1, Bool.false_eq_true, if_false]
    exact hterm h.2
  · split
    · next hnot => exact (hnot _ _ _ _ rfl).elim
    · trivial

/-- What is completed for an operator is an operand that the operator can follow. -/
theorem closed_closeOperators {op : Operator} {frames : List Frame} {value : Expr}
    (hframes : WellFormed frames) (hvalue : Closed op value) (htakes : Takes frames value) :
    WellFormed (closeOperators op frames value).1 ∧
      Closed op (closeOperators op frames value).2 ∧
      Bears (closeOperators op frames value).1 op := by
  fun_induction closeOperators op frames value with
  | case1 row pending left outer value hcloses ih =>
    -- a pending operator is completed, and the operation is the operand from then on
    obtain ⟨hknown, hleft, hopen, hterm, hbears, houter⟩ := hframes
    have hbinary : (Expr.binary (some row) pending left value).isWellFormed = true :=
      isWellFormed_operation hknown ⟨hleft, hopen, hterm⟩ hvalue.wellFormed htakes
    refine ih houter ⟨hbinary, hvalue.closed, fun htight => ?_⟩ (takes_binary hbears _ _ _)
    rw [htight] at hcloses
    simpa [Expr.isTerm] using hcloses
  | case2 row pending left outer value hwaits =>
    refine ⟨hframes, hvalue, ?_⟩
    simpa [Bears] using hwaits
  | case3 frames value hnot =>
    refine ⟨hframes, hvalue, ?_⟩
    unfold Bears
    split
    · next heq => exact (hnot _ _ _ _ heq).elim
    · trivial

/-- What is completed at the end of an expression is well formed, and so is what is outside. -/
theorem wellFormed_closeExpression {frames : List Frame} {value : Expr}
    (hframes : WellFormed frames) (hvalue : value.isWellFormed = true)
    (htakes : Takes frames value) :
    (closeExpression frames value).1.isWellFormed = true ∧
      ∀ row outer, (closeExpression frames value).2 = some (row, outer) → WellFormed outer := by
  fun_induction closeExpression frames value with
  | case1 value => exact ⟨hvalue, nofun⟩
  | case2 row outer value =>
    refine ⟨hvalue, fun row' outer' h => ?_⟩
    cases h
    exact hframes
  | case3 row outer value ih => exact ih hframes hvalue (takes_of_isFactor _ rfl)
  | case4 row op left outer value ih =>
    obtain ⟨hknown, hleft, hopen, hterm, hbears, houter⟩ := hframes
    have hbinary : (Expr.binary (some row) op left value).isWellFormed = true :=
      isWellFormed_operation hknown ⟨hleft, hopen, hterm⟩ hvalue htakes
    exact ih houter hbinary (takes_binary hbears _ _ _)

/-! ### The right edge of an expression -/

/-- What is pending at the end of an expression on a row, on top of `frames`, and the operand
that ends it. -/
def edge (row : Nat) : Expr → List Frame → List Frame × Expr
  | .negate _ operand, frames => edge row operand (.negate row :: frames)
  | .binary _ op left right, frames => edge row right (.binary row op (left.onRow row) :: frames)
  | e, frames => (frames, e.onRow row)

/-- Completing what is pending at the end of an expression gives the expression. -/
theorem closeExpression_edge (row : Nat) (e : Expr) (frames : List Frame) :
    closeExpression (edge row e frames).1 (edge row e frames).2 =
      closeExpression frames (e.onRow row) := by
  induction e generalizing frames with
  | number line value => rfl
  | var line name => rfl
  | negate line operand ih => rw [edge, ih]; rfl
  | paren line inner ih => rfl
  | binary line op left right ihl ihr => rw [edge, ihr]; rfl
  | misplaced form => rfl

/-- An operator that can follow an expression completes it, and what waits outside it if that
binds tightly enough. -/
theorem closeOperators_edge (row : Nat) {op : Operator} {e : Expr} (he : e.isWellFormed = true)
    (hclosed : e.endsOpen = false) (hterm : op.isTight = true → e.isTerm = true)
    (frames : List Frame) :
    closeOperators op (edge row e frames).1 (edge row e frames).2 =
      closeOperators op frames (e.onRow row) := by
  induction e generalizing frames with
  | number line value => rfl
  | var line name => rfl
  | negate line operand ih => cases hclosed
  | paren line inner ih => rfl
  | binary line pending left right ihl ihr =>
    obtain ⟨-, -, hright, hfolded⟩ := Expr.isWellFormed_binary_iff.mp he
    have hshape := (Expr.isFolded_iff.mp hfolded).2
    -- an operator that binds more tightly than the pending one could not follow here
    have hpending : (pending.isTight || !op.isTight) = true := by
      cases htight : op.isTight with
      | true => simpa [Expr.isTerm] using hterm htight
      | false => simp
    have hrightTerm : op.isTight = true → right.isTerm = true := fun htight => by
      have hpendingTight : pending.isTight = true := hterm htight
      rw [if_pos hpendingTight] at hshape
      exact Expr.isTerm_of_isFactor hshape.2
    rw [edge, ihr hright hclosed hrightTerm, closeOperators, if_pos hpending]
    rfl
  | misplaced form => rfl

/-- An operator completes nothing of what bears it. -/
theorem closeOperators_of_bears {op : Operator} {frames : List Frame} (h : Bears frames op)
    (value : Expr) : closeOperators op frames value = (frames, value) := by
  unfold Bears at h
  fun_cases closeOperators op frames value with
  | case1 row pending left outer hcloses => simp_all
  | case2 => rfl
  | case3 => rfl

/-! ### The depth of frames -/

/-- Whether a parenthesis that comes next counts for nothing: at the beginning, or behind another
one. -/
def isDirect : List Frame → Bool
  | [] | .opened _ :: _ => true
  | _ => false

theorem depth_opened (row : Nat) (frames : List Frame) :
    depth (.opened row :: frames) = depth frames + if isDirect frames then 0 else 1 := by
  cases frames with
  | nil => rfl
  | cons frame outer => cases frame <;> rfl

theorem depth_negate (row : Nat) (frames : List Frame) :
    depth (.negate row :: frames) = depth frames + 1 :=
  rfl

end Frame

theorem LineContext.admits_iff {cx : LineContext} {frames : List Frame} :
    cx.admits frames = true ↔ Frame.depth frames ≤ cx.room :=
  decide_eq_true_iff

end Offside

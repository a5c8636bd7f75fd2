import Offside.Proofs.Failing
import Offside.Run.Statement

/-!
# Evaluation

What an expression is worth, by recursion on it (`Expr.evaluate`): the left operand first, then
the right one, then the operator, and whatever fails first is the failure of the whole. Evaluating
with pending tasks and a stack of values comes to the same, uniformly in what else is pending and
what else is on the stack (`Task.perform_visit`). So no task ever lacks a value that it takes off
the stack, and an expression leaves one value there.

The quotient of two numbers is characterised by its remainder (`IsQuotient`), and there is none
exactly when the divisor is zero.
-/

namespace Offside

/-! ### Quotients -/

/-- A **quotient rounded toward zero**: what remains is smaller than the divisor in magnitude, and
is zero or has the sign of the dividend. -/
def IsQuotient (a b q : Int) : Prop :=
  ∃ r, a = b * q + r ∧ r.natAbs < b.natAbs ∧ (r = 0 ∨ r.sign = a.sign)

private theorem isQuotient_iff {a b q : Int} : IsQuotient a b q ↔ b ≠ 0 ∧ a.tdiv b = q := by
  constructor
  · rintro ⟨r, ha, hr, hsign⟩
    have hb : b ≠ 0 := by omega
    refine ⟨hb, ?_⟩
    rcases Int.le_total 0 a with hle | hle
    · have hpos : 0 ≤ r := by
        rcases hsign with rfl | hsign
        · exact Int.le_refl 0
        · exact Int.sign_nonneg_iff.mp (hsign ▸ Int.sign_nonneg_iff.mpr hle)
      exact ((Int.tdiv_tmod_unique hle hb).mpr ⟨by omega, hpos, by omega⟩).1
    · have hneg : r ≤ 0 := by
        rcases hsign with rfl | hsign
        · exact Int.le_refl 0
        · exact Int.sign_nonpos_iff.mp (hsign ▸ Int.sign_nonpos_iff.mpr hle)
      exact ((Int.tdiv_tmod_unique' hle hb).mpr ⟨by omega, by omega, hneg⟩).1
  · rintro ⟨hb, rfl⟩
    refine ⟨a.tmod b, (Int.mul_tdiv_add_tmod a b).symm, ?_, ?_⟩
    · rw [Int.natAbs_tmod]
      exact Nat.mod_lt _ (Int.natAbs_pos.mpr hb)
    · rw [Int.sign_tmod]
      split
      · next hdvd => exact .inl (Int.tmod_eq_zero_of_dvd hdvd)
      · exact .inr rfl

namespace Operator

variable {line : Option Int} {a b : Int}

/-- The divisor is looked at before the quotient is formed, which so never breaks down. -/
theorem apply_divide :
    divide.apply line a b =
      if b = 0 then .error (.onLine .divisionByZero line) else .ok (a.tdiv b) := by
  rw [apply]
  split
  · rfl
  · next hb =>
    rw [quotient, if_neg hb]
    rfl

private theorem apply_divide_eq_ok_iff {q : Int} :
    divide.apply line a b = .ok q ↔ IsQuotient a b q := by
  rw [isQuotient_iff, apply_divide]
  split <;> simp [*]

private theorem apply_divide_eq_error_iff {failure : Failure} :
    divide.apply line a b = .error failure ↔ b = 0 ∧ failure = .onLine .divisionByZero line := by
  rw [apply_divide]
  split <;> simp [*, eq_comm]

end Operator

/-! ### Evaluation by recursion -/

namespace Expr

/-- The value of an expression, by recursion on it. -/
def evaluate (store : Store) : Expr → Except Failure Int
  | number _ value => .ok value
  | var _ name => .ok (store.get name)
  | negate _ operand => do return -(← operand.evaluate store)
  | paren _ inner => inner.evaluate store
  | binary line op left right => do
    let a ← left.evaluate store
    let b ← right.evaluate store
    op.apply line a b
  | misplaced form => .error (.broken (.notExpression form))

/-- An expression **may fail** by a node of it: by a division, by an operator that has no meaning,
or by a node that is no expression. -/
inductive MayFail : Expr → Failure → Prop
  | division (line : Option Int) (left right : Expr) :
    MayFail (.binary line .divide left right) (.onLine .divisionByZero line)
  | unknown (line : Option Int) (symbol : String) (left right : Expr) :
    MayFail (.binary line (.unknown symbol) left right) (.broken (.unknownOperator symbol))
  | misplaced (form : Form) : MayFail (.misplaced form) (.broken (.notExpression form))
  | negate {line : Option Int} {operand : Expr} {failure : Failure} :
    MayFail operand failure → MayFail (.negate line operand) failure
  | paren {line : Option Int} {inner : Expr} {failure : Failure} :
    MayFail inner failure → MayFail (.paren line inner) failure
  | left {line : Option Int} {op : Operator} {left right : Expr} {failure : Failure} :
    MayFail left failure → MayFail (.binary line op left right) failure
  | right {line : Option Int} {op : Operator} {left right : Expr} {failure : Failure} :
    MayFail right failure → MayFail (.binary line op left right) failure

/-- Whatever an evaluation fails by, a node of the expression may fail by. -/
theorem mayFail_of_evaluate {store : Store} {e : Expr} {failure : Failure}
    (h : e.evaluate store = .error failure) : e.MayFail failure := by
  induction e with
  | number line value => cases h
  | var line name => cases h
  | negate line operand ih =>
    rcases bind_eq_error_iff.mp h with h | ⟨value, -, h⟩
    · exact .negate (ih h)
    · cases h
  | paren line inner ih => exact .paren (ih h)
  | binary line op left right ihl ihr =>
    rcases bind_eq_error_iff.mp h with h | ⟨a, -, h⟩
    · exact .left (ihl h)
    · rcases bind_eq_error_iff.mp h with h | ⟨b, -, h⟩
      · exact .right (ihr h)
      · cases op with
        | divide =>
          obtain ⟨-, rfl⟩ := Operator.apply_divide_eq_error_iff.mp h
          exact .division line left right
        | unknown symbol =>
          cases h
          exact .unknown line symbol left right
        | add | subtract | multiply => cases h
  | misplaced form =>
    cases h
    exact .misplaced form

/-- No expression may fail for want of an operand. -/
private theorem not_mayFail_noOperand {e : Expr} : ¬ e.MayFail (.broken .noOperand) := by
  generalize hfailure : Failure.broken .noOperand = failure
  intro h
  induction h with
  | negate _ ih | paren _ ih | left _ ih | right _ ih => exact ih hfailure
  | division | unknown | misplaced => cases hfailure

end Expr

/-! ### Evaluation on a stack -/

/-- **Visiting an expression** puts its value on the stack and goes on with the other tasks; or it
fails as the expression does, and the other tasks do not matter. -/
theorem Task.perform_visit (store : Store) (e : Expr) (tasks : List Task) (values : List Int) :
    perform store (.visit e :: tasks) values =
      e.evaluate store >>= fun value => perform store tasks (value :: values) := by
  induction e generalizing tasks values with
  | number line value => rw [perform]; rfl
  | var line name => rw [perform]; rfl
  | negate line operand ih =>
    rw [perform, ih, Expr.evaluate]
    cases operand.evaluate store with
    | error failure => rfl
    | ok value => rw [ok_bind, perform]; rfl
  | paren line inner ih => rw [perform, ih]; rfl
  | binary line op left right ihl ihr =>
    rw [perform, ihl, Expr.evaluate]
    cases left.evaluate store with
    | error failure => rfl
    | ok a =>
      rw [ok_bind, ihr, ok_bind]
      cases right.evaluate store with
      | error failure => rfl
      | ok b =>
        rw [ok_bind, perform, ok_bind]
        cases op.apply line a b with
        | error failure => rfl
        | ok value => rfl
  | misplaced form => rw [perform]; rfl

/-- An expression alone leaves its value alone on the stack. -/
private theorem Task.perform_visit_nil (store : Store) (e : Expr) :
    perform store [.visit e] [] = (e.evaluate store).map fun value => [value] := by
  rw [perform_visit]
  cases e.evaluate store with
  | error failure => rfl
  | ok value => rw [ok_bind, perform]; rfl

theorem Expr.value_eq_evaluate (store : Store) (e : Expr) : e.value store = e.evaluate store := by
  rw [value, Task.perform_visit_nil]
  cases e.evaluate store with
  | error failure => rfl
  | ok value => rfl

/-- A comparison evaluates its left side, then its right side, and then compares. -/
theorem Condition.holds_compare (store : Store) (line : Option Int) (relation : Relation)
    (left right : Expr) :
    (compare line relation left right).holds store =
      left.evaluate store >>= fun a => right.evaluate store >>= fun b => relation.holds a b := by
  rw [holds, left.value_eq_evaluate, right.value_eq_evaluate]
  cases left.evaluate store with
  | error failure => rfl
  | ok a => cases right.evaluate store <;> rfl

/-! ### What evaluation leaves alone -/

namespace State

variable {s s' : State}

private theorem store_of_begin {limit line : Option Int} {form : Form}
    (h : (s.begin limit line form).state? = some s') : s'.store = s.store := by
  unfold begin at h
  split at h
  · cases h
    rfl
  · split at h <;> cases h <;> rfl

private theorem store_of_display {value : Int} (h : (s.display value).state? = some s') :
    s'.store = s.store := by
  unfold display at h
  split at h <;> cases h <;> rfl

end State

/-- A statement that evaluates an expression and sets no variable leaves the store as it was, also
where it fails. -/
theorem Statement.store_of_run_display {bounds : Bounds} {top line : Option Int} {room : Nat}
    {e : Expr} {s s' : State} (h : ((display line e).run bounds top room s).state? = some s') :
    s'.store = s.store := by
  cases room with
  | zero =>
    cases h
    rfl
  | succ room =>
    rw [run_succ] at h
    cases hbegin : s.begin bounds.limit (display line e).line (display line e).form with
    | unfinished =>
      rw [hbegin] at h
      cases h
    | failed failure after =>
      rw [hbegin] at h
      exact State.store_of_begin ((congrArg Outcome.state? hbegin).trans h)
    | done begun =>
      have hstore : begun.store = s.store :=
        State.store_of_begin (congrArg Outcome.state? hbegin)
      rw [← hstore]
      rw [hbegin, Outcome.andThen, act] at h
      cases hvalue : e.value begun.store with
      | error failure =>
        rw [hvalue] at h
        cases h
        rfl
      | ok value =>
        simp only [hvalue, State.given] at h
        exact State.store_of_display h

/-! ### Evaluation -/

/-- **Evaluation on a stack is evaluation by recursion**, for expressions of any shape: both have
the same value or the same first failure. Evaluation begins and ends with an expression for its
one task, leaves its value alone on the stack, and never lacks an operand. A division has the
quotient rounded toward zero for its value, and fails on the operator's line exactly when its
divisor is zero. The store stays as it was. -/
theorem Expr.value_by_recursion (store : Store) (e : Expr) :
    e.value store = e.evaluate store ∧
    Task.perform store [.visit e] [] = (e.evaluate store).map (fun value => [value]) ∧
    Task.perform store [.visit e] [] ≠ .error (.broken .noOperand) ∧
    (∀ line left right a b, left.evaluate store = .ok a → right.evaluate store = .ok b →
      (∀ q, (binary line .divide left right).value store = .ok q ↔ IsQuotient a b q) ∧
      ((binary line .divide left right).value store = .error (.onLine .divisionByZero line) ↔
        b = 0)) ∧
    ∀ bounds top room line (s s' : State),
      ((Statement.display line e).run bounds top room s).state? = some s' → s'.store = s.store := by
  refine ⟨value_eq_evaluate store e, Task.perform_visit_nil store e, ?_, ?_, ?_⟩
  · rw [Task.perform_visit_nil]
    intro h
    cases hvalue : e.evaluate store with
    | error failure =>
      rw [hvalue] at h
      cases h
      exact not_mayFail_noOperand (mayFail_of_evaluate hvalue)
    | ok value =>
      rw [hvalue] at h
      cases h
  · intro line left right a b hleft hright
    have hvalue :
        (binary line .divide left right).value store = Operator.divide.apply line a b := by
      rw [value_eq_evaluate, evaluate, hleft, ok_bind, hright, ok_bind]
    rw [hvalue]
    exact ⟨fun q => Operator.apply_divide_eq_ok_iff,
      Operator.apply_divide_eq_error_iff.trans (and_iff_left rfl)⟩
  · intro bounds top room line s s' h
    exact Statement.store_of_run_display h

/-- Seven divided by minus two, and by zero; the store after writing a number. -/
theorem Expr.value_of_divided_seven :
    (binary (some 3) .divide (number (some 3) 7)
      (negate (some 3) (number (some 3) 2))).value .empty = .ok (-3) ∧
    (binary (some 3) .divide (number (some 3) 7) (var (some 3) "x")).value .empty =
      .error (.onLine .divisionByZero (some 3)) ∧
    ∃ s', ((Statement.display (some 3) (number (some 3) 7)).run ⟨some 1, 0⟩ (some 3) 1
      (.initial .empty "")).state? = some s' ∧ s'.store = .empty := by
  obtain ⟨-, -, -, hdivision, hstore⟩ := value_by_recursion .empty (number (some 3) 7)
  refine ⟨?_, ?_, ?_⟩
  · refine ((hdivision (some 3) (number (some 3) 7) (negate (some 3) (number (some 3) 2)) 7 (-2) rfl
      rfl).1 (-3)).mpr ⟨1, by decide, by decide, .inr rfl⟩
  · exact ((hdivision (some 3) (number (some 3) 7) (var (some 3) "x") 7 0 rfl rfl).2).mpr rfl
  · obtain ⟨s', hs'⟩ := Option.isSome_iff_exists.mp
      (show ((Statement.display (some 3) (number (some 3) 7)).run ⟨some 1, 0⟩ (some 3) 1
        (.initial .empty "")).state?.isSome by decide +kernel)
    exact ⟨s', hs', hstore _ _ _ _ _ _ hs'⟩

end Offside

import Offside.Proofs.Run.Evaluation
import Offside.Proofs.Run.Law
import Offside.Proofs.Source.Program

/-!
# The faults of programs that are read

A tree may be run that no text reads as, and such a run may break down at a node that has no
meaning. A program that is read has no such node: it is well formed, so its expressions fail by
divisions alone, its conditions compare, and its statements are statements. What its runs may then
come to, apart from an end, is listed by `Failure.IsForeseen`: faults of the program or of its
input, the limits of the language, and numbers that are too long to be read or written.
-/

namespace Offside

/-- The failures that are **foreseen** in a run with the given limit. -/
inductive Failure.IsForeseen (limit : Option Int) : Failure → Prop
  | division (line : Option Int) : IsForeseen limit (.onLine .divisionByZero line)
  | noInput (name : String) (line : Option Int) : IsForeseen limit (.onLine (.noInput name) line)
  | illegalInput (text name : String) (line : Option Int) :
    IsForeseen limit (.onLine (.illegalInput text name) line)
  | stepLimit (line : Option Int) :
    limit.isSome = true → IsForeseen limit (.onLine .stepLimit line)
  | nesting (line : Option Int) : IsForeseen limit (.onLine .nestedTooDeeplyToRun line)
  | numeral (digits : Nat) :
    digitLimit < digits → IsForeseen limit (.broken (.numeralTooLong digits))
  | value : IsForeseen limit (.broken .valueTooLong)

open Failure (IsForeseen)

variable {limit : Option Int} {store : Store} {failure : Failure} {s : State}

/-! ### Expressions and conditions -/

/-- A canonical expression may fail by a division only. -/
theorem Expr.MayFail.exists_division {e : Expr} (h : e.MayFail failure)
    (he : e.isCanonical = true) : ∃ line, failure = .onLine .divisionByZero line := by
  induction h with
  | division line left right => exact ⟨line, rfl⟩
  | unknown | misplaced => cases he
  | negate _ ih | paren _ ih => exact ih he
  | left _ ih =>
    simp only [isCanonical, Bool.and_eq_true] at he
    exact ih he.1.1.2
  | right _ ih =>
    simp only [isCanonical, Bool.and_eq_true] at he
    exact ih he.1.2

/-- A well-formed expression fails by a division, or not at all. -/
private theorem Expr.isForeseen_of_evaluate {e : Expr} (he : e.isWellFormed = true)
    (h : e.evaluate store = .error failure) : failure.IsForeseen limit := by
  obtain ⟨line, rfl⟩ := (mayFail_of_evaluate h).exists_division (Bool.and_eq_true_iff.mp he).1
  exact .division line

/-- The relations of the language do not fail. -/
private theorem Relation.holds_ne_error {relation : Relation} (h : relation.isKnown = true)
    {a b : Int} :
    relation.holds a b ≠ .error failure := by
  cases relation with
  | unknown symbol => cases h
  | lt | le | gt | ge | eq | ne => nofun

private theorem Condition.isForeseen_of_holds {condition : Condition}
    (hcondition : condition.isWellFormed = true) (h : condition.holds store = .error failure) :
    failure.IsForeseen limit := by
  cases condition with
  | misplaced form => cases hcondition
  | compare line relation left right =>
    simp only [isWellFormed, Bool.and_eq_true] at hcondition
    obtain ⟨⟨hknown, hleft⟩, hright⟩ := hcondition
    rw [holds_compare] at h
    rcases bind_eq_error_iff.mp h with h | ⟨a, -, h⟩
    · exact Expr.isForeseen_of_evaluate hleft h
    · rcases bind_eq_error_iff.mp h with h | ⟨b, -, h⟩
      · exact Expr.isForeseen_of_evaluate hright h
      · exact absurd h (Relation.holds_ne_error hknown)

/-! ### What a statement does itself -/

namespace State

variable {s' : State} {line : Option Int}

/-- A statement fails to begin only beyond the limit on statements. -/
private theorem isForeseen_of_begin {form : Form}
    (h : s.begin limit line form = .failed failure s') :
    failure.IsForeseen limit := by
  unfold begin at h
  split at h
  · cases h
  · split at h
    · cases h
    · cases h
      exact .stepLimit line rfl

/-- A value fails to be displayed only by its digits. -/
private theorem isForeseen_of_display {value : Int} (h : s.display value = .failed failure s') :
    failure.IsForeseen limit := by
  unfold display at h
  split at h
  · next hwrite =>
    cases h
    unfold Numeral.write at hwrite
    split at hwrite <;> cases hwrite
    exact .value
  · cases h

/-- Asking fails only by what is typed. -/
private theorem isForeseen_of_ask {name : String} (h : s.ask line name = .failed failure s') :
    failure.IsForeseen limit := by
  unfold ask at h
  simp only at h
  split at h
  · cases h
    exact .noInput name line
  · split at h
    · cases h
      exact .illegalInput _ name line
    · next digits _ =>
      split at h
      · next hread =>
        cases h
        unfold Numeral.read at hread
        split at hread
        · cases hread
        · next hlength =>
          cases hread
          exact .numeral digits.length (Nat.not_le.mp hlength)
      · cases h

end State

/-! ### Runs -/

/-- What a run has failed by, if it has failed. -/
def Outcome.failure? : Outcome → Option Failure
  | failed failure _ => some failure
  | done _ | unfinished => none

theorem Outcome.failure?_eq_some_iff {outcome : Outcome} :
    outcome.failure? = some failure ↔ ∃ s, outcome = .failed failure s := by
  cases outcome <;> simp [failure?]

/-- The law that all failures are foreseen. -/
def Law.foreseen (limit : Option Int) : Law :=
  fun _ outcome _ => ∀ failure, outcome.failure? = some failure → failure.IsForeseen limit

/-- That failures are foreseen is a law of runs that are put together. -/
private theorem Law.isComposable_foreseen (limit : Option Int) : (foreseen limit).IsComposable where
  idle _ _ h := by cases h
  andThen _ hsecond := hsecond

/-- What a well-formed node fails by of itself is foreseen. -/
private theorem Statement.isForeseen_of_does {node : Statement} (hnode : node.isWellFormed = true)
    {outcome : Outcome} (hdoes : node.Does s outcome) :
    Law.foreseen limit s outcome [] := by
  intro failure hfailure
  obtain ⟨s', rfl⟩ := Outcome.failure?_eq_some_iff.mp hfailure
  generalize houtcome : Outcome.failed failure s' = outcome at hdoes
  cases hdoes with
  | value he hvalue =>
    cases houtcome
    rw [Expr.value_eq_evaluate] at hvalue
    exact Expr.isForeseen_of_evaluate (isWellFormed_of_mem_exprs hnode he) hvalue
  | holds hcondition hholds =>
    cases houtcome
    exact Condition.isForeseen_of_holds (isWellFormed_of_mem_conditions hnode hcondition) hholds
  | put => cases houtcome
  | display => exact State.isForeseen_of_display houtcome.symm
  | ask => exact State.isForeseen_of_ask houtcome.symm
  | misplaced hform =>
    subst hform
    cases hnode

/-- A well-formed node keeps the law that all failures are foreseen. -/
private theorem Statement.keeps_foreseen {fuel : Nat} {body : Body → State → Outcome}
    {moments : Body → State → List Moment} {node : Statement} (hnode : node.isWellFormed = true)
    (hbodies : ∀ inner ∈ node.bodies, ∀ s,
      Law.foreseen limit s (body inner s) (moments inner s)) :
    node.Keeps (Law.foreseen limit) fuel body moments := by
  refine (Law.isComposable_foreseen limit).keeps ?_ (isForeseen_of_does hnode) hbodies
  intro s failure hunfinished
  cases hunfinished

/-- **Runs of well-formed programs** fail by foreseen failures only. -/
theorem Program.isForeseen_of_run {program : Program} (h : program.isWellFormed = true)
    {bounds : Bounds} (hfailed : (program.run bounds s).failure? = some failure) :
    failure.IsForeseen bounds.limit := by
  refine Program.run_law (Law.isComposable_foreseen bounds.limit) ?_ ?_ ?_ s failure hfailed
  · intro top s failure hdeep
    cases hdeep
    exact .nesting top
  · intro node _ s failure hbegin
    obtain ⟨s', hs'⟩ := Outcome.failure?_eq_some_iff.mp hbegin
    exact State.isForeseen_of_begin hs'
  · intro node hnode top room hbodies
    exact Statement.keeps_foreseen (isWellFormed_of_mem_nodes h hnode) hbodies

/-- **Programs that are read do not go wrong.** A run of a program that is read may fail by a
division by zero, by its input, by the limit on statements if there is one, or by its nesting; and
it breaks down only over a number of too many digits that is read or written. -/
theorem Program.failures_of_ofLines {lines : List String} {program : Program}
    (h : ofLines lines = .ok program) (bounds : Bounds) (s : State) :
    (∀ d, (program.run bounds s).failure? = some (.diagnosed d) →
      (d.cause.family = .arithmetic ∧ d.cause.message = "division by zero") ∨
      d.cause.family = .inputFormat ∨
      (d.cause.family = .runtime ∧
        ((bounds.limit.isSome = true ∧
            d.cause.message = "Step limit exceeded (possible infinite loop)") ∨
          d.cause.message = "program nested too deeply to execute"))) ∧
    ∀ b, (program.run bounds s).failure? = some (.broken b) →
      (∃ digits, digitLimit < digits ∧ b = .numeralTooLong digits) ∨ b = .valueTooLong := by
  have hprogram : program.isWellFormed = true := (exists_groups h).1
  constructor
  · intro d hfailed
    cases isForeseen_of_run hprogram hfailed with
    | division line => exact .inl ⟨rfl, rfl⟩
    | noInput name line => exact .inr (.inl rfl)
    | illegalInput text name line => exact .inr (.inl rfl)
    | stepLimit line hlimit => exact .inr (.inr ⟨rfl, .inl ⟨hlimit, rfl⟩⟩)
    | nesting line => exact .inr (.inr ⟨rfl, .inr rfl⟩)
  · intro b hfailed
    cases isForeseen_of_run hprogram hfailed with
    | numeral digits hdigits => exact .inl ⟨digits, hdigits, rfl⟩
    | value => exact .inr rfl

/-- The lines square their input thirteen times and divide by it. From zero they fail by the
division, and from ten they break down over a value of 8193 digits. -/
theorem Program.failures_of_squares :
    ∃ program, ofLines ["input x", "for i in 1 .. 13: let x := x * x", "display x - 1 / x"] =
        .ok program ∧
      (∃ d, (program.run ⟨none, 0⟩ (.initial .empty "0\n")).failure? = some (.diagnosed d) ∧
        ((d.cause.family = .arithmetic ∧ d.cause.message = "division by zero") ∨
          d.cause.family = .inputFormat ∨
          (d.cause.family = .runtime ∧
            ((false = true ∧
                d.cause.message = "Step limit exceeded (possible infinite loop)") ∨
              d.cause.message = "program nested too deeply to execute")))) ∧
      ∃ b, (program.run ⟨none, 0⟩ (.initial .empty "10\n")).failure? = some (.broken b) ∧
        ((∃ digits, digitLimit < digits ∧ b = .numeralTooLong digits) ∨ b = .valueTooLong) := by
  obtain ⟨program, hprogram, hzero, hten⟩ :=
    exists_eq_ok_and (ofLines ["input x", "for i in 1 .. 13: let x := x * x", "display x - 1 / x"])
      (fun program =>
        (program.run ⟨none, 0⟩ (.initial .empty "0\n")).failure? =
          some (.onLine .divisionByZero (some 2)) ∧
        (program.run ⟨none, 0⟩ (.initial .empty "10\n")).failure? =
          some (.broken .valueTooLong))
      (by decide +kernel)
  exact ⟨program, hprogram,
    ⟨_, hzero, (failures_of_ofLines hprogram ⟨none, 0⟩ _).1 _ hzero⟩,
    ⟨_, hten, (failures_of_ofLines hprogram ⟨none, 0⟩ _).2 _ hten⟩⟩

end Offside

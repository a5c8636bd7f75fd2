import Offside.Proofs.Relabeling.Basic
import Offside.Proofs.Run.Evaluation

/-!
# Running commutes with relabelings

A run goes by the lines of a program nowhere, and by its names only through the variables that they
name. So a relabeling that **keeps variables** changes what is quoted in the failures and the log of
a run, and nothing else (`Program.run_relabel`).
-/

namespace Offside

/-- A relabeling **keeps variables** if a changed name is another spelling of the same variable. -/
def Relabeling.KeepsVariables (r : Relabeling) : Prop :=
  ∀ name, Text.lowercase (r.name name) = Text.lowercase name

section Actions

variable (r : Relabeling)

/-- An event with the line or the name in it changed. -/
def Event.relabel : Event → Event
  | started line form => started (line.map r.line) form
  | asked name => asked (r.name name)
  | displayed value => displayed value

/-- A state with its log changed. -/
def State.relabel (s : State) : State :=
  { s with log := s.log.map (Event.relabel r) }

/-- An outcome with its failure and its state changed. -/
def Outcome.relabel : Outcome → Outcome
  | done s => done (s.relabel r)
  | failed failure s => failed (failure.relabel r) (s.relabel r)
  | unfinished => unfinished

end Actions

variable {r : Relabeling} {s : State}

/-! ### What is seen of a changed state -/

/-- A changed log writes the same, if no prompts are written or no names are changed. -/
theorem State.output_relabel {prompts : Bool} (h : prompts = false ∨ r.name = id) (s : State) :
    (s.relabel r).output prompts = s.output prompts := by
  rw [output, output, events, events, relabel, ← List.map_reverse, List.map_map]
  congr 2
  funext event
  cases event with
  | asked name =>
    rcases h with rfl | hname
    · rfl
    · change (Event.asked (r.name name)).output prompts = _
      rw [hname, id]
  | started | displayed => rfl

/-- The trace goes by the lines of a log. -/
theorem State.trace_relabel (hline : r.line = id) (s : State) : (s.relabel r).trace = s.trace := by
  rw [trace, trace, events, events, relabel, ← List.map_reverse, List.filterMap_map]
  congr 1
  funext event
  cases event with
  | started line form =>
    change (Event.started (line.map r.line) form).trace? = (Event.started line form).trace?
    rw [hline, Option.map_id, id]
  | asked | displayed => rfl

/-- Outcomes **agree** in their failures and in their states, as far as the given relations go: both
are done, both have failed, or both are unfinished. -/
inductive Outcome.Agrees (inFailures : Failure → Failure → Prop) (inStates : State → State → Prop) :
    Outcome → Outcome → Prop
  | done {s s' : State} : inStates s s' → Agrees inFailures inStates (.done s) (.done s')
  | failed {failure failure' : Failure} {s s' : State} :
    inFailures failure failure' → inStates s s' →
      Agrees inFailures inStates (.failed failure s) (.failed failure' s')
  | unfinished : Agrees inFailures inStates .unfinished .unfinished

/-- Outcomes that are relabeled to the same one agree in what a relabeling leaves. -/
theorem Outcome.agrees_of_relabel_eq {inFailures : Failure → Failure → Prop}
    {inStates : State → State → Prop}
    (hfailures : ∀ {failure failure'}, Failure.relabel r failure = failure'.relabel r →
      inFailures failure failure')
    (hstates : ∀ {s s' : State}, s.relabel r = s'.relabel r → inStates s s')
    {outcome outcome' : Outcome} (h : outcome.relabel r = outcome'.relabel r) :
    outcome.Agrees inFailures inStates outcome' := by
  cases outcome with
  | done s =>
    cases outcome' with
    | done s' => exact .done (hstates (Outcome.done.inj h))
    | failed | unfinished => cases h
  | failed failure s =>
    cases outcome' with
    | failed failure' s' =>
      obtain ⟨hfailure, hs⟩ := Outcome.failed.inj h
      exact .failed (hfailures hfailure) (hstates hs)
    | done | unfinished => cases h
  | unfinished =>
    cases outcome' with
    | unfinished => exact .unfinished
    | done | failed => cases h

/-! ### Evaluation -/

variable (hr : r.KeepsVariables)

include hr

/-- A variable is the same under its relabeled name. -/
private theorem Store.get_relabel (store : Store) (name : String) :
    store.get (r.name name) = store.get name := by
  rw [get, get, get?, get?, hr]

private theorem State.put_relabel (s : State) (name : String) (value : Int) :
    (s.relabel r).put (r.name name) value = (s.put name value).relabel r := by
  have hstore : s.store.put (r.name name) value = s.store.put name value := by
    simp only [Store.put, hr name]
  rw [put, put, relabel, relabel, hstore]

/-- A relabeled expression has the same value, and fails with the relabeled failure. -/
private theorem Expr.evaluate_relabel (store : Store) (e : Expr) :
    (e.relabel r).evaluate store = r.result id (e.evaluate store) := by
  induction e with
  | number line value => rfl
  | var line name => exact congrArg Except.ok (store.get_relabel hr name)
  | negate line operand ih =>
    exact (congrArg (· >>= _) ih).trans (r.bind_result fun _ _ => rfl)
  | paren line inner ih => exact ih
  | binary line op left right ihl ihr =>
    refine (congrArg (· >>= _) ihl).trans (r.bind_result fun a _ => ?_)
    refine (congrArg (· >>= _) ihr).trans (r.bind_result fun b _ => ?_)
    cases op with
    | add | subtract | multiply | unknown symbol => rfl
    | divide =>
      change Operator.divide.apply (line.map r.line) a b =
        r.result id (Operator.divide.apply line a b)
      rw [Operator.apply_divide, Operator.apply_divide]
      split <;> rfl
  | misplaced form => rfl

private theorem Expr.value_relabel (store : Store) (e : Expr) :
    (e.relabel r).value store = r.result id (e.value store) := by
  rw [value_eq_evaluate, value_eq_evaluate, evaluate_relabel hr]

/-- A relabeled condition holds if the condition does. -/
private theorem Condition.holds_relabel (store : Store) (condition : Condition) :
    (condition.relabel r).holds store = r.result id (condition.holds store) := by
  cases condition with
  | misplaced form => rfl
  | compare line relation left right =>
    change (compare (line.map r.line) relation (left.relabel r) (right.relabel r)).holds store = _
    rw [holds_compare, holds_compare, Expr.evaluate_relabel hr, Expr.evaluate_relabel hr]
    refine r.bind_result fun a _ => r.bind_result fun b _ => ?_
    cases relation <;> rfl

omit hr

/-! ### What statements do themselves -/

/-- A statement begins in the relabeled state as it begins in the state. -/
private theorem State.begin_relabel (limit line : Option Int) (form : Form) (s : State) :
    (s.relabel r).begin limit (line.map r.line) form = (s.begin limit line form).relabel r := by
  cases limit with
  | none => rfl
  | some bound =>
    change (if (s.steps : Int) + 1 ≤ bound then _ else _) =
      (if (s.steps : Int) + 1 ≤ bound then _ else _ : Outcome).relabel r
    split <;> rfl

private theorem State.display_relabel (s : State) (value : Int) :
    (s.relabel r).display value = (s.display value).relabel r := by
  unfold display
  split <;> rfl

include hr in
/-- A line of input is asked for, taken and refused alike. -/
private theorem State.ask_relabel (line : Option Int) (name : String) (s : State) :
    (s.relabel r).ask (line.map r.line) (r.name name) = (s.ask line name).relabel r := by
  unfold ask
  dsimp only [relabel]
  split
  · rfl
  · split
    · rfl
    · split
      · rfl
      · exact congrArg Outcome.done (put_relabel hr
          { s with input := (Text.takeLine s.input).2, log := .asked name :: s.log } name _)

/-! ### Runs -/

namespace Relabeling

/-- Parts of runs **match** if what the second makes of a changed state is what the first makes of
the state, changed. -/
def Matches (r : Relabeling) (first second : State → Outcome) : Prop :=
  ∀ s, second (s.relabel r) = (first s).relabel r

/-- Both go on with the same result of a computation. -/
private theorem given_result {α : Type} {result : Except Failure α} {next next' : α → Outcome}
    (h : ∀ value, next' value = (next value).relabel r) (s : State) :
    (s.relabel r).given (r.result id result) next' = (s.given result next).relabel r := by
  cases result with
  | error failure => rfl
  | ok value => exact h value

namespace Matches

variable {first second next next' : State → Outcome} {α β : Type}

/-- Parts that match may be put one behind the other. -/
theorem andThen (hfirst : r.Matches first second) (hnext : r.Matches next next') :
    r.Matches (fun s => (first s).andThen next) (fun s => (second s).andThen next') := by
  intro s
  simp only [hfirst s]
  cases first s with
  | done s' => exact hnext s'
  | failed | unfinished => rfl

theorem sequence {run : α → State → Outcome} {run' : β → State → Outcome} {f : α → β}
    (h : ∀ item, r.Matches (run item) (run' (f item))) (items : List α) :
    r.Matches (Outcome.sequence run items) (Outcome.sequence run' (items.map f)) := by
  induction items with
  | nil => exact fun s => rfl
  | cons item items ih =>
    intro s
    rw [List.map_cons, Outcome.sequence_cons, Outcome.sequence_cons]
    exact (h item).andThen ih s

/-- Repetitions match round by round, where their tests agree. -/
theorem repeatWhile {test test' : State → Except Failure Bool}
    (htest : ∀ s, test' (s.relabel r) = r.result id (test s)) (hbody : r.Matches first second)
    (fuel : Nat) :
    r.Matches (Outcome.repeatWhile test first fuel) (Outcome.repeatWhile test' second fuel) := by
  induction fuel with
  | zero => exact fun s => rfl
  | succ fuel ih =>
    intro s
    rw [Outcome.repeatWhile_succ, Outcome.repeatWhile_succ, htest]
    refine given_result (fun holds => ?_) s
    cases holds with
    | false => rfl
    | true => exact hbody.andThen ih s

theorem countUp {body body' : Int → State → Outcome} (h : ∀ i, r.Matches (body i) (body' i))
    (rounds : Nat) (i : Int) :
    r.Matches (Outcome.countUp body rounds i) (Outcome.countUp body' rounds i) := by
  induction rounds generalizing i with
  | zero => exact fun s => rfl
  | succ rounds ih =>
    intro s
    rw [Outcome.countUp_succ, Outcome.countUp_succ]
    exact (h i).andThen (ih (i + 1)) s

end Matches

end Relabeling

open Relabeling (Matches given_result)

include hr

private theorem Clauses.run_relabel {body body' : Body → State → Outcome}
    (hbody : ∀ inner : Body, r.Matches (body inner) (body' (inner.relabel r)))
    (clauses : Clauses) : r.Matches (clauses.run body) ((clauses.relabel r).run body') := by
  induction clauses with
  | done => exact fun s => rfl
  | otherwise block => exact hbody block
  | guarded condition block rest ih =>
    intro s
    change (s.relabel r).given ((condition.relabel r).holds s.store) _ = _
    rw [condition.holds_relabel hr]
    refine given_result (fun holds => ?_) s
    cases holds with
    | false => exact ih s
    | true => exact hbody block s

/-- What a statement does once it has begun, it does relabeled. -/
private theorem Statement.act_relabel {fuel : Nat} {body body' : Body → State → Outcome}
    (hbody : ∀ inner : Body, r.Matches (body inner) (body' (inner.relabel r)))
    (statement : Statement) :
    r.Matches (statement.act fuel body) ((statement.relabel r).act fuel body') := by
  intro s
  cases statement with
  | assign line name e =>
    change (s.relabel r).given ((e.relabel r).value s.store) _ = _
    rw [e.value_relabel hr]
    exact given_result (fun value => congrArg Outcome.done (s.put_relabel hr name value)) s
  | display line e =>
    change (s.relabel r).given ((e.relabel r).value s.store) _ = _
    rw [e.value_relabel hr]
    exact given_result (fun value => s.display_relabel value) s
  | input line name => exact State.ask_relabel hr line name s
  | branch line clauses => exact Clauses.run_relabel hr hbody clauses s
  | whileLoop line condition inner =>
    exact Matches.repeatWhile (fun s => condition.holds_relabel hr s.store) (hbody inner) fuel s
  | forLoop line name first last inner =>
    change (s.relabel r).given ((first.relabel r).value s.store) _ = _
    rw [first.value_relabel hr]
    refine given_result (fun lower => ?_) s
    change (s.relabel r).given ((last.relabel r).value s.store) _ = _
    rw [last.value_relabel hr]
    refine given_result (fun upper => ?_) s
    refine Matches.countUp (fun i s => ?_) _ lower s
    rw [s.put_relabel hr]
    exact hbody inner (s.put name i)
  | block inner => exact hbody inner s
  | misplaced line form => rfl

/-- A relabeled statement runs as the statement does, relabeled. -/
private theorem Statement.run_relabel (bounds : Bounds) (top : Option Int) (room : Nat)
    (statement : Statement) :
    r.Matches (statement.run bounds top room)
      ((statement.relabel r).run bounds (top.map r.line) room) := by
  induction room generalizing statement with
  | zero => exact fun s => rfl
  | succ room ih =>
    have hbody : ∀ inner : Body, r.Matches (inner.run bounds top room)
        ((inner.relabel r).run bounds (top.map r.line) room) := by
      intro inner
      rw [Body.run, Body.run, Body.statements_relabel]
      exact .sequence ih inner.statements
    intro s
    rw [run_succ, run_succ, line_relabel, form_relabel]
    exact Matches.andThen (State.begin_relabel bounds.limit statement.line statement.form)
      (act_relabel hr hbody statement) s

/-- **Running a program** commutes with a relabeling that keeps variables. -/
theorem Program.run_relabel (bounds : Bounds) (program : Program) :
    r.Matches (program.run bounds) ((program.relabel r).run bounds) := by
  intro s
  obtain ⟨statements⟩ := program
  rw [relabel_mk, run, run]
  have hstatement : ∀ statement : Statement,
      r.Matches (statement.run bounds statement.line runningLimit)
        ((statement.relabel r).run bounds (statement.relabel r).line runningLimit) := by
    intro statement
    rw [Statement.line_relabel]
    exact statement.run_relabel hr bounds statement.line runningLimit
  refine Matches.sequence ?_ statements { s with steps := 0 }
  exact hstatement

end Offside

import Offside.Proofs.Run.Moments
import Offside.Proofs.Tree.Nodes

/-!
# Runs side by side

The same program may be run with different bounds. A **comparison** follows two such runs part by
part, where the parts begin in states that differ in the count of statements alone: it says for
which counts it is made, and what it says of the outcomes of both parts and of the moments of the
first. A comparison that is composable, and that is true of what every node does by itself, is true
of the two runs (`Program.run_relates`). So the way that statements are put together is gone through
here once, and not again for each claim about runs.

What a node does by itself, apart from running bodies, is `Statement.Does`; it does not go by the
bounds.
-/

namespace Offside

/-! ### The count of statements -/

/-- The outcome with another count. -/
def Outcome.counted (k : Nat) : Outcome → Outcome
  | done s => done { s with steps := k }
  | failed failure s => failed failure { s with steps := k }
  | unfinished => unfinished

namespace State

/-- Writing does not go by the count. -/
private theorem display_counted (s : State) (value : Int) (k : Nat) :
    ({ s with steps := k }).display value = (s.display value).counted k := by
  unfold display
  split <;> rfl

/-- Neither does asking. -/
private theorem ask_counted (s : State) (line : Option Int) (name : String) (k : Nat) :
    ({ s with steps := k }).ask line name = (s.ask line name).counted k := by
  unfold ask
  dsimp only
  split
  · rfl
  · split
    · rfl
    · split <;> rfl

end State

/-! ### What a node does -/

/-- What a node may come to **by itself**, when it is not the bodies in it that are run. -/
inductive Statement.Does (node : Statement) (s : State) : Outcome → Prop
  | value {e : Expr} {failure : Failure} :
    e ∈ node.exprs → e.value s.store = .error failure → node.Does s (.failed failure s)
  | holds {condition : Condition} {failure : Failure} :
    condition ∈ node.conditions → condition.holds s.store = .error failure →
      node.Does s (.failed failure s)
  | put {name : String} (value : Int) :
    name ∈ node.target? → node.Does s (.done (s.put name value))
  | display {line : Option Int} {e : Expr} (value : Int) :
    node = .display line e → node.Does s (s.display value)
  | ask {line : Option Int} {name : String} :
    node = .input line name → node.Does s (s.ask line name)
  | misplaced {line : Option Int} {form : Form} :
    node = .misplaced line form → node.Does s (.failed (.broken (.notStatement form)) s)

/-- What a node does by itself leaves the count as it is. -/
theorem Statement.Does.counted_eq {node : Statement} {s : State} {outcome : Outcome}
    (h : node.Does s outcome) : outcome.counted s.steps = outcome := by
  cases h with
  | value | holds | put | misplaced => rfl
  | display value => exact (s.display_counted value s.steps).symm
  | ask => exact (s.ask_counted _ _ s.steps).symm

theorem Statement.Does.steps_eq {node : Statement} {s s' : State} (h : node.Does s (.done s')) :
    s'.steps = s.steps := by
  have hdone : Outcome.done { s' with steps := s.steps } = .done s' := h.counted_eq
  exact (congrArg State.steps (Outcome.done.inj hdone)).symm

/-- What a node does by itself leaves a state, in which one more event may be logged that is not
the beginning of a statement. -/
theorem Statement.Does.exists_state {node : Statement} {s : State} {outcome : Outcome}
    (h : node.Does s outcome) :
    ∃ s', outcome.state? = some s' ∧
      (s'.log = s.log ∨ ∃ event, event.trace? = none ∧ s'.log = event :: s.log) := by
  cases h with
  | value | holds | put | misplaced => exact ⟨_, rfl, .inl rfl⟩
  | display value =>
    unfold State.display
    split
    · exact ⟨s, rfl, .inl rfl⟩
    · exact ⟨_, rfl, .inr ⟨.displayed value, rfl, rfl⟩⟩
  | @ask line name =>
    have hasked : ∀ s' : State, s'.log = .asked name :: s.log →
        s'.log = s.log ∨ ∃ event, event.trace? = none ∧ s'.log = event :: s.log :=
      fun s' hs' => .inr ⟨.asked name, rfl, hs'⟩
    unfold State.ask
    dsimp only
    -- whatever is typed, the log says that it was asked for
    split
    · exact ⟨_, rfl, hasked _ rfl⟩
    · split
      · exact ⟨_, rfl, hasked _ rfl⟩
      · split <;> exact ⟨_, rfl, hasked _ rfl⟩

/-! ### Comparisons -/

/-- A **comparison** of two runs: `Start s k` if the second run may come with the count `k` to
where the first comes in the state `s`, and `Ends s k first second moments` for what there is to
say of what they make of it. -/
structure Comparison where
  Start : State → Nat → Prop
  Ends : State → Nat → Outcome → Outcome → List Moment → Prop

namespace Comparison

/-- The comparison is true of a part of a run and of its counterpart in the second run. -/
def Relates (c : Comparison) (first second : State → Outcome) (moments : State → List Moment) :
    Prop :=
  ∀ s k, c.Start s k → c.Ends s k (first s) (second { s with steps := k }) (moments s)

/-- A comparison is **composable** if it is true of doing nothing, and of one thing after another
when it is true of both. -/
structure IsComposable (c : Comparison) : Prop where
  idle : c.Relates .done .done fun _ => []
  behind : ∀ {s k first second moments next next' more},
    c.Start s k → c.Ends s k first second moments → c.Relates next next' more →
      c.Ends s k (first.andThen next) (second.andThen next') (moments ++ Moment.behind first more)

/-- A comparison **covers** a node if it is true of what the node does by itself and, if it is a
loop that tests a condition, of its rounds. -/
structure Covers (c : Comparison) (fuel fuel' : Nat) (body body' : Body → State → Outcome)
    (moments : Body → State → List Moment) (node : Statement) : Prop where
  does : ∀ {s k outcome}, c.Start s k → node.Does s outcome →
    c.Ends s k outcome (outcome.counted k) []
  repeats : ∀ line condition inner, node = .whileLoop line condition inner →
    c.Relates (Outcome.repeatWhile (fun s => condition.holds s.store) (body inner) fuel)
      (Outcome.repeatWhile (fun s => condition.holds s.store) (body' inner) fuel')
      (Moment.repeatWhile (fun s => condition.holds s.store) (body inner) (moments inner) fuel)

variable {c : Comparison} {α : Type}

/-- Both runs go on with the same result of a computation. -/
private theorem given {s : State} {k : Nat} {result : Except Failure α} {next next' : α → Outcome}
    {more : α → List Moment}
    (hfailure : ∀ failure, result = .error failure →
      c.Ends s k (.failed failure s) (.failed failure { s with steps := k }) [])
    (hnext : ∀ value, c.Ends s k (next value) (next' value) (more value)) :
    c.Ends s k (s.given result next) (State.given { s with steps := k } result next')
      (Moment.given result more) := by
  cases result with
  | error failure => exact hfailure failure rfl
  | ok value => exact hnext value

/-- Where nothing begins behind a computation, there are no moments either way. -/
private theorem given_nil {s : State} {k : Nat} {result : Except Failure α}
    {next next' : α → Outcome}
    (hfailure : ∀ failure, result = .error failure →
      c.Ends s k (.failed failure s) (.failed failure { s with steps := k }) [])
    (hnext : ∀ value, c.Ends s k (next value) (next' value) []) :
    c.Ends s k (s.given result next) (State.given { s with steps := k } result next') [] := by
  cases result with
  | error failure => exact hfailure failure rfl
  | ok value => exact hnext value

namespace IsComposable

variable (h : c.IsComposable)

include h

theorem sequence {run run' : α → State → Outcome} {moments : α → State → List Moment}
    {items : List α} (hitems : ∀ item ∈ items, c.Relates (run item) (run' item) (moments item)) :
    c.Relates (Outcome.sequence run items) (Outcome.sequence run' items)
      (Moment.sequence run moments items) := by
  induction items with
  | nil => exact h.idle
  | cons item items ih =>
    obtain ⟨hitem, hrest⟩ := List.forall_mem_cons.mp hitems
    intro s k hstart
    rw [Outcome.sequence_cons, Outcome.sequence_cons]
    exact h.behind hstart (hitem s k hstart) (ih hrest)

private theorem countUp {body body' : Int → State → Outcome} {moments : Int → State → List Moment}
    (hbody : ∀ i, c.Relates (body i) (body' i) (moments i)) (rounds : Nat) (i : Int) :
    c.Relates (Outcome.countUp body rounds i) (Outcome.countUp body' rounds i)
      (Moment.countUp body moments rounds i) := by
  induction rounds generalizing i with
  | zero => exact h.idle
  | succ rounds ih =>
    intro s k hstart
    rw [Outcome.countUp_succ, Outcome.countUp_succ]
    exact h.behind hstart (hbody i s k hstart) (ih (i + 1))

/-- The second run may go on repeating for some more rounds, if the comparison is true of that
where the first is given up. -/
theorem repeatWhile_add {condition : Condition} {body body' : State → Outcome}
    {moments : State → List Moment} (extra : Nat)
    (hgiveUp : c.Relates (fun _ => .unfinished)
      (Outcome.repeatWhile (fun s => condition.holds s.store) body' extra) fun _ => [])
    (hfailure : ∀ {s k failure}, c.Start s k → condition.holds s.store = .error failure →
      c.Ends s k (.failed failure s) (.failed failure { s with steps := k }) [])
    (hbody : c.Relates body body' moments) (fuel : Nat) :
    c.Relates (Outcome.repeatWhile (fun s => condition.holds s.store) body fuel)
      (Outcome.repeatWhile (fun s => condition.holds s.store) body' (extra + fuel))
      (Moment.repeatWhile (fun s => condition.holds s.store) body moments fuel) := by
  induction fuel with
  | zero => exact hgiveUp
  | succ fuel ih =>
    intro s k hstart
    rw [← Nat.add_assoc, Outcome.repeatWhile_succ, Outcome.repeatWhile_succ]
    refine given (fun failure => hfailure hstart) fun holds => ?_
    cases holds with
    | false => exact h.idle s k hstart
    | true => exact h.behind hstart (hbody s k hstart) ih

/-- Both runs are given up after the same number of rounds. -/
theorem repeatWhile {condition : Condition} {body body' : State → Outcome}
    {moments : State → List Moment}
    (hgiveUp : c.Relates (fun _ => .unfinished) (fun _ => .unfinished) fun _ => [])
    (hfailure : ∀ {s k failure}, c.Start s k → condition.holds s.store = .error failure →
      c.Ends s k (.failed failure s) (.failed failure { s with steps := k }) [])
    (hbody : c.Relates body body' moments) (fuel : Nat) :
    c.Relates (Outcome.repeatWhile (fun s => condition.holds s.store) body fuel)
      (Outcome.repeatWhile (fun s => condition.holds s.store) body' fuel)
      (Moment.repeatWhile (fun s => condition.holds s.store) body moments fuel) := by
  have hrounds := h.repeatWhile_add 0 hgiveUp hfailure hbody fuel
  rwa [Nat.zero_add] at hrounds

private theorem clauses {body body' : Body → State → Outcome} {moments : Body → State → List Moment}
    {clauses : Clauses}
    (hfailure : ∀ condition ∈ clauses.conditions, ∀ {s k failure}, c.Start s k →
      condition.holds s.store = .error failure →
      c.Ends s k (.failed failure s) (.failed failure { s with steps := k }) [])
    (hbodies : ∀ inner ∈ clauses.bodies, c.Relates (body inner) (body' inner) (moments inner)) :
    c.Relates (clauses.run body) (clauses.run body') (clauses.moments moments) := by
  induction clauses with
  | done => exact h.idle
  | otherwise block => exact hbodies block (List.mem_singleton_self block)
  | guarded condition block rest ih =>
    obtain ⟨hcondition, hconditions⟩ := List.forall_mem_cons.mp hfailure
    obtain ⟨hblock, hrest⟩ := List.forall_mem_cons.mp hbodies
    intro s k hstart
    refine given (fun failure => hcondition hstart) fun holds => ?_
    cases holds with
    | false => exact ih hconditions hrest s k hstart
    | true => exact hblock s k hstart

end IsComposable

end Comparison

/-! ### From nodes to runs -/

variable {c : Comparison}

/-- A comparison that covers a node, and that is true of the bodies in it, is true of what the node
does once it has begun. -/
theorem Statement.act_relates (h : c.IsComposable) {fuel fuel' : Nat}
    {body body' : Body → State → Outcome} {moments : Body → State → List Moment} {node : Statement}
    (hnode : c.Covers fuel fuel' body body' moments node)
    (hbodies : ∀ inner ∈ node.bodies, c.Relates (body inner) (body' inner) (moments inner)) :
    c.Relates (node.act fuel body) (node.act fuel' body') (node.actMoments fuel body moments) := by
  have hvalue : ∀ e ∈ node.exprs, ∀ {s k}, c.Start s k → ∀ failure,
      e.value s.store = .error failure →
      c.Ends s k (.failed failure s) (.failed failure { s with steps := k }) [] :=
    fun e he s k hstart failure h => hnode.does hstart (.value he h)
  have hholds : ∀ condition ∈ node.conditions, ∀ {s k failure}, c.Start s k →
      condition.holds s.store = .error failure →
      c.Ends s k (.failed failure s) (.failed failure { s with steps := k }) [] :=
    fun condition hc s k failure hstart h => hnode.does hstart (.holds hc h)
  intro s k hstart
  cases node with
  | assign line name e =>
    exact Comparison.given_nil (hvalue e (List.mem_singleton_self e) hstart) fun value =>
      hnode.does hstart (.put value rfl)
  | display line e =>
    refine Comparison.given_nil (hvalue e (List.mem_singleton_self e) hstart) fun value => ?_
    rw [State.display_counted s value k]
    exact hnode.does hstart (.display value rfl)
  | input line name =>
    have hask := hnode.does hstart (.ask rfl)
    rwa [← State.ask_counted] at hask
  | branch line clauses => exact h.clauses hholds hbodies s k hstart
  | whileLoop line condition inner => exact hnode.repeats line condition inner rfl s k hstart
  | forLoop line name first last inner =>
    refine Comparison.given (hvalue first List.mem_cons_self hstart) fun lower => ?_
    refine Comparison.given
      (hvalue last (List.mem_cons_of_mem _ List.mem_cons_self) hstart) fun upper => ?_
    refine h.countUp (fun i s k hstart => ?_) _ lower s k hstart
    -- setting the variable comes before the body
    exact h.behind hstart (hnode.does hstart (.put i rfl))
      (hbodies inner (List.mem_singleton_self inner))
  | block inner => exact hbodies inner (List.mem_singleton_self inner) s k hstart
  | misplaced line form => exact hnode.does hstart (.misplaced rfl)

section Bounds

variable {bounds bounds' : Bounds}

/-- A comparison that covers all nodes of a statement is true of its runs. -/
theorem Statement.run_relates (h : c.IsComposable) {top : Option Int}
    (hdeep : c.Relates (.failed (.onLine .nestedTooDeeplyToRun top))
      (.failed (.onLine .nestedTooDeeplyToRun top)) fun _ => [])
    {statement : Statement}
    (hbegin : ∀ node ∈ statement.nodes,
      c.Relates (State.begin bounds.limit node.line node.form)
        (State.begin bounds'.limit node.line node.form)
        (Moment.begin bounds.limit node.line node.form))
    (hcovers : ∀ node ∈ statement.nodes, ∀ room,
      (∀ inner ∈ node.bodies, c.Relates (inner.run bounds top room) (inner.run bounds' top room)
        (inner.moments bounds top room)) →
      c.Covers bounds.fuel bounds'.fuel (Body.run bounds top room) (Body.run bounds' top room)
        (Body.moments bounds top room) node)
    (room : Nat) :
    c.Relates (statement.run bounds top room) (statement.run bounds' top room)
      (statement.moments bounds top room) := by
  induction room generalizing statement with
  | zero => exact hdeep
  | succ room ih =>
    have hbodies : ∀ inner ∈ statement.bodies, c.Relates (inner.run bounds top room)
        (inner.run bounds' top room) (inner.moments bounds top room) := by
      intro inner hinner
      refine h.sequence fun item hitem => ?_
      exact ih (fun node hnode => hbegin node (mem_nodes_of_mem_body hinner hitem hnode))
        (fun node hnode => hcovers node (mem_nodes_of_mem_body hinner hitem hnode))
    have hnode := hcovers statement List.mem_cons_self room hbodies
    intro s k hstart
    rw [run_succ, run_succ, moments_succ]
    exact h.behind hstart (hbegin statement List.mem_cons_self s k hstart)
      (act_relates h hnode hbodies)

/-- **Runs of a program side by side**: a comparison that covers all nodes of the program is true
of its runs. Both begin their count anew. -/
theorem Program.run_relates (h : c.IsComposable) {program : Program}
    (hdeep : ∀ top, c.Relates (.failed (.onLine .nestedTooDeeplyToRun top))
      (.failed (.onLine .nestedTooDeeplyToRun top)) fun _ => [])
    (hbegin : ∀ node ∈ program.nodes,
      c.Relates (State.begin bounds.limit node.line node.form)
        (State.begin bounds'.limit node.line node.form)
        (Moment.begin bounds.limit node.line node.form))
    (hcovers : ∀ node ∈ program.nodes, ∀ top room,
      (∀ inner ∈ node.bodies, c.Relates (inner.run bounds top room) (inner.run bounds' top room)
        (inner.moments bounds top room)) →
      c.Covers bounds.fuel bounds'.fuel (Body.run bounds top room) (Body.run bounds' top room)
        (Body.moments bounds top room) node)
    (s : State) (hstart : c.Start { s with steps := 0 } 0) :
    c.Ends { s with steps := 0 } 0 (program.run bounds s) (program.run bounds' s)
      (program.moments bounds s) := by
  refine h.sequence (fun statement hstatement => ?_) _ 0 hstart
  have hmem : ∀ node ∈ statement.nodes, node ∈ program.nodes := fun node hnode =>
    Statement.mem_nodesOf.mpr ⟨statement, hstatement, hnode⟩
  exact statement.run_relates h (hdeep statement.line)
    (fun node hnode => hbegin node (hmem node hnode))
    (fun node hnode => hcovers node (hmem node hnode) statement.line) runningLimit

end Bounds

end Offside

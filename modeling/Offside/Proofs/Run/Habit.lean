import Offside.Proofs.Run.Beats

/-!
# Habits of runs

A **habit** is a property of a part of a run as a whole: of what the part makes of every state that
it may begin in, and of its moments there. So a habit can say what would become of another state,
which a law cannot. A habit that is composable is one of every run (`Program.habit_run`).

Of the nodes those that ask are taken whole, from the beginning of the statement to the answer.
-/

namespace Offside

/-- A property of parts of runs, as functions of the state that they begin in. -/
abbrev Habit :=
  (State → Outcome) → (State → List Moment) → Prop

/-- A habit is **composable**, for some nodes and a limit on statements, if the single things that
these nodes do have it, and whatever is put together from parts that have it. -/
structure Habit.IsComposable (habit : Habit) (nodes : List Statement) (limit : Option Int) :
    Prop where
  idle : habit .done fun _ => []
  failed : ∀ failure, habit (.failed failure) fun _ => []
  giveUp : habit (fun _ => .unfinished) fun _ => []
  put : ∀ name value, habit (fun s => .done (s.put name value)) fun _ => []
  display : ∀ value, habit (State.display value) fun _ => []
  begin : ∀ node ∈ nodes, (∀ line name, node ≠ .input line name) →
    habit (State.begin limit node.line node.form) (Moment.begin limit node.line node.form)
  ask : ∀ line name, .input line name ∈ nodes →
    habit (fun s => (s.begin limit line .input).andThen (State.ask line name))
      (Moment.begin limit line .input)
  given : ∀ {α : Type} (result : Store → Except Failure α) {next : α → State → Outcome}
    {more : α → State → List Moment}, (∀ value, habit (next value) (more value)) →
      habit (fun s => s.given (result s.store) fun value => next value s)
        fun s => Moment.given (result s.store) fun value => more value s
  andThen : ∀ {run next : State → Outcome} {moments more : State → List Moment},
    habit run moments → habit next more →
      habit (fun s => (run s).andThen next) fun s => moments s ++ Moment.behind (run s) more

namespace Habit.IsComposable

variable {habit : Habit} {nodes : List Statement} {limit : Option Int}
  (h : habit.IsComposable nodes limit)

include h

/-- What goes on with the result of a computation has a habit if it has that with every result. -/
private theorem given_nil {α : Type} (result : Store → Except Failure α)
    {next : α → State → Outcome}
    (hnext : ∀ value, habit (next value) fun _ => []) :
    habit (fun s => s.given (result s.store) fun value => next value s) fun _ => [] := by
  have hmoments : (fun _ : State => ([] : List Moment)) =
      fun s => Moment.given (result s.store) fun _ => [] := by
    funext s
    cases result s.store <;> rfl
  rw [hmoments]
  exact h.given result hnext

/-- A sequence has a habit if each item has it. -/
private theorem sequence {α : Type} {run : α → State → Outcome} {moments : α → State → List Moment}
    {items : List α} (hitems : ∀ item ∈ items, habit (run item) (moments item)) :
    habit (Outcome.sequence run items) (Moment.sequence run moments items) := by
  induction items with
  | nil => exact h.idle
  | cons item items ih =>
    obtain ⟨hitem, hrest⟩ := List.forall_mem_cons.mp hitems
    rw [funext (Outcome.sequence_cons run item items)]
    exact h.andThen hitem (ih hrest)

/-- Repetition has a habit if the round has it. -/
private theorem repeatWhile (condition : Condition) {body : State → Outcome}
    {moments : State → List Moment} (hbody : habit body moments) (fuel : Nat) :
    habit (Outcome.repeatWhile (fun s => condition.holds s.store) body fuel)
      (Moment.repeatWhile (fun s => condition.holds s.store) body moments fuel) := by
  induction fuel with
  | zero => exact h.giveUp
  | succ fuel ih =>
    rw [funext (Outcome.repeatWhile_succ _ body fuel)]
    refine h.given (fun store => condition.holds store) fun holds => ?_
    cases holds with
    | false => exact h.idle
    | true => exact h.andThen hbody ih

/-- Counting up has a habit if each round has it. -/
private theorem countUp {body : Int → State → Outcome} {moments : Int → State → List Moment}
    (hbody : ∀ i, habit (body i) (moments i)) (rounds : Nat) (i : Int) :
    habit (Outcome.countUp body rounds i) (Moment.countUp body moments rounds i) := by
  induction rounds generalizing i with
  | zero => exact h.idle
  | succ rounds ih =>
    rw [funext (Outcome.countUp_succ body rounds i)]
    exact h.andThen (hbody i) (ih (i + 1))

private theorem clauses {body : Body → State → Outcome} {moments : Body → State → List Moment}
    {clauses : Clauses} (hbodies : ∀ inner ∈ clauses.bodies, habit (body inner) (moments inner)) :
    habit (clauses.run body) (clauses.moments moments) := by
  induction clauses with
  | done => exact h.idle
  | otherwise block => exact hbodies block (List.mem_singleton_self block)
  | guarded condition block rest ih =>
    obtain ⟨hblock, hrest⟩ := List.forall_mem_cons.mp hbodies
    refine h.given (fun store => condition.holds store) fun holds => ?_
    cases holds with
    | false => exact ih hrest
    | true => exact hblock

end Habit.IsComposable

/-! ### Runs -/

variable {habit : Habit} {nodes : List Statement}

/-- What a node does once it has begun, if it does not ask. -/
theorem Statement.habit_act {limit : Option Int} (h : habit.IsComposable nodes limit) {fuel : Nat}
    {body : Body → State → Outcome} {moments : Body → State → List Moment} {node : Statement}
    (hne : ∀ line name, node ≠ .input line name)
    (hbodies : ∀ inner ∈ node.bodies, habit (body inner) (moments inner)) :
    habit (node.act fuel body) (node.actMoments fuel body moments) := by
  cases node with
  | assign line name e =>
    exact h.given_nil (fun store => e.value store) fun value => h.put name value
  | display line e => exact h.given_nil (fun store => e.value store) fun value => h.display value
  | input line name => exact absurd rfl (hne line name)
  | branch line clauses => exact h.clauses hbodies
  | whileLoop line condition inner =>
    exact h.repeatWhile condition (hbodies inner (List.mem_singleton_self inner)) fuel
  | forLoop line name first last inner =>
    have hround (i : Int) : habit (fun s => body inner (s.put name i))
        fun s => moments inner (s.put name i) :=
      h.andThen (h.put name i) (hbodies inner (List.mem_singleton_self inner))
    exact h.given (fun store => first.value store) fun lower =>
      h.given (fun store => last.value store) fun upper => h.countUp hround _ lower
  | block inner => exact hbodies inner (List.mem_singleton_self inner)
  | misplaced line form => exact h.failed _

section Bounds

variable {bounds : Bounds} (h : habit.IsComposable nodes bounds.limit)

include h

/-- A statement has a habit that is composable for all its nodes. -/
private theorem Statement.habit_run (top : Option Int) (room : Nat) {statement : Statement}
    (hnodes : ∀ node ∈ statement.nodes, node ∈ nodes) :
    habit (statement.run bounds top room) (statement.moments bounds top room) := by
  induction room generalizing statement with
  | zero => exact h.failed _
  | succ room ih =>
    have hself := hnodes statement List.mem_cons_self
    by_cases hinput : ∃ line name, statement = .input line name
    · obtain ⟨line, name, rfl⟩ := hinput
      have hmoments : (input line name).moments bounds top (room + 1) =
          Moment.begin bounds.limit line .input := by
        funext s
        have hnone : Moment.behind (s.begin bounds.limit line .input)
            ((input line name).actMoments bounds.fuel (Body.run bounds top room)
              (Body.moments bounds top room)) = [] := by
          cases s.begin bounds.limit line .input <;> rfl
        exact (congrArg _ hnone).trans (List.append_nil _)
      rw [hmoments]
      exact h.ask line name hself
    · have hne : ∀ line name, statement ≠ .input line name := fun line name heq =>
        hinput ⟨line, name, heq⟩
      refine h.andThen (h.begin statement hself hne) (habit_act h hne fun inner hinner => ?_)
      refine h.sequence fun item hitem => ih fun node hnode => ?_
      exact hnodes node (mem_nodes_of_mem_body hinner hitem hnode)

/-- **Runs of a program have a habit** that is composable for the nodes of the program. -/
theorem Program.habit_run {program : Program} (hnodes : ∀ node ∈ program.nodes, node ∈ nodes) :
    habit (Outcome.sequence (fun statement => statement.run bounds statement.line runningLimit)
        program.statements)
      (Moment.sequence (fun statement => statement.run bounds statement.line runningLimit)
        (fun statement => statement.moments bounds statement.line runningLimit)
        program.statements) := by
  refine h.sequence fun statement hstatement => ?_
  exact statement.habit_run h statement.line runningLimit fun node hnode =>
    hnodes node (Statement.mem_nodesOf.mpr ⟨statement, hstatement, hnode⟩)

end Bounds

end Offside

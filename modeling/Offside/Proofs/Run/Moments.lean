import Offside.Run.Statement

/-!
# The moments of a run

A run can be looked at wherever a statement begins: these are its **moments**, each with the line
and the form of the statement and with the state that the statement finds. `Program.moments` lists
them in the order of the run. The functions here follow the functions that run statements, and take
every state from those; they go on only where the run does, so they also list the moments of a run
that fails, or that is given up as unfinished.
-/

namespace Offside

/-- A **moment** of a run, at which a statement begins. -/
structure Moment where
  line : Option Int
  form : Form
  state : State

namespace Moment

/-- The event that the statement begins. -/
def event (moment : Moment) : Event :=
  .started moment.line moment.form

/-- The line of the trace that the statement makes. -/
def traceLine (moment : Moment) : String :=
  moment.event.trace?.getD ""

/-- The moment of a statement that begins, if the limit lets it. -/
def begin (limit line : Option Int) (form : Form) (s : State) : List Moment :=
  match s.begin limit line form with
  | .done _ => [⟨line, form, s⟩]
  | _ => []

/-- The moments of what comes behind an outcome, if anything does. -/
def behind (outcome : Outcome) (next : State → List Moment) : List Moment :=
  match outcome with
  | .done s => next s
  | _ => []

/-- The moments of what goes on with the result of a computation. -/
def given {α : Type} (result : Except Failure α) (next : α → List Moment) : List Moment :=
  match result with
  | .ok value => next value
  | .error _ => []

/-- The moments of items that are run one after another. -/
def sequence {α : Type} (run : α → State → Outcome) (moments : α → State → List Moment) :
    List α → State → List Moment
  | [], _ => []
  | item :: items, s => moments item s ++ behind (run item s) (sequence run moments items)

/-- The moments of a body that is run for as long as a test succeeds. -/
def repeatWhile (test : State → Except Failure Bool) (body : State → Outcome)
    (moments : State → List Moment) : Nat → State → List Moment
  | 0, _ => []
  | fuel + 1, s =>
    given (test s) fun holds =>
      if holds then moments s ++ behind (body s) (repeatWhile test body moments fuel) else []

/-- The moments of a body that is run for numbers in a row. -/
def countUp (body : Int → State → Outcome) (moments : Int → State → List Moment) :
    Nat → Int → State → List Moment
  | 0, _, _ => []
  | rounds + 1, i, s => moments i s ++ behind (body i s) (countUp body moments rounds (i + 1))

end Moment

/-- The moments of the clause that is chosen. -/
def Clauses.moments (moments : Body → State → List Moment) : Clauses → State → List Moment
  | done, _ => []
  | otherwise block, s => moments block s
  | guarded condition block rest, s =>
    Moment.given (condition.holds s.store) fun holds =>
      if holds then moments block s else rest.moments moments s

/-- The moments inside a statement that has begun. Its bodies are run by `body` and have the
moments `moments`. -/
def Statement.actMoments (fuel : Nat) (body : Body → State → Outcome)
    (moments : Body → State → List Moment) (statement : Statement) (s : State) : List Moment :=
  match statement with
  | .branch _ clauses => clauses.moments moments s
  | .whileLoop _ condition inner =>
    Moment.repeatWhile (fun s => condition.holds s.store) (body inner) (moments inner) fuel s
  | .forLoop _ name first last inner =>
    Moment.given (first.value s.store) fun lower =>
      Moment.given (last.value s.store) fun upper =>
        let round (i : Int) (s : State) := body inner (s.put name i)
        let moments (i : Int) (s : State) := moments inner (s.put name i)
        Moment.countUp round moments (upper + 1 - lower).toNat lower s
  | .block inner => moments inner s
  | .assign .. | .display .. | .input .. | .misplaced .. => []

/-- The moments of a statement and of those inside it. -/
def Statement.moments (bounds : Bounds) (top : Option Int) :
    Nat → Statement → State → List Moment
  | 0, _, _ => []
  | room + 1, statement, s =>
    let moments (inner : Body) : State → List Moment :=
      Moment.sequence (Statement.run bounds top room) (Statement.moments bounds top room)
        inner.statements
    Moment.begin bounds.limit statement.line statement.form s ++
      Moment.behind (s.begin bounds.limit statement.line statement.form)
        (statement.actMoments bounds.fuel (Body.run bounds top room) moments)

/-- The moments of the statements of a body. -/
def Body.moments (bounds : Bounds) (top : Option Int) (room : Nat) (body : Body) :
    State → List Moment :=
  Moment.sequence (Statement.run bounds top room) (Statement.moments bounds top room)
    body.statements

/-- The moments of a run of a program. -/
def Program.moments (bounds : Bounds) (program : Program) (s : State) : List Moment :=
  Moment.sequence (fun statement => statement.run bounds statement.line runningLimit)
    (fun statement => statement.moments bounds statement.line runningLimit)
    program.statements { s with steps := 0 }

theorem Statement.moments_succ (bounds : Bounds) (top : Option Int) (room : Nat)
    (statement : Statement) (s : State) :
    statement.moments bounds top (room + 1) s =
      Moment.begin bounds.limit statement.line statement.form s ++
        Moment.behind (s.begin bounds.limit statement.line statement.form)
          (statement.actMoments bounds.fuel (Body.run bounds top room)
            (Body.moments bounds top room)) :=
  rfl

end Offside

import Offside.Run.State
import Offside.Run.Value
import Offside.Tree.Statement

/-!
# Running statements

The meaning of statements, as what they make of a state. A run is definite: it goes through the
statements in order and ends at the first failure.

Two bounds make every run end, and neither is part of the language. Bodies within bodies may be
nested only so deep (`runningLimit`), in place of the limit that the host language sets to
recursion: a program nested deeper fails. The rounds of each loop that tests a condition are bounded
by the **fuel**: a run that comes to its end with some fuel comes to the same end with more, and one
that uses up its fuel is unfinished.
-/

namespace Offside

/-- How a run is bounded: the number of statements it may begin, if that is limited, and the
rounds that a loop may take before the run is given up as unfinished. -/
structure Bounds where
  limit : Option Int
  fuel : Nat

/-- More rounds than any run takes that is waited for. -/
def Bounds.ampleFuel : Nat := Nat.pow 10 18

/-- How deeply the statements of a program may be nested to be run.

This stands in for the limit on recursion of the host language. There a body within a body takes two
calls, and the calls around the run count as well, so it is not at one certain depth that a run
fails. The failure is one of the statement at the top in either case. -/
def runningLimit : Nat := 400

/-- Goes on with what was computed in a state; a failure to compute it is one of the run. -/
def State.given {α : Type} (s : State) (result : Except Failure α) (next : α → Outcome) : Outcome :=
  match result with
  | .error e => .failed e s
  | .ok value => next value

namespace Outcome

/-- Goes on from a state that something has come to, if it is done. -/
def andThen (outcome : Outcome) (next : State → Outcome) : Outcome :=
  match outcome with
  | .done s => next s
  | outcome => outcome

/-- Runs a list of items one after another. -/
def sequence {α : Type} (run : α → State → Outcome) : List α → State → Outcome
  | [], s => .done s
  | item :: items, s =>
    match run item s with
    | .done s => sequence run items s
    | outcome => outcome

/-- Runs a body for as long as a test succeeds, with fuel for that many rounds. -/
def repeatWhile (test : State → Except Failure Bool) (body : State → Outcome) :
    Nat → State → Outcome
  | 0, _ => .unfinished
  | fuel + 1, s =>
    match test s with
    | .error e => .failed e s
    | .ok false => .done s
    | .ok true =>
      match body s with
      | .done s => repeatWhile test body fuel s
      | outcome => outcome

/-- Runs a body for so many numbers in a row, beginning with `i`. -/
def countUp (body : Int → State → Outcome) : Nat → Int → State → Outcome
  | 0, _, s => .done s
  | rounds + 1, i, s =>
    match body i s with
    | .done s => countUp body rounds (i + 1) s
    | outcome => outcome

end Outcome

/-- Runs the body of the first clause whose condition holds; a body without a guard always
runs. -/
def Clauses.run (body : Body → State → Outcome) : Clauses → State → Outcome
  | done, s => .done s
  | otherwise block, s => body block s
  | guarded condition block rest, s =>
    s.given (condition.holds s.store) fun holds => if holds then body block s else rest.run body s

/-- What a statement does once it has begun. Its bodies are run by `body`, and fuel is for the
rounds of a loop that tests a condition. -/
def Statement.act (fuel : Nat) (body : Body → State → Outcome) (statement : Statement)
    (s : State) : Outcome :=
  match statement with
  | .assign _ name expr => s.given (expr.value s.store) fun value => .done (s.put name value)
  | .display _ expr => s.given (expr.value s.store) fun value => s.display value
  | .input line name => s.ask line name
  | .branch _ clauses => clauses.run body s
  | .whileLoop _ condition inner =>
    Outcome.repeatWhile (fun s => condition.holds s.store) (body inner) fuel s
  | .forLoop _ name first last inner =>
    s.given (first.value s.store) fun lower =>
      s.given (last.value s.store) fun upper =>
        let round (i : Int) (s : State) := body inner (s.put name i)
        Outcome.countUp round (upper + 1 - lower).toNat lower s
  | .block inner => body inner s
  | .misplaced _ form => .failed (.broken (.notStatement form)) s

/-- Runs a statement within the statement of the top level that stands on line `top`, with room
for so much nesting. -/
def Statement.run (bounds : Bounds) (top : Option Int) : Nat → Statement → State → Outcome
  | 0, _, s => .failed (.onLine .nestedTooDeeplyToRun top) s
  | room + 1, statement, s =>
    let body (inner : Body) : State → Outcome :=
      Outcome.sequence (Statement.run bounds top room) inner.statements
    (s.begin bounds.limit statement.line statement.form).andThen (statement.act bounds.fuel body)

/-- Runs a program. The count of statements begins anew. -/
def Program.run (bounds : Bounds) (program : Program) (s : State) : Outcome :=
  Outcome.sequence (fun statement => statement.run bounds statement.line runningLimit)
    program.statements { s with steps := 0 }

/-! ### One thing after another -/

namespace Outcome

theorem sequence_cons {α : Type} (run : α → State → Outcome) (item : α) (items : List α)
    (s : State) : sequence run (item :: items) s = (run item s).andThen (sequence run items) := by
  rw [sequence]
  cases run item s <;> rfl

theorem repeatWhile_succ (test : State → Except Failure Bool) (body : State → Outcome)
    (fuel : Nat) (s : State) :
    repeatWhile test body (fuel + 1) s =
      s.given (test s) fun holds =>
        if holds then (body s).andThen (repeatWhile test body fuel) else .done s := by
  rw [repeatWhile]
  cases test s with
  | error failure => rfl
  | ok holds =>
    cases holds with
    | false => rfl
    | true => cases body s <;> rfl

theorem countUp_succ (body : Int → State → Outcome) (rounds : Nat) (i : Int) (s : State) :
    countUp body (rounds + 1) i s = (body i s).andThen (countUp body rounds (i + 1)) := by
  rw [countUp]
  cases body i s <;> rfl

end Outcome

/-- Runs the statements of a body. -/
def Body.run (bounds : Bounds) (top : Option Int) (room : Nat) (body : Body) : State → Outcome :=
  Outcome.sequence (Statement.run bounds top room) body.statements

theorem Statement.run_succ (bounds : Bounds) (top : Option Int) (room : Nat)
    (statement : Statement) (s : State) :
    statement.run bounds top (room + 1) s =
      (s.begin bounds.limit statement.line statement.form).andThen
        (statement.act bounds.fuel (Body.run bounds top room)) :=
  rfl

end Offside

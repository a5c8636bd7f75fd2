import Offside.Diagnostic
import Offside.Numeral.Decimal
import Offside.Store
import Offside.Text.Blank
import Offside.Text.Lines

/-!
# The state of a run

What a run changes: the store, the input that is not yet read, the count of statements that the
limit goes by, and the **log** of what happened. Everything that can be observed of a run apart
from its state is a view of the log: what it writes (`State.output`) and its trace
(`State.trace`). Whether prompts are written and whether there is a trace are choices of the
view, so a run does not depend on them.

An **outcome** is what a run has come to: it is done, it has failed, or it is unfinished, having
used up the rounds that its loops were allowed.
-/

namespace Offside

/-- What a run does that can be seen. -/
inductive Event
  /-- A statement begins. -/
  | started (line : Option Int) (form : Form)
  /-- A value for a variable is asked for. -/
  | asked (name : String)
  /-- A value is written, on a line of its own. -/
  | displayed (value : Int)
  deriving DecidableEq, Repr

namespace Event

/-- What an event writes, with or without prompts. -/
def output (prompts : Bool) : Event → String
  | started .. => ""
  | asked name => if prompts then "Enter value for " ++ name ++ ": " else ""
  | displayed value => Numeral.render value ++ "\n"

/-- The line of the trace that an event makes. -/
def trace? : Event → Option String
  | started line form =>
    let place :=
      match line with
      | some n => (n + 1).repr
      | none => "?"
    some ("TRACE line " ++ place ++ ": " ++ form.name)
  | _ => none

end Event

/-- The state of a run. The log lists the last event first. -/
structure State where
  store : Store
  input : List Char
  steps : Nat
  log : List Event

namespace State

/-- The state before anything has run. -/
def initial (store : Store) (input : String) : State :=
  ⟨store, input.toList, 0, []⟩

/-- The events of a run in order. -/
def events (s : State) : List Event :=
  s.log.reverse

/-- All that was written. -/
def output (prompts : Bool) (s : State) : String :=
  String.join (s.events.map (Event.output prompts))

/-- The trace, line by line. -/
def trace (s : State) : List String :=
  s.events.filterMap Event.trace?

/-- The state with one more event. -/
def record (event : Event) (s : State) : State :=
  { s with log := event :: s.log }

/-- The state with a variable set. -/
def put (name : String) (value : Int) (s : State) : State :=
  { s with store := s.store.put name value }

end State

/-- What a run has come to. -/
inductive Outcome
  | done (s : State)
  | failed (failure : Failure) (s : State)
  | unfinished

/-- The state that a run left behind. -/
def Outcome.state? : Outcome → Option State
  | done s | failed _ s => some s
  | unfinished => none

namespace State

/-- Begins a statement. With a limit the statement counts, and it may be one too many, in which
case it does not begin. -/
def begin (limit : Option Int) (line : Option Int) (form : Form) (s : State) : Outcome :=
  match limit with
  | none => .done (s.record (.started line form))
  | some bound =>
    if (s.steps : Int) + 1 ≤ bound then
      .done ({ s with steps := s.steps + 1 }.record (.started line form))
    else .failed (.onLine .stepLimit line) { s with steps := s.steps + 1 }

/-- Writes a value. -/
def display (value : Int) (s : State) : Outcome :=
  match Numeral.write value with
  | .error b => .failed (.broken b) s
  | .ok _ => .done (s.record (.displayed value))

/-- Asks for a variable: takes a line of the input, which must hold an integer and nothing else
but white space around it. -/
def ask (line : Option Int) (name : String) (s : State) : Outcome :=
  let typed := (Text.takeLine s.input).1
  let s := { s with input := (Text.takeLine s.input).2 }.record (.asked name)
  if typed.isEmpty then .failed (.onLine (.noInput name) line) s
  else
    let text := Text.trim typed
    match Numeral.signed? text with
    | none => .failed (.onLine (.illegalInput (.ofList text) name) line) s
    | some (negative, digits) =>
      match Numeral.read digits with
      | .error b => .failed (.broken b) s
      | .ok magnitude => .done (s.put name (Numeral.withSign negative magnitude))

end State

end Offside

import Offside.Console
import Offside.Run.Statement
import Offside.Source.Layout

/-!
# Dialogues

A **dialogue** takes a program in snippets, one after another, and runs each of them on the same
store. A snippet is a single line, or a line that ends in a colon and all lines below it up to
the next blank one. Outside a snippet a blank line is skipped, and there are commands to list
the variables and to quit.

A snippet of one line that is no program may be an expression, whose value is then written. If
it is neither, the diagnostic is the one for the program. Diagnostics are reported and the
dialogue goes on; only a breakdown ends it before it is quit or its input ends.

The lines of a dialogue and the input of the snippets come from one and the same source.
-/

namespace Offside

/-- What a snippet turns out to be. -/
inductive Snippet
  | program (program : Program)
  | expression (expr : Expr)

/-- Reads a snippet. -/
def Snippet.ofLines (lines : List String) : Except Failure Snippet :=
  match Program.ofLines lines with
  | .ok p => .ok (.program p)
  | .error (.broken b) => .error (.broken b)
  | .error (.diagnosed d) =>
    match lines with
    | [line] =>
      match Expr.ofLine line with
      | .ok e => .ok (.expression e)
      | .error (.broken b) => .error (.broken b)
      | .error (.diagnosed _) => .error (.diagnosed d)
    | _ => .error (.diagnosed d)

/-- What a dialogue makes of a line. -/
inductive Role
  | quit
  | list
  | skip
  /-- The line belongs to a snippet that is not complete. -/
  | keep
  /-- The snippet of these lines is complete. -/
  | submit (lines : List String)
  deriving DecidableEq, Repr

namespace Role

/-- The commands that end a dialogue. -/
def quitCommands : List String :=
  [":q", ":quit", "quit", "exit"]

/-- The role of a line behind the pending lines of a snippet, last first. Inside a snippet there
are no commands, and only a blank line completes it. -/
def ofLine (pending : List String) (line : String) : Role :=
  let text := String.ofList (Text.trim line.toList)
  if pending.isEmpty then
    if text ∈ quitCommands then .quit
    else if text = ":vars" then .list
    else if text.isEmpty then .skip
    else if text.toList.getLast? = some ':' then .keep
    else .submit [line]
  else if text.isEmpty then .submit pending.reverse
  else .keep

end Role

/-- A dialogue under way: the store, the input not yet read, the pending lines of a snippet and
the entries so far; the last come first in both. -/
structure Dialogue where
  store : Store
  input : List Char
  pending : List String
  entries : List Entry

/-- How a dialogue ends. -/
inductive Ending
  | quit
  | endOfInput
  | broken (b : Breakdown)
  /-- A snippet used up the rounds that its loops were allowed. -/
  | unfinished
  deriving DecidableEq, Repr

/-- What one line makes of a dialogue. -/
inductive Turn
  | next (d : Dialogue)
  | over (ending : Ending) (d : Dialogue)

namespace Dialogue

/-- A dialogue that begins. -/
def start (input : String) : Dialogue :=
  ⟨.empty, input.toList, [], [.greeting]⟩

/-- The dialogue with one more entry. -/
def say (entry : Entry) (d : Dialogue) : Dialogue :=
  { d with entries := entry :: d.entries }

/-- The dialogue in the state that a run has left, with what the run did entered. -/
def adopt (s : State) (d : Dialogue) : Dialogue :=
  { d with store := s.store, input := s.input, entries := s.log.map .observed ++ d.entries }

/-- Goes on after a failure, which is reported, or ends with a breakdown. -/
def fail (d : Dialogue) : Failure → Turn
  | .diagnosed diagnostic => .next (d.say (.report diagnostic))
  | .broken b => .over (.broken b) d

/-- Writes the value of an expression. -/
def answer (d : Dialogue) (expr : Expr) : Turn :=
  match expr.value d.store with
  | .error e => d.fail e
  | .ok value =>
    match Numeral.write value with
    | .error b => .over (.broken b) d
    | .ok _ => .next (d.say (.answer value))

/-- Runs a program on the store. -/
def run (bounds : Bounds) (d : Dialogue) (program : Program) : Turn :=
  match program.run bounds ⟨d.store, d.input, 0, []⟩ with
  | .done s => .next (d.adopt s)
  | .failed e s => (d.adopt s).fail e
  | .unfinished => .over .unfinished d

/-- Takes a complete snippet. -/
def submit (bounds : Bounds) (d : Dialogue) (lines : List String) : Turn :=
  match Snippet.ofLines lines with
  | .error e => d.fail e
  | .ok (.expression expr) => d.answer expr
  | .ok (.program program) => d.run bounds program

/-- Lists variables, up to the first whose value cannot be written. -/
def list : List (String × Int) → Dialogue → Turn
  | [], d => .next d
  | (name, value) :: rest, d =>
    match Numeral.write value with
    | .error b => .over (.broken b) d
    | .ok _ => list rest (d.say (.listing name value))

/-- Takes one line of the dialogue. -/
def step (bounds : Bounds) (d : Dialogue) : Turn :=
  let d := d.say (.prompt !d.pending.isEmpty)
  match Text.takeLine d.input with
  | ([], _) => .over .endOfInput (d.say (.message ""))
  | (typed, rest) =>
    let d := { d with input := rest }
    let line := String.ofList (if typed.getLast? = some '\n' then typed.dropLast else typed)
    match Role.ofLine d.pending line with
    | .quit => .over .quit d
    | .list => list d.store.entries d
    | .skip => .next d
    | .keep => .next { d with pending := line :: d.pending }
    | .submit lines => { d with pending := [] }.submit bounds lines

/-- Takes up to so many lines. -/
def steps (bounds : Bounds) : Nat → Dialogue → Ending × Dialogue
  | 0, d => (.unfinished, d)
  | n + 1, d =>
    match d.step bounds with
    | .next d => steps bounds n d
    | .over ending d => (ending, d)

/-- Leads a dialogue to its end. Every line takes something of the input, so there are no more
lines than characters, and the end of the input is met behind them. -/
def lead (bounds : Bounds) (d : Dialogue) : Ending × Dialogue :=
  steps bounds (d.input.length + 1) d

end Dialogue

end Offside

import Offside.Run.State

/-!
# The console

What reaches the user of a command, entry by entry, and how each entry is written. Entries are
the same whatever the user has chosen to see; the **view** decides what is written of them and
where: prompts or none, a trace or none, diagnostics in plain text, in red, or for debugging.
The trace and the debugging output go to the error stream, everything else to the output.
-/

namespace Offside

/-- Something that a command has to say. -/
inductive Entry
  /-- The greeting of a dialogue. -/
  | greeting
  /-- A line of a dialogue is asked for, the first one of a snippet or a further one. -/
  | prompt (further : Bool)
  /-- Something happens in a run. -/
  | observed (event : Event)
  /-- The value of an expression. -/
  | answer (value : Int)
  /-- A variable and its value. -/
  | listing (name : String) (value : Int)
  /-- A diagnostic is reported. -/
  | report (d : Diagnostic)
  /-- A line of text. -/
  | message (text : String)
  deriving DecidableEq, Repr

/-- What the user of a command has chosen to see. -/
structure View where
  prompts : Bool
  trace : Bool
  debug : Bool
  colored : Bool

namespace Entry

/-- What an entry writes to the output. -/
def output (view : View) : Entry → String
  | greeting => "Tabscript REPL. Type :q to quit, :vars to list variables.\n"
  | prompt further => if further then "...> " else "tab> "
  | observed event => event.output view.prompts
  | answer value => Numeral.render value ++ "\n"
  | listing name value => name ++ " = " ++ Numeral.render value ++ "\n"
  | report d =>
    if view.debug then ""
    else if view.colored then "\x1b[31m" ++ d.text ++ "\x1b[0m\n"
    else d.text ++ "\n"
  | message text => text ++ "\n"

/-- What an entry writes to the error stream. -/
def errorOutput (view : View) : Entry → String
  | observed event =>
    match event.trace? with
    | some line => if view.trace then line ++ "\n" else ""
    | none => ""
  | report d =>
    if view.debug then "Traceback: " ++ d.cause.family.identifier ++ ": " ++ d.text ++ "\n" else ""
  | _ => ""

end Entry

end Offside

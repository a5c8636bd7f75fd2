import Offside.Dialogue
import Offside.Numeral.Lenient
import Offside.Outline.Tree

/-!
# Commands

The command line: what the arguments ask for (`Invocation.ofArgs`) and what is done about it
(`Invocation.perform`). Both are functions; the contents of files and the input are arguments,
and what there is to see comes back as a **report**.
-/

namespace Offside

/-- What the options choose. -/
structure Options where
  debug : Bool
  trace : Bool
  prompts : Bool
  limit : Option Int

/-- What the arguments of a command line ask for. -/
inductive Invocation
  /-- Nothing that can be done: the usage is explained. -/
  | usage
  /-- A limit that is no number. -/
  | illegalLimit
  /-- A command that there is none of. -/
  | unknown (name : String)
  /-- Reads the program in a file and prints its outline. -/
  | parse (options : Options) (path : String)
  /-- Runs the program in a file. -/
  | run (options : Options) (path : String)
  /-- Holds a dialogue. -/
  | dialogue (options : Options)

namespace Invocation

/-- Takes the first occurrence of a flag out of the arguments. -/
def takeFlag (flag : String) (args : List String) : Bool × List String :=
  (flag ∈ args, args.erase flag)

/-- Takes the first limit out of the arguments: none if there is none to take, and an error if
what follows the flag is no number. -/
def takeLimit (args : List String) : Except Unit (Option Int × List String) :=
  match args.span (· != "--max-steps") with
  | (_, []) => .ok (none, args)
  | (before, _ :: value :: behind) =>
    match Numeral.lenient? value with
    | some limit => .ok (some limit, before ++ behind)
    | none => .error ()
  | (_, [_]) => .error ()

/-- What the arguments ask for. The options may stand anywhere, and are taken out first. -/
def ofArgs (args : List String) : Invocation :=
  let (debug, args) := takeFlag "--debug" args
  let (trace, args) := takeFlag "--trace" args
  let (silent, args) := takeFlag "--no-prompt" args
  match takeLimit args with
  | .error () => .illegalLimit
  | .ok (limit, args) =>
    let options : Options := { debug, trace, prompts := !silent, limit }
    match args with
    | ["repl"] => .dialogue options
    | "repl" :: _ => .usage
    | ["parse", path] => .parse options path
    | ["run", path] => .run options path
    | [name, _] => .unknown name
    | _ => .usage

end Invocation

/-- What comes of opening a file to read a program. -/
inductive FileReading
  | source (text : String)
  /-- The bytes are no UTF-8 text. -/
  | undecodable
  /-- The file cannot be read, for a reason. -/
  | unreadable (reason : String)

/-- The reading of a file that holds these bytes. -/
def FileReading.ofBytes (bytes : ByteArray) : FileReading :=
  match String.fromUTF8? bytes with
  | some text => .source text
  | none => .undecodable

/-- How a command ends: regularly with a status, or not. -/
inductive Exit
  | status (code : Nat)
  | broken (b : Breakdown)
  | unfinished
  deriving DecidableEq, Repr

/-- What there is to see of a command. -/
structure Report where
  exit : Exit
  output : String
  errorOutput : String

/-- The report of entries, which come last first. -/
def Report.ofEntries (view : View) (exit : Exit) (entries : List Entry) : Report where
  exit := exit
  output := String.join (entries.reverse.map (Entry.output view))
  errorOutput := String.join (entries.reverse.map (Entry.errorOutput view))

namespace Invocation

/-- How the command line is to be used. -/
def usageText : String :=
  "Usage:\n  tabscript parse <file.tab>\n  tabscript run <file.tab>\n  tabscript repl\n" ++
    "  options: --debug (show Python traceback), --trace, --no-prompt, --max-steps N"

/-- How a command ends that has come to a failure, and what it says last. -/
def failing : Failure → Exit × List Entry
  | .diagnosed d => (.status 1, [.report d])
  | .broken b => (.broken b, [])

/-- The exit of a dialogue. -/
def exitOf : Ending → Exit
  | .quit | .endOfInput => .status 0
  | .broken b => .broken b
  | .unfinished => .unfinished

/-- Prints the outline of a program. -/
def printOutline (program : Program) : Exit × List Entry :=
  let outline := program.outline
  if Outline.printingLimit < outline.depth then
    (.status 1, [.message "AST is nested too deeply to print"])
  else
    match outline.write with
    | .ok text => (.status 0, [.message text])
    | .error b => (.broken b, [])

/-- Runs a program on a new store. -/
def runProgram (bounds : Bounds) (input : String) (program : Program) : Exit × List Entry :=
  match program.run bounds (.initial .empty input) with
  | .done s => (.status 0, s.log.map .observed)
  | .failed e s => ((failing e).1, (failing e).2 ++ s.log.map .observed)
  | .unfinished => (.unfinished, [])

/-- Does something with the program that a file holds. -/
def withProgram (path : String) (reading : FileReading)
    (use : Program → Exit × List Entry) : Exit × List Entry :=
  match reading with
  | .unreadable reason =>
    (.status 1, [.message ("Cannot read file \"" ++ path ++ "\": " ++ reason)])
  | .undecodable => (.broken .undecodable, [])
  | .source text =>
    match Program.ofSource text with
    | .error e => failing e
    | .ok program => use program

/-- What the options let the user see. -/
def viewOf (options : Options) (colored : Bool) : View where
  prompts := options.prompts
  trace := options.trace
  debug := options.debug
  colored := colored

/-- The file that is asked for, if one is. -/
def path? : Invocation → Option String
  | parse _ path | run _ path => some path
  | _ => none

/-- Whether the input is of any use. -/
def readsInput : Invocation → Bool
  | run .. | dialogue _ => true
  | _ => false

/-- Does what was asked for, with files as `readFile` finds them, and the given input. On a
terminal, which can show colors, diagnostics are colored. -/
def perform (readFile : String → FileReading) (input : String) (colored : Bool) (fuel : Nat) :
    Invocation → Report
  | usage => ⟨.status 1, usageText ++ "\n", ""⟩
  | illegalLimit => ⟨.status 1, "--max-steps expects an integer\n", ""⟩
  | unknown name => ⟨.status 1, "Unknown command: " ++ name ++ "\n", ""⟩
  | parse options path =>
    let (exit, entries) := withProgram path (readFile path) printOutline
    .ofEntries (viewOf options colored) exit entries
  | run options path =>
    let bounds : Bounds := ⟨options.limit, fuel⟩
    let (exit, entries) := withProgram path (readFile path) (runProgram bounds input)
    .ofEntries (viewOf options colored) exit entries
  | dialogue options =>
    let (ending, d) := (Dialogue.start input).lead ⟨options.limit, fuel⟩
    .ofEntries (viewOf options colored) (exitOf ending) d.entries

end Invocation

end Offside

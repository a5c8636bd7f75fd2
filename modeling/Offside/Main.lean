import Offside.Command

/-!
# The program

The part of the command line that acts: it reads the file that is asked for and the input, and
writes the report. The input is read to its end before anything is done.
-/

namespace Offside.Main

/-- What the system says about a file that cannot be read. -/
def reason : IO.Error → String
  | .noFileOrDirectory _ _ details | .permissionDenied _ _ details
  | .inappropriateType _ _ details | .invalidArgument _ _ details => details.capitalize
  | error => toString error

/-- Reads a file. -/
def readFile (path : String) : IO FileReading := do
  match ← (IO.FS.readBinFile path).toBaseIO with
  | .ok bytes => return .ofBytes bytes
  | .error error => return .unreadable (reason error)

/-- Reads what is left of the input. -/
partial def readInput (input : IO.FS.Stream) (text : String) : IO String := do
  let line ← input.getLine
  if line.isEmpty then return text else readInput input (text ++ line)

end Offside.Main

open Offside in
/-- Does what the arguments ask for. -/
def main (args : List String) : IO UInt32 := do
  let invocation := Invocation.ofArgs args
  let reading ←
    match invocation.path? with
    | some path => Main.readFile path
    | none => pure .undecodable
  let input ← if invocation.readsInput then Main.readInput (← IO.getStdin) "" else pure ""
  let output ← IO.getStdout
  let errorOutput ← IO.getStderr
  let report := invocation.perform (fun _ => reading) input (← output.isTty) Bounds.ampleFuel
  output.putStr report.output
  errorOutput.putStr report.errorOutput
  match report.exit with
  | .status code => return code.toUInt32
  | .broken b =>
    errorOutput.putStrLn (b.message?.getD "the program is not UTF-8 text")
    return 1
  | .unfinished => return 2

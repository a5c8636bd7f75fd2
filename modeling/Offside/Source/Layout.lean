import Offside.Source.Line
import Offside.Text.Indent
import Offside.Text.Lines
import Offside.Token.Line

/-!
# Reading programs

A program is read line by line. Between two lines the reader knows its **progress**: the row of
the next line, the statements that the innermost open block holds so far, and the blocks that
are open around it. A block opens below a heading, one level deeper than the heading, and is
closed by the first line that is indented less; a line that is indented more than the innermost
block is an error, and so is a block that is closed without a statement in it.

`Progress.feed` takes one line, and `Program.ofLines` is a fold of it over all lines, so what
is read, and what is reported, up to a line depends on the lines up to there alone. Blank lines
count as rows and are otherwise skipped.
-/

namespace Offside

/-- An open block, seen from outside: its heading, the colon behind that, and the statements in
front of it in the block around it, last first. -/
structure Level where
  heading : Heading
  colon : Token
  before : List Statement

/-- How far a program is read: the row of the next line, the statements of the innermost block,
last first, and the open blocks, innermost first. -/
structure Progress where
  row : Nat
  statements : List Statement
  levels : List Level

namespace Progress

/-- Nothing read yet. -/
def start : Progress := ⟨0, [], []⟩

/-- Closes blocks until no more than `depth` are open, in front of the line at `next`, or at the
end of the input. -/
def close (next : Option Nat) (depth : Nat) :
    List Level → List Statement → Except Failure (List Statement × List Level)
  | [], statements => .ok (statements, [])
  | level :: outer, statements =>
    if outer.length < depth then .ok (statements, level :: outer)
    else if statements.isEmpty then .error (.atToken (.missingBlock next) level.colon)
    else
      let body := Body.mk (some level.colon.row) statements.reverse
      close next depth outer (level.heading.complete body :: level.before)

/-- The complaint about a line that is indented `found` levels where only `depth` blocks are
open. -/
def indentationCause (depth found : Nat) : Cause :=
  if depth = 0 then .indentedAtTop found else .indentedTooFar depth found

/-- Adds what a line holds to the innermost block. A heading opens a block, if the nesting limit
leaves room for it. -/
def add (row : Nat) (levels : List Level) :
    LineContent × List Statement → Except Failure Progress
  | (.statement statement, before) => .ok ⟨row + 1, statement :: before, levels⟩
  | (.heading heading colon, before) =>
    if levels.length < nestingLimit then .ok ⟨row + 1, [], ⟨heading, colon, before⟩ :: levels⟩
    else .error (.unplaced .nestedTooDeeplyToRead)

/-- Takes the next line. -/
def feed (p : Progress) (line : String) : Except Failure Progress :=
  let text := line.toList
  let depth := Text.indentLevel text
  if Text.isBlankText text then .ok { p with row := p.row + 1 }
  else if p.levels.length < depth then
    .error (.diagnosed ⟨indentationCause p.levels.length depth, some p.row, some 0⟩)
  else do
    let (statements, levels) ← close (some p.row) depth p.levels p.statements
    let scanned ← TokenLine.scan p.row text
    let content ← LineContent.read ⟨scanned.stop, nestingLimit - depth⟩ statements scanned.tokens
    add p.row levels content

/-- Takes the end of the input, which closes all blocks. -/
def finish (p : Progress) : Except Failure Program := do
  let (statements, _) ← close none 0 p.levels p.statements
  return ⟨statements.reverse⟩

end Progress

/-- Reads a program from its lines. -/
def Program.ofLines (lines : List String) : Except Failure Program := do
  (← lines.foldlM Progress.feed .start).finish

/-- Reads a program from its text. -/
def Program.ofSource (source : String) : Except Failure Program :=
  ofLines (Text.lines source)

/-- Reads a line that holds a single expression and nothing else. -/
def Expr.ofLine (line : String) : Except Failure Expr := do
  let scanned ← TokenLine.scan 0 line.toList
  let cx : LineContext := ⟨scanned.stop, nestingLimit⟩
  let (expr, rest) ← Expr.read cx scanned.tokens
  cx.finish rest
  return expr

end Offside

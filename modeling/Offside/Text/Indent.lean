/-!
# Indentation

How deep a line is indented. Only the tabs and spaces in front of the line count: every tab is
one level, and every four spaces are one level, wherever in the margin they stand.
-/

namespace Offside.Text

/-- The characters that a margin is made of. -/
def isMargin (c : Char) : Bool :=
  c == '\t' || c == ' '

/-- The tabs and spaces in front of a line. -/
def margin (line : List Char) : List Char :=
  line.takeWhile isMargin

/-- The number of **levels** a line is indented by: its tabs, and one for every four of its
spaces. Fewer than four spaces left over count for nothing. -/
def indentLevel (line : List Char) : Nat :=
  (margin line).count '\t' + (margin line).count ' ' / 4

end Offside.Text

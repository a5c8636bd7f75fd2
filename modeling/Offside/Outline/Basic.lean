import Offside.Numeral.Decimal

/-!
# Outlines

An **outline** is a tree of headed lines, printed by indentation. Each node takes one line, with
its head and its fields. What is below a node is printed further in: one level for an item, and
for a part that has a label the label on a line of its own, one level in, and the part two
levels in. A level is two spaces.

Numbers keep their value in an outline until it is printed, since a number that is too long to
be written makes the whole outline unprintable.
-/

namespace Offside

/-- What a field of an outline says. -/
inductive FieldValue
  | text (content : String)
  | number (value : Int)
  deriving DecidableEq, Repr

namespace FieldValue

/-- The text of a field. -/
def render : FieldValue → String
  | text content => content
  | number value => Numeral.render value

/-- Whether a field can be written within the limit on numbers. -/
def isWritable : FieldValue → Bool
  | text _ => true
  | number value => value.natAbs < Numeral.bound

end FieldValue

/-- Trees of headed lines. The parts below a node have labels or are plain items. -/
inductive Outline
  | node (head : String) (fields : List (String × FieldValue))
      (parts : List (Option String × Outline))

namespace Outline

/-- The spaces in front of a line so many levels in. -/
def indentation (level : Nat) : String :=
  String.ofList (List.replicate (2 * level) ' ')

/-- The line of a node, with its head and its fields. -/
def headLine (level : Nat) (head : String) (fields : List (String × FieldValue)) : String :=
  indentation level ++
    String.intercalate " " (head :: fields.map fun (key, value) => key ++ "=" ++ value.render)

mutual

/-- The lines of an outline, so many levels in. -/
def lines (level : Nat) : Outline → List String
  | node head fields parts => headLine level head fields :: partLines level parts

/-- The lines of the parts below a node that is so many levels in. -/
def partLines (level : Nat) : List (Option String × Outline) → List String
  | [] => []
  | (some label, part) :: rest =>
    (indentation (level + 1) ++ label ++ ":") :: lines (level + 2) part ++ partLines level rest
  | (none, part) :: rest => lines (level + 1) part ++ partLines level rest

end

/-- The text of an outline. -/
def render (outline : Outline) : String :=
  String.intercalate "\n" (outline.lines 0)

mutual

/-- Whether all numbers of an outline can be written. -/
def isWritable : Outline → Bool
  | node _ fields parts => fields.all (fun field => field.2.isWritable) && areWritable parts

/-- Whether all numbers of the parts of an outline can be written. -/
def areWritable : List (Option String × Outline) → Bool
  | [] => true
  | (_, part) :: rest => isWritable part && areWritable rest

end

/-- The text of an outline, if its numbers can be written. -/
def write (outline : Outline) : Except Breakdown String :=
  if outline.isWritable then .ok outline.render else .error .valueTooLong

mutual

/-- The number of nodes on the longest way down an outline. -/
def depth : Outline → Nat
  | node _ _ parts => partsDepth parts + 1

/-- The depth of the deepest part. -/
def partsDepth : List (Option String × Outline) → Nat
  | [] => 0
  | (_, part) :: rest => max (depth part) (partsDepth rest)

end

/-- How deep an outline may be to be printed.

This stands in for the limit on recursion of the host language. The printer calls itself for every
part, and once more for the list that an item stands in, so a level of statements costs it two calls
where a labelled part costs one; here every node counts for one. -/
def printingLimit : Nat := 1000

end Outline

end Offside

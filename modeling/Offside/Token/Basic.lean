import Offside.Token.Kind

/-!
# Words and tokens

A **word** is a lexeme with its kind, and a **token** is a word at its place in the program.
What a program means depends on its words alone; the places are for diagnostics and for the
line numbers in the syntax tree. Places count from zero, a column in the line without the white
space at its ends.
-/

namespace Offside

/-- A lexeme and its kind. -/
structure Word where
  lexeme : String
  kind : Kind
  deriving DecidableEq, Repr

/-- A word and where it stands. -/
structure Token extends Word where
  row : Nat
  column : Nat
  deriving DecidableEq, Repr

/-- How a diagnostic says which word it found. -/
def Word.describe (word : Word) : String :=
  match word.kind with
  | .endOfLine => "end of line"
  | kind => kind.name ++ " '" ++ word.lexeme ++ "'"

/-- A word in short: its kind, and its lexeme where the kind leaves that open. -/
def Word.summary (word : Word) : String :=
  match word.kind with
  | .integer | .identifier => word.kind.name ++ "(" ++ word.lexeme ++ ")"
  | kind => kind.name

/-- The token that closes a line of which nothing is left. -/
def Token.closing (row column : Nat) : Token where
  lexeme := ";"
  kind := .endOfLine
  row := row
  column := column

end Offside

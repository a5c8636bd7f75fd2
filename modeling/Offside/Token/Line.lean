import Offside.Token.Place

/-!
# The tokens of a line

Scanning cuts a line into tokens from left to right. White space separates tokens and is
skipped; elsewhere the next lexeme is the longest one that begins there (`extent`). Keywords
are recognised in any case and take their lower-case spelling. A character that begins no
lexeme fails the line, at that character.

The columns of the tokens count from the first character that is not white space, since a line
is scanned without the white space at its ends. Every line ends in a token of its own, which
stands behind its last character and is kept apart from the tokens that are written.
-/

namespace Offside

/-- The tokens written on a line, and the token that ends it. -/
structure TokenLine where
  tokens : List Token
  stop : Token
  deriving DecidableEq, Repr

namespace TokenLine

/-- All tokens of a line, the closing one last. -/
def toList (line : TokenLine) : List Token :=
  line.tokens ++ [line.stop]

/-- The operators of two characters. -/
def isPair : Char → Char → Bool
  | ':', '=' | '<', '=' | '>', '=' | '=', '=' | '/', '=' | '.', '.' => true
  | _, _ => false

/-- How many of the characters behind `c` form one lexeme with it: the rest of a number, the
rest of a name, or the second character of an operator. -/
def extent (c : Char) (cs : List Char) : Nat :=
  if c.isDigit then (cs.takeWhile Char.isDigit).length
  else if c.isAlpha then (cs.takeWhile Kind.isNameChar).length
  else
    match cs with
    | d :: _ => if isPair c d then 1 else 0
    | [] => 0

/-- The lexeme of a piece of text: its lower-case spelling if that is a keyword, and else the
text itself. -/
def lexemeOf (text : List Char) : String :=
  let lower := String.ofList (text.map Char.toLower)
  if lower ∈ Kind.keywords then lower else String.ofList text

/-- The tokens of a text that begins at the given column. -/
def scanFrom (row column : Nat) : List Char → Except Failure (List Token)
  | [] => .ok []
  | c :: cs =>
    if Text.isBlank c then scanFrom row (column + 1) cs
    else
      match Token.ofLexeme row column (lexemeOf (c :: cs.take (extent c cs))) with
      | .error e => .error e
      | .ok token =>
        match scanFrom row (column + 1 + extent c cs) (cs.drop (extent c cs)) with
        | .error e => .error e
        | .ok tokens => .ok (token :: tokens)
termination_by cs => cs.length
decreasing_by
  · simp
  · simp only [List.length_drop, List.length_cons]; omega

/-- The tokens of a line of a program. -/
def scan (row : Nat) (line : List Char) : Except Failure TokenLine :=
  let text := Text.trim line
  match scanFrom row 0 text with
  | .error e => .error e
  | .ok tokens => .ok ⟨tokens, .closing row text.length⟩

/-- The tokens of a line at any row. Before the first row there is no place for a token, not
even for the one that ends an empty line. -/
def scanAt (row : Int) (line : List Char) : Except Failure TokenLine :=
  if row < 0 then .error (.diagnosed ⟨.negativePlace row 0, some 0, some 0⟩)
  else scan row.toNat line

end TokenLine

end Offside

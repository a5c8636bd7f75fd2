/-!
# Kinds of tokens

The **kinds** of tokens and the lexemes that belong to each. Every kind but two has one fixed
lexeme: an operator, a punctuation mark or a keyword. The other two are classes of lexemes,
the integer literals and the identifiers. `Kind.classify` says which kind a lexeme has, if it
is a legal lexeme at all; keywords are taken in their lower-case spelling.
-/

namespace Offside

/-- The kinds of tokens. A line ends in a token of kind `endOfLine`, written or implied. -/
inductive Kind
  | add
  | subtract
  | multiply
  | divide
  | leftParen
  | rightParen
  | colon
  | assign
  | range
  | lt
  | le
  | gt
  | ge
  | eq
  | ne
  | eqEq
  | endOfLine
  | letWord
  | displayWord
  | inputWord
  | ifWord
  | elifWord
  | elseWord
  | whileWord
  | forWord
  | inWord
  | integer
  | identifier
  deriving DecidableEq, Repr

namespace Kind

/-- All kinds. -/
def all : List Kind :=
  [add, subtract, multiply, divide, leftParen, rightParen, colon, assign, range, lt, le, gt, ge,
    eq, ne, eqEq, endOfLine, letWord, displayWord, inputWord, ifWord, elifWord, elseWord,
    whileWord, forWord, inWord, integer, identifier]

/-- The name that a kind goes by in diagnostics. -/
def name : Kind → String
  | add => "ADD"
  | subtract => "SUBTRACT"
  | multiply => "MULTIPLY"
  | divide => "DIVIDE"
  | leftParen => "LEFT_PAREN"
  | rightParen => "RIGHT_PAREN"
  | colon => "COLON"
  | assign => "ASSIGN"
  | range => "RANGE"
  | lt => "LT"
  | le => "LE"
  | gt => "GT"
  | ge => "GE"
  | eq => "EQ"
  | ne => "NE"
  | eqEq => "EQEQ"
  | endOfLine => "EOL"
  | letWord => "LET"
  | displayWord => "DISPLAY"
  | inputWord => "INPUT"
  | ifWord => "IF"
  | elifWord => "ELIF"
  | elseWord => "ELSE"
  | whileWord => "WHILE"
  | forWord => "FOR"
  | inWord => "IN"
  | integer => "INT_LIT"
  | identifier => "IDENTIFIER"

/-- The one lexeme of a kind; the integer literals and the identifiers have no single one. -/
def spelling? : Kind → Option String
  | add => some "+"
  | subtract => some "-"
  | multiply => some "*"
  | divide => some "/"
  | leftParen => some "("
  | rightParen => some ")"
  | colon => some ":"
  | assign => some ":="
  | range => some ".."
  | lt => some "<"
  | le => some "<="
  | gt => some ">"
  | ge => some ">="
  | eq => some "="
  | ne => some "/="
  | eqEq => some "=="
  | endOfLine => some ";"
  | letWord => some "let"
  | displayWord => some "display"
  | inputWord => some "input"
  | ifWord => some "if"
  | elifWord => some "elif"
  | elseWord => some "else"
  | whileWord => some "while"
  | forWord => some "for"
  | inWord => some "in"
  | integer => none
  | identifier => none

/-- The keywords. -/
def keywords : List String :=
  ["let", "display", "input", "if", "elif", "else", "while", "for", "in"]

/-- The characters that a name goes on with. -/
def isNameChar (c : Char) : Bool :=
  c.isAlphanum || c == '_'

/-- Integer literals: one ASCII digit or more. -/
def isNumeral (cs : List Char) : Bool :=
  !cs.isEmpty && cs.all Char.isDigit

/-- Names: an ASCII letter, and then ASCII letters, digits and underscores. -/
def isName : List Char → Bool
  | [] => false
  | c :: cs => c.isAlpha && cs.all isNameChar

/-- The kind that a lexeme has, if it is a legal one. -/
def classify (lexeme : String) : Option Kind :=
  match all.find? fun kind => kind.spelling? == some lexeme with
  | some kind => some kind
  | none =>
    if isNumeral lexeme.toList then some integer
    else if isName lexeme.toList then some identifier
    else none

/-- How a diagnostic says which kind it expected. -/
def describe (kind : Kind) : String :=
  match kind, kind.spelling? with
  | endOfLine, _ => "end of line"
  | _, some spelling => kind.name ++ " '" ++ spelling ++ "'"
  | _, none => kind.name

end Kind

end Offside

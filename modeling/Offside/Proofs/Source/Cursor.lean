import Offside.Source.Layout

/-!
# Reading statement by statement

The rules of the language are recursive: a statement may have a body, a body may be a block, and a
block is made of statements. The plain way of reading programs calls itself along these rules. It
keeps a **cursor**: the first line that is not read yet, and what is left of the line that was
scanned last. A statement moves the cursor to the first line that it does not own.

A line may be scanned before it is known whom it belongs to. Behind the body of a branch the next
line is looked at, for it may go on with a further clause; if it does not, then its tokens are at
hand although no statement has begun to read them. So a heading has to find out, when its body has
been read, whether the line of the heading still has something left. It asks whether the token at
hand stands on the first line that is not read yet (`Cursor.isOnLine`). The cursor keeps a record of
how that came out, for every body that was read (`BodyEnd`).

Blocks call for the reader of the blocks inside them, and there is **room** for so many of these.
Everything on one line is read as it is when programs are read line by line.
-/

namespace Offside

/-- How the reading of a body came to its end: whether the body is inline, and whether the cursor
was on its line then. -/
structure BodyEnd where
  isInline : Bool
  isOnLine : Bool
  deriving DecidableEq, Repr

/-- The lines that are not read yet, and the row of the first of them. -/
structure Ahead where
  row : Nat
  lines : List String
  deriving DecidableEq, Repr

namespace Ahead

/-- What is ahead from a row on. -/
def ofLines (lines : List String) (row : Nat) : Ahead :=
  ⟨row, lines.drop row⟩

/-- What is ahead behind the first line. -/
def next (a : Ahead) : Ahead :=
  ⟨a.row + 1, a.lines.tail⟩

/-- The row of the first line ahead, if there is one. -/
def firstRow? (a : Ahead) : Option Nat :=
  if a.lines.isEmpty then none else some a.row

/-- What is ahead when blank lines are passed over. -/
def skipBlank (a : Ahead) : Ahead where
  row := a.row + (a.lines.takeWhile fun line => Text.isBlankText line.toList).length
  lines := a.lines.dropWhile fun line => Text.isBlankText line.toList

end Ahead

/-- The token at hand on a line: the first of those that are left, or the one that ends the line. -/
def TokenLine.current (line : TokenLine) : Token :=
  line.tokens.headD line.stop

/-- Where the reader stands: the lines ahead, and what is left of the line that was scanned last.
The bodies that have been read are recorded last first. -/
structure Cursor where
  ahead : Ahead
  scanned : Option TokenLine
  bodies : List BodyEnd
  deriving DecidableEq, Repr

namespace Cursor

/-- The cursor in front of a line of a program. -/
def ofLines (lines : List String) (row : Nat) : Cursor :=
  ⟨.ofLines lines row, none, []⟩

/-- The tokens that are left of the line that was scanned last. -/
def left (c : Cursor) : List Token :=
  c.scanned.elim [] TokenLine.tokens

/-- The token at hand, once a line has been scanned. -/
def current? (c : Cursor) : Option Token :=
  c.scanned.map TokenLine.current

/-- Whether the token at hand stands on the first line that is not read yet. -/
def isOnLine (c : Cursor) : Bool :=
  c.current?.any fun token => token.row == c.ahead.row

/-- A cursor **is past** another one if fewer lines are ahead of it, or as many and fewer tokens
are left. -/
def IsPast (c c' : Cursor) : Prop :=
  c.ahead.lines.length < c'.ahead.lines.length ∨
    c.ahead.lines.length = c'.ahead.lines.length ∧ c.left.length < c'.left.length

instance (c c' : Cursor) : Decidable (c.IsPast c') :=
  inferInstanceAs (Decidable (_ ∨ _))

end Cursor

/-- A part of the reader. It moves the cursor, also when it fails. -/
abbrev Reading : Type → Type :=
  EStateM Failure Cursor

namespace Reading

variable {σ α : Type}

/-! ### On one line -/

/-- The token at hand. -/
def current : Reading Token := fun c =>
  match c.current? with
  | some token => .ok token c
  | none => .error (.broken .noTokens) c

/-- Scans the first line ahead, which stays there. -/
def scan : Reading Unit := fun c =>
  match c.ahead.lines with
  | [] => .error (.broken .noTokens) c
  | line :: _ =>
    match TokenLine.scan c.ahead.row line.toList with
    | .error failure => .error failure c
    | .ok scanned => .ok () { c with scanned }

/-- Reads from what is left of the line that was scanned last. -/
def onLine (room : Nat) (read : LineContext → List Token → Except Failure (α × List Token)) :
    Reading α := fun c =>
  match c.scanned with
  | none => .error (.broken .noTokens) c
  | some line =>
    match read ⟨line.stop, room⟩ line.tokens with
    | .error failure => .error failure c
    | .ok (a, rest) => .ok a { c with scanned := some { line with tokens := rest } }

/-- Takes a token of the given kind. -/
def expect (room : Nat) (kind : Kind) : Reading Token :=
  onLine room fun cx => cx.expect kind

/-- Reads the end of a line, and moves to the next. -/
def endLine (room : Nat) : Reading Unit := do
  onLine room fun cx tokens => (cx.finish tokens).map fun _ => ((), tokens.tail)
  modify fun c => { c with ahead := c.ahead.next }

/-- Reads the end of the line if the cursor is still on it. -/
def leaveLine (room : Nat) : Reading Unit := do
  if (← get).isOnLine then endLine room

/-- Passes over blank lines. -/
def skipBlank : Reading Unit :=
  modify fun c => { c with ahead := c.ahead.skipBlank }

/-! ### Rounds -/

/-- Does round after round until one of them gives a result. No round leaves the cursor where it
was. -/
def loop (round : σ → Reading (σ ⊕ α)) (s : σ) : Reading α := fun c =>
  match round s c with
  | .error failure c' => .error failure c'
  | .ok (.inr a) c' => .ok a c'
  | .ok (.inl s') c' => if c'.IsPast c then loop round s' c' else .error (.broken .noTokens) c'
termination_by c => (c.ahead.lines.length, c.left.length)
decreasing_by
  rename_i h
  rcases h with h | ⟨h, h'⟩
  · exact .left _ _ h
  · rw [h]
    exact .right _ h'

/-! ### Bodies -/

section

variable (room level : Nat) (block : Reading (List Statement))

/-- Records the end of a body. -/
def noteBody (isInline : Bool) : Reading Unit :=
  modify fun c => { c with bodies := ⟨isInline, c.isOnLine⟩ :: c.bodies }

/-- Reads a body that is a block, from the end of the line behind its colon. -/
def blockBody (colon : Token) : Reading Body := do
  endLine room
  let statements ← block
  if statements.isEmpty then
    throw (.atToken (.missingBlock (← get).ahead.firstRow?) colon)
  else
    noteBody false
    return .mk (some colon.row) statements.reverse

/-- Reads a body that is one simple statement on the line of its colon. -/
def inlineBody (colon : Token) : Reading Body := do
  let statement ← onLine room Statement.readSimple
  noteBody true
  return .mk (some colon.row) [statement]

/-- Reads a colon and the body behind it. -/
def body : Reading Body := do
  let colon ← expect room .colon
  if (← current).kind = .endOfLine then blockBody room block colon
  else inlineBody room colon

/-! ### Branches -/

/-- The kind of the token at hand, if that begins a further clause of a branch. -/
def clauseWord : Reading (Option Kind) := do
  let kind := (← current).kind
  return if kind = .elifWord ∨ kind = .elseWord then some kind else none

/-- Looks for a further clause at the beginning of the first line ahead, if that is at the level. -/
def clauseAt : List String → Reading (Option Kind)
  | [] => return none
  | line :: _ =>
    if Text.indentLevel line.toList = level then do
      scan
      clauseWord
    else return none

/-- Looks for a further clause at the beginning of the next line that is not blank. -/
def clauseBelow : Reading (Option Kind) := do
  skipBlank
  clauseAt level (← get).ahead.lines

/-- Looks for a further clause: behind an inline body on the line, or else on the next one. -/
def nextClause : Reading (Option Kind) := do
  if (← get).isOnLine then
    match ← clauseWord with
    | some kind => return some kind
    | none =>
      endLine room
      clauseBelow level
  else clauseBelow level

/-- Reads a guarded clause behind its keyword, and what comes behind the clause: the keyword of
the next guarded one, or all the rest of the branch. -/
def clause (line : Option Int) (earlier : Clauses) : Reading (Clauses ⊕ Statement) := do
  let condition ← onLine room Condition.read
  let inner ← body room block
  let clauses := earlier.append (.guarded condition inner .done)
  match ← nextClause room level with
  | none => return .inr (.branch line clauses)
  | some .elifWord =>
    let _ ← expect room .elifWord
    return .inl clauses
  | some _ =>
    let _ ← expect room .elseWord
    let last ← body room block
    leaveLine room
    return .inr (.branch line (clauses.append (.otherwise last)))

end

end Reading

/-- Reads the head of a loop that tests a condition, from behind its keyword. -/
def Heading.readWhile (line : Option Int) (cx : LineContext) (tokens : List Token) :
    Except Failure (Heading × List Token) := do
  let (condition, tokens) ← Condition.read cx tokens
  return (.whileLoop line condition, tokens)

/-- Reads the head of a loop that counts, from behind its keyword. -/
def Heading.readFor (line : Option Int) (cx : LineContext) (tokens : List Token) :
    Except Failure (Heading × List Token) := do
  let (name, tokens) ← cx.expect .identifier tokens
  let (_, tokens) ← cx.expect .inWord tokens
  let (lower, tokens) ← Expr.read cx tokens
  let (_, tokens) ← cx.expect .range tokens
  let (upper, tokens) ← Expr.read cx tokens
  return (.forLoop line name.lexeme lower upper, tokens)

namespace Reading

/-! ### Statements -/

section

variable (room level : Nat) (block : Reading (List Statement))

/-- Reads a loop: its keyword, its head and its body. -/
def loopStatement (keyword : Kind)
    (head : LineContext → List Token → Except Failure (Heading × List Token)) :
    Reading Statement := do
  let _ ← expect room keyword
  let heading ← onLine room head
  let inner ← body room block
  leaveLine room
  return heading.complete inner

/-- Reads a branch: its first keyword, and clause after clause. -/
def branchStatement (line : Option Int) : Reading Statement := do
  let _ ← expect room .ifWord
  loop (clause room level block line) .done

/-- Reads a simple statement and the end of its line. -/
def simpleStatement : Reading Statement := do
  let simple ← onLine room Statement.readSimple
  endLine room
  return simple

/-- Reads a statement from its first token on. -/
def statementFrom (first : Token) : Reading Statement :=
  match first.kind with
  | .ifWord => branchStatement room level block (some first.row)
  | .whileWord => loopStatement room block .whileWord (Heading.readWhile (some first.row))
  | .forWord => loopStatement room block .forWord (Heading.readFor (some first.row))
  | .elifWord | .elseWord => throw (.atToken (.strayClause first.lexeme) first)
  | _ => simpleStatement room

/-- Reads a statement that begins on the first line ahead, where `block` reads the blocks inside
it. -/
def statementWith : Reading Statement := do
  scan
  statementFrom room level block (← current)

/-- Reads a further statement of a block at the level, behind those that are listed last first, or
finds that the block is at its end in front of the lines. -/
def itemAt (statement : Reading Statement) (before : List Statement) :
    List String → Reading (List Statement ⊕ List Statement)
  | [] => return .inr before
  | line :: _ =>
    if Text.indentLevel line.toList < level then return .inr before
    else if level < Text.indentLevel line.toList then do
      throw (.diagnosed ⟨Progress.indentationCause level (Text.indentLevel line.toList),
        some (← get).ahead.row, some 0⟩)
    else return .inl ((← statement) :: before)

/-- Reads a further statement of a block, or finds that the block is at its end, behind blank
lines. -/
def item (statement : Reading Statement) (before : List Statement) :
    Reading (List Statement ⊕ List Statement) := do
  skipBlank
  itemAt level statement before (← get).ahead.lines

end

/-- Reads the statements at a level, last first, with room for so many blocks in one another. -/
def statements : (room level : Nat) → Reading (List Statement)
  | 0, level =>
    loop (item level (statementWith 0 level (throw (.unplaced .nestedTooDeeplyToRead)))) []
  | room + 1, level =>
    loop (item level (statementWith (room + 1) level (statements room (level + 1)))) []

/-- Reads the statements of a block below a heading at the level. -/
def block : (room level : Nat) → Reading (List Statement)
  | 0, _ => throw (.unplaced .nestedTooDeeplyToRead)
  | room + 1, level => statements room (level + 1)

/-- Reads a statement at a level. -/
def statement (room level : Nat) : Reading Statement :=
  statementWith room level (block room level)

theorem statements_eq (room level : Nat) :
    statements room level = loop (item level (statement room level)) [] := by
  cases room <;> rfl

/-- Reads a whole program. -/
def program : Reading Program := do
  return ⟨(← statements nestingLimit 0).reverse⟩

end Reading

end Offside

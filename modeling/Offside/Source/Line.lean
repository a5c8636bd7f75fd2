import Offside.Source.Expression
import Offside.Tree.Statement

/-!
# Reading a line

A line holds either a whole statement or the **heading** of one: everything up to a colon that
ends the line, so that the statement's body is the indented block below. The body of a heading
may instead be a single simple statement behind the colon. Behind such an inline body of a
guarded clause the line may go on with the next clause of the same branch.

A line ends with its last token or with one semicolon behind that. If two semicolons stand in a
row there, the line ends with the first, and whatever follows the second is not read at all.
-/

namespace Offside

/-- A statement but for its last body. -/
inductive Heading
  | whileLoop (line : Option Int) (condition : Condition)
  | forLoop (line : Option Int) (name : String) (first last : Expr)
  /-- A guarded clause behind the earlier clauses of its branch. -/
  | guarded (line : Option Int) (earlier : Clauses) (condition : Condition)
  /-- A clause without a guard behind the earlier clauses of its branch. -/
  | otherwise (line : Option Int) (earlier : Clauses)

/-- The statement that a heading becomes with its last body. -/
def Heading.complete (body : Body) : Heading → Statement
  | whileLoop line condition => .whileLoop line condition body
  | forLoop line name first last => .forLoop line name first last body
  | guarded line earlier condition =>
    .branch line (earlier.append (.guarded condition body .done))
  | otherwise line earlier => .branch line (earlier.append (.otherwise body))

/-- What a line holds: a statement, or a heading and the colon behind it. -/
inductive LineContent
  | statement (statement : Statement)
  | heading (heading : Heading) (colon : Token)

/-- Reads the end of a line. -/
def LineContext.finish (cx : LineContext) (tokens : List Token) : Except Failure Unit :=
  match tokens with
  | [] => .ok ()
  | token :: rest =>
    if token.kind = .endOfLine then
      if (cx.current rest).kind = .endOfLine then .ok ()
      else .error (.atToken (.afterEnd (cx.current rest).toWord) (cx.current rest))
    else .error (.atToken (.expected .endOfLine token.toWord) token)

/-- Reads a comparison of two expressions. -/
def Condition.read (cx : LineContext) (tokens : List Token) :
    Except Failure (Condition × List Token) :=
  match Expr.read cx tokens with
  | .error e => .error e
  | .ok (left, tokens) =>
    match Relation.ofKind? (cx.current tokens).kind with
    | none =>
      .error (.atToken (.expectedRelation (cx.current tokens).toWord) (cx.current tokens))
    | some relation =>
      match Expr.read cx tokens.tail with
      | .error e => .error e
      | .ok (right, rest) =>
        .ok (.compare (some (cx.current tokens).row) relation left right, rest)

/-- Reads a simple statement. -/
def Statement.readSimple (cx : LineContext) (tokens : List Token) :
    Except Failure (Statement × List Token) :=
  let first := cx.current tokens
  match first.kind with
  | .letWord => do
    let (name, tokens) ← cx.expect .identifier tokens.tail
    let (_, tokens) ← cx.expect .assign tokens
    let (value, tokens) ← Expr.read cx tokens
    return (.assign (some first.row) name.lexeme value, tokens)
  | .displayWord => do
    let (value, tokens) ← Expr.read cx tokens.tail
    return (.display (some first.row) value, tokens)
  | .inputWord => do
    let (name, tokens) ← cx.expect .identifier tokens.tail
    return (.input (some first.row) name.lexeme, tokens)
  | .ifWord | .whileWord | .forWord => .error (.atToken (.compoundAfterColon first.lexeme) first)
  | _ => .error (.atToken (.expectedStatement first.toWord) first)

/-- Reads a colon and what follows it: the inline body, or nothing but the end of the line. -/
def Body.readInline (cx : LineContext) (tokens : List Token) :
    Except Failure (Token × Option (Body × List Token)) := do
  let (colon, tokens) ← cx.expect .colon tokens
  if (cx.current tokens).kind = .endOfLine then
    cx.finish tokens
    return (colon, none)
  else
    let (statement, tokens) ← Statement.readSimple cx tokens
    return (colon, some (.mk (some colon.row) [statement], tokens))

/-- Reads the body behind a heading, and the end of the line. -/
def Heading.readBody (heading : Heading) (cx : LineContext) (tokens : List Token) :
    Except Failure LineContent := do
  match ← Body.readInline cx tokens with
  | (colon, none) => return .heading heading colon
  | (_, some (body, tokens)) =>
    cx.finish tokens
    return .statement (heading.complete body)

/-! ### What is left over -/

theorem LineContext.suffix_of_expect {cx : LineContext} {kind : Kind} {tokens rest : List Token}
    {token : Token} (h : cx.expect kind tokens = .ok (token, rest)) : rest <:+ tokens := by
  unfold expect at h
  split at h
  · cases h
    exact List.tail_suffix tokens
  · cases h

theorem Condition.suffix_of_read {cx : LineContext} {tokens rest : List Token} {c : Condition}
    (h : read cx tokens = .ok (c, rest)) : rest <:+ tokens ∧ rest.length < tokens.length := by
  unfold read at h
  split at h
  · cases h
  · next left after hleft =>
    have hl := Expr.suffix_of_read hleft
    split at h
    · cases h
    · split at h
      · cases h
      · next right _ hright =>
        cases h
        have hr := (Expr.suffix_of_read hright).1.trans (List.tail_suffix _)
        exact ⟨hr.trans hl.1, Nat.lt_of_le_of_lt hr.length_le hl.2⟩

theorem Statement.suffix_of_readSimple {cx : LineContext} {tokens rest : List Token}
    {s : Statement} (h : readSimple cx tokens = .ok (s, rest)) : rest <:+ tokens := by
  unfold readSimple at h
  simp only [bind, Except.bind, pure, Except.pure] at h
  have hexpect := @LineContext.suffix_of_expect cx
  have hread := @Expr.suffix_of_read cx
  grind [List.IsSuffix.trans, List.tail_suffix]

theorem Body.suffix_of_readInline {cx : LineContext} {tokens rest : List Token} {colon : Token}
    {body : Body} (h : readInline cx tokens = .ok (colon, some (body, rest))) :
    rest <:+ tokens := by
  unfold readInline at h
  simp only [bind, Except.bind, pure, Except.pure] at h
  have hexpect := @LineContext.suffix_of_expect cx
  have hsimple := @Statement.suffix_of_readSimple cx
  grind [List.IsSuffix.trans]

/-! ### The clauses of a branch -/

/-- Reads the clauses of a branch from behind the keyword of a guarded one. -/
def Clauses.read (cx : LineContext) (line : Option Int) (earlier : Clauses)
    (tokens : List Token) : Except Failure LineContent :=
  match _hc : Condition.read cx tokens with
  | .error e => .error e
  | .ok (condition, behind) =>
    match _hb : Body.readInline cx behind with
    | .error e => .error e
    | .ok (colon, none) => .ok (.heading (.guarded line earlier condition) colon)
    | .ok (_, some (body, rest)) =>
      let clauses := earlier.append (.guarded condition body .done)
      match rest with
      | [] => .ok (.statement (.branch line clauses))
      | token :: tail =>
        match token.kind with
        | .elifWord => read cx line clauses tail
        | .elseWord => (Heading.otherwise line clauses).readBody cx tail
        | _ => (cx.finish (token :: tail)).map fun _ => .statement (.branch line clauses)
termination_by tokens.length
decreasing_by
  have hb := (Body.suffix_of_readInline _hb).length_le
  have hc := (Condition.suffix_of_read _hc).2
  simp only [List.length_cons] at hb
  omega

/-! ### Whole lines -/

/-- The branch that a further clause belongs to: the last statement of the block, if it is a
branch with room for a clause. It comes as its line and its clauses, with the statements before
it. Statements are listed last first. -/
def openBranch? : List Statement → Option (Option Int × Clauses × List Statement)
  | .branch line clauses :: before => if clauses.isOpen then some (line, clauses, before) else none
  | _ => none

/-- Reads a line in a block whose statements so far are `before`, last first. If the line goes
on with a branch, that branch is taken back from them. -/
def LineContent.read (cx : LineContext) (before : List Statement) (tokens : List Token) :
    Except Failure (LineContent × List Statement) :=
  let first := cx.current tokens
  match first.kind with
  | .ifWord => do
    return (← Clauses.read cx (some first.row) .done tokens.tail, before)
  | .elifWord =>
    match openBranch? before with
    | some (line, clauses, before) => do
      return (← Clauses.read cx line clauses tokens.tail, before)
    | none => .error (.atToken (.strayClause first.lexeme) first)
  | .elseWord =>
    match openBranch? before with
    | some (line, clauses, before) => do
      return (← (Heading.otherwise line clauses).readBody cx tokens.tail, before)
    | none => .error (.atToken (.strayClause first.lexeme) first)
  | .whileWord => do
    let (condition, tokens) ← Condition.read cx tokens.tail
    return (← (Heading.whileLoop (some first.row) condition).readBody cx tokens, before)
  | .forWord => do
    let (name, tokens) ← cx.expect .identifier tokens.tail
    let (_, tokens) ← cx.expect .inWord tokens
    let (lower, tokens) ← Expr.read cx tokens
    let (_, tokens) ← cx.expect .range tokens
    let (upper, tokens) ← Expr.read cx tokens
    let heading := Heading.forLoop (some first.row) name.lexeme lower upper
    return (← heading.readBody cx tokens, before)
  | _ => do
    let (simple, tokens) ← Statement.readSimple cx tokens
    cx.finish tokens
    return (.statement simple, before)

end Offside

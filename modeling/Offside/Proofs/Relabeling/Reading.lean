import Offside.Proofs.Relabeling.Basic
import Offside.Proofs.Source.Line
import Offside.Proofs.Source.ReadsBack

/-!
# Reading commutes with relabelings

A reader goes by the kinds of tokens, and takes rows, columns and names from them only to put them
into a tree or a failure. So what it reads from relabeled tokens is what it reads from the tokens,
relabeled, and so are the tokens that it leaves over and its failure. This is stated for every
reader once, and for expressions also for the frames that are open, from which `Expr.readOn` goes
on. All decisions about a line coincide then (`LineContent.read_relabel`).
-/

namespace Offside

variable (r : Relabeling)

/-! ### Expressions -/

section Row

variable (row : Nat)

private theorem Expr.relabel_number (value : Int) :
    (number (some row) value).relabel r = number (some (r.row row : Int)) value := by
  rw [← r.line_row]
  rfl

private theorem Expr.relabel_var (name : String) :
    (var (some row) name).relabel r = var (some (r.row row : Int)) (r.name name) := by
  rw [← r.line_row]
  rfl

private theorem Expr.relabel_negate (operand : Expr) :
    (negate (some row) operand).relabel r =
      negate (some (r.row row : Int)) (operand.relabel r) := by
  rw [← r.line_row]
  rfl

private theorem Expr.relabel_paren (inner : Expr) :
    (paren (some row) inner).relabel r = paren (some (r.row row : Int)) (inner.relabel r) := by
  rw [← r.line_row]
  rfl

private theorem Expr.relabel_binary (op : Operator) (left right : Expr) :
    (binary (some row) op left right).relabel r =
      binary (some (r.row row : Int)) op (left.relabel r) (right.relabel r) := by
  rw [← r.line_row]
  rfl

end Row

namespace Frame

/-- A frame with its row and its operand changed. -/
def relabel : Frame → Frame
  | opened row => opened (r.row row)
  | negate row => negate (r.row row)
  | binary row op left => binary (r.row row) op (left.relabel r)

/-- Frames are as deep as those that they are relabeled from. -/
private theorem depth_relabel (frames : List Frame) :
    depth (frames.map (relabel r)) = depth frames := by
  induction frames with
  | nil => rfl
  | cons frame rest ih =>
    have hdirect : isDirect (rest.map (relabel r)) = isDirect rest := by
      cases rest with
      | nil => rfl
      | cons next outer => cases next <;> rfl
    cases frame with
    | opened row => rw [List.map_cons, relabel, depth_opened, depth_opened, ih, hdirect]
    | negate row => exact congrArg (· + 1) ih
    | binary row op left => exact ih

/-- Which operators are completed goes by the operators alone. -/
private theorem closeOperators_relabel (op : Operator) (frames : List Frame) (value : Expr) :
    closeOperators op (frames.map (relabel r)) (value.relabel r) =
      Prod.map (List.map (relabel r)) (Expr.relabel r) (closeOperators op frames value) := by
  fun_induction closeOperators op frames value with
  | case1 value row pending left rest htight ih =>
    rw [List.map_cons, relabel, closeOperators, if_pos htight, ← Expr.relabel_binary, ih]
  | case2 value row pending left rest htight =>
    rw [List.map_cons, relabel, closeOperators, if_neg htight]
    rfl
  | case3 frames value hframes =>
    cases frames with
    | nil => rfl
    | cons frame rest =>
      cases frame with
      | binary row pending left => exact absurd rfl (hframes row pending left rest)
      | opened | negate => rfl

/-- An expression is completed up to the parenthesis with the relabeled row. -/
private theorem closeExpression_relabel (frames : List Frame) (value : Expr) :
    closeExpression (frames.map (relabel r)) (value.relabel r) =
      Prod.map (Expr.relabel r) (Option.map (Prod.map r.row (List.map (relabel r))))
        (closeExpression frames value) := by
  fun_induction closeExpression frames value with
  | case1 value => rfl
  | case2 row rest value => rfl
  | case3 row rest value ih =>
    rw [List.map_cons, relabel, closeExpression, ← Expr.relabel_negate, ih]
  | case4 row op left rest value ih =>
    rw [List.map_cons, relabel, closeExpression, ← Expr.relabel_binary, ih]

end Frame

/-- The context of a line with its last token changed. -/
def LineContext.relabel (cx : LineContext) : LineContext where
  stop := cx.stop.relabel r
  room := cx.room

namespace LineContext

variable {r} {cx : LineContext}

private theorem current_relabel (tokens : List Token) :
    (cx.relabel r).current (tokens.map (Token.relabel r)) = (cx.current tokens).relabel r := by
  cases tokens <;> rfl

/-- There is room for the same frames. -/
private theorem admits_relabel (frames : List Frame) :
    (cx.relabel r).admits (frames.map (Frame.relabel r)) = cx.admits frames := by
  rw [admits, admits, Frame.depth_relabel]
  rfl

/-- A token of a kind is found where it was found, and is missed with the relabeled complaint. -/
private theorem expect_relabel (kind : Kind) (tokens : List Token) :
    (cx.relabel r).expect kind (tokens.map (Token.relabel r)) =
      r.reading (Token.relabel r) (cx.expect kind tokens) := by
  rw [expect, expect, current_relabel, Token.kind_relabel, ← List.map_tail]
  split
  · rfl
  · exact r.result_atToken rfl

/-- A line ends where it ended. -/
private theorem finish_relabel (tokens : List Token) :
    (cx.relabel r).finish (tokens.map (Token.relabel r)) = r.result id (cx.finish tokens) := by
  cases tokens with
  | nil => rfl
  | cons token rest =>
    simp only [List.map_cons, finish, Token.kind_relabel, current_relabel]
    split
    · split
      · rfl
      · exact r.result_atToken rfl
    · exact r.result_atToken rfl

end LineContext

variable {r} {cx : LineContext}

/-- The pass over an expression takes the relabeled tokens to the relabeled result, whatever is
pending. -/
private theorem Expr.readOn_relabel (frames : List Frame) (done : Option Expr)
    (tokens : List Token) :
    readOn (cx.relabel r) (frames.map (Frame.relabel r)) (done.map (Expr.relabel r))
        (tokens.map (Token.relabel r)) =
      r.reading (Expr.relabel r) (readOn cx frames done tokens) := by
  rw [Relabeling.reading]
  fun_induction readOn cx frames done tokens with
  | case1 frames => exact r.result_atToken rfl
  | case2 frames token rest hkind b hread =>
    -- a literal of too many digits
    rw [List.map_cons, Option.map_none, readOn]
    have hlexeme := token.lexeme_relabel_of_ne r (by rw [hkind]; decide)
    simp only [Token.kind_relabel, hkind, hlexeme, hread]
    rfl
  | case3 frames token rest hkind n hread ih =>
    -- a literal
    have hlexeme := token.lexeme_relabel_of_ne r (by rw [hkind]; decide)
    rw [List.map_cons, Option.map_none,
      readOn_integer _ ((token.kind_relabel r).trans hkind) (hlexeme ▸ hread), ← ih,
      Option.map_some, relabel_number]
    rfl
  | case4 frames token rest hkind ih =>
    -- a name
    rw [List.map_cons, Option.map_none, readOn_identifier _ ((token.kind_relabel r).trans hkind),
      ← ih, Option.map_some, relabel_var, Token.lexeme_relabel_of_eq r hkind]
    rfl
  | case5 frames token rest hkind hroom ih =>
    -- a minus sign
    rw [List.map_cons, Option.map_none, readOn_subtract _ ((token.kind_relabel r).trans hkind),
      if_pos]
    · exact ih
    · exact (LineContext.admits_relabel (.negate token.row :: frames)).trans hroom
  | case6 frames token rest hkind hroom =>
    rw [List.map_cons, Option.map_none, readOn_subtract _ ((token.kind_relabel r).trans hkind),
      if_neg]
    · rfl
    · exact fun h => hroom ((LineContext.admits_relabel (.negate token.row :: frames)).symm.trans h)
  | case7 frames token rest hkind hroom ih =>
    -- a parenthesis opens
    rw [List.map_cons, Option.map_none, readOn_leftParen _ ((token.kind_relabel r).trans hkind),
      if_pos]
    · exact ih
    · exact (LineContext.admits_relabel (.opened token.row :: frames)).trans hroom
  | case8 frames token rest hkind hroom =>
    rw [List.map_cons, Option.map_none, readOn_leftParen _ ((token.kind_relabel r).trans hkind),
      if_neg]
    · rfl
    · exact fun h => hroom ((LineContext.admits_relabel (.opened token.row :: frames)).symm.trans h)
  | case9 frames token rest hinteger hidentifier hsubtract hleftParen =>
    -- a token that begins no operand
    rw [List.map_cons, Option.map_none, readOn]
    simp only [Token.kind_relabel]
    exact r.result_atToken rfl
  | case10 frames value whole hclose =>
    -- the tokens end behind the operand
    rw [List.map_nil, Option.map_some, readOn, Frame.closeExpression_relabel, hclose]
    rfl
  | case11 frames value inner opened hclose =>
    rw [List.map_nil, Option.map_some, readOn, Frame.closeExpression_relabel, hclose]
    exact r.result_atToken rfl
  | case12 frames value token rest op hop pending left hclose ih =>
    -- an operator behind the operand
    rw [List.map_cons, Option.map_some, readOn_operator _ ((token.kind_relabel r).symm ▸ hop),
      Frame.closeOperators_relabel, hclose, ← ih]
    rfl
  | case13 frames value token rest hop whole hclose =>
    -- the expression ends at a token of another kind
    rw [List.map_cons, Option.map_some, readOn]
    simp only [Token.kind_relabel, hop, Frame.closeExpression_relabel, hclose]
    rfl
  | case14 frames value token rest hop inner row outer hclose hkind ih =>
    -- a parenthesis closes
    have hclose' := Frame.closeExpression_relabel r frames value
    rw [hclose] at hclose'
    rw [List.map_cons, Option.map_some,
      readOn_rightParen _ ((token.kind_relabel r).trans hkind) hclose', ← ih, Option.map_some,
      relabel_paren]
  | case15 frames value token rest hop inner row outer hclose hkind =>
    rw [List.map_cons, Option.map_some, readOn]
    simp only [Token.kind_relabel, hop, Frame.closeExpression_relabel, hclose, hkind]
    exact r.result_atToken rfl

/-- Relabeled tokens are read as the relabeled expression. -/
private theorem Expr.read_relabel (tokens : List Token) :
    read (cx.relabel r) (tokens.map (Token.relabel r)) =
      r.reading (relabel r) (read cx tokens) :=
  readOn_relabel [] none tokens

/-! ### Parts of lines -/

/-- Relabeled tokens are read as the relabeled condition. -/
private theorem Condition.read_relabel (tokens : List Token) :
    read (cx.relabel r) (tokens.map (Token.relabel r)) =
      r.reading (relabel r) (read cx tokens) := by
  rw [read_eq_bind, read_eq_bind, Expr.read_relabel]
  refine r.bind_reading fun left behind _ => ?_
  simp only [LineContext.current_relabel, Token.kind_relabel, ← List.map_tail]
  split
  · exact r.result_atToken rfl
  · rw [Expr.read_relabel]
    refine r.bind_reading fun right rest _ => ?_
    rw [Token.row_relabel, ← r.line_row]
    rfl

/-- Relabeled tokens are read as the relabeled simple statement. -/
private theorem Statement.readSimple_relabel (tokens : List Token) :
    readSimple (cx.relabel r) (tokens.map (Token.relabel r)) =
      r.reading (relabel r) (readSimple cx tokens) := by
  simp only [readSimple, LineContext.current_relabel, Token.kind_relabel, ← List.map_tail,
    LineContext.expect_relabel, Expr.read_relabel, Token.row_relabel, ← r.line_row]
  split
  · -- `let name := value`
    refine r.bind_reading fun name behind hname => ?_
    rw [LineContext.expect_relabel]
    refine r.bind_reading fun _ after _ => ?_
    rw [Expr.read_relabel]
    refine r.bind_reading fun value rest _ => ?_
    obtain ⟨hkind, rfl, -⟩ := LineContext.expect_eq_ok_iff.mp hname
    rw [Token.lexeme_relabel_of_eq r hkind]
    rfl
  · -- `display value`
    exact r.bind_reading fun value rest _ => rfl
  · -- `input name`
    refine r.bind_reading fun name behind hname => ?_
    obtain ⟨hkind, rfl, -⟩ := LineContext.expect_eq_ok_iff.mp hname
    rw [Token.lexeme_relabel_of_eq r hkind]
    rfl
  · next hkind =>
    exact r.result_atToken (congrArg _ (Token.lexeme_relabel_of_ne r (by rw [hkind]; decide)))
  · next hkind =>
    exact r.result_atToken (congrArg _ (Token.lexeme_relabel_of_ne r (by rw [hkind]; decide)))
  · next hkind =>
    exact r.result_atToken (congrArg _ (Token.lexeme_relabel_of_ne r (by rw [hkind]; decide)))
  · exact r.result_atToken rfl

/-- The result of reading behind a colon, relabeled. -/
def Relabeling.inline (r : Relabeling) :
    Token × Option (Body × List Token) → Token × Option (Body × List Token) :=
  Prod.map (Token.relabel r) (Option.map (Prod.map (Body.relabel r) (List.map (Token.relabel r))))

/-- Relabeled tokens are read as the relabeled inline body, if there is one. -/
private theorem Body.readInline_relabel (tokens : List Token) :
    readInline (cx.relabel r) (tokens.map (Token.relabel r)) =
      r.result r.inline (readInline cx tokens) := by
  rw [readInline, readInline, LineContext.expect_relabel]
  refine r.bind_reading fun colon behind _ => ?_
  simp only [LineContext.current_relabel, Token.kind_relabel]
  split
  · rw [LineContext.finish_relabel]
    exact r.bind_result fun _ _ => rfl
  · rw [Statement.readSimple_relabel]
    refine r.bind_reading fun statement rest _ => ?_
    rw [Token.row_relabel, ← r.line_row]
    rfl

/-! ### Headings and clauses -/

variable (r) in
/-- A heading with its lines and names changed. -/
def Heading.relabel : Heading → Heading
  | whileLoop line condition => whileLoop (line.map r.line) (condition.relabel r)
  | forLoop line name first last =>
    forLoop (line.map r.line) (r.name name) (first.relabel r) (last.relabel r)
  | guarded line earlier condition =>
    guarded (line.map r.line) (earlier.relabel r) (condition.relabel r)
  | otherwise line earlier => otherwise (line.map r.line) (earlier.relabel r)

/-- A relabeled heading is completed to the relabeled statement. -/
theorem Heading.complete_relabel (heading : Heading) (body : Body) :
    (heading.relabel r).complete (body.relabel r) = (heading.complete body).relabel r := by
  cases heading with
  | whileLoop line condition => rfl
  | forLoop line name first last => rfl
  | guarded line earlier condition =>
    exact congrArg (Statement.branch _)
      (Clauses.relabel_append r earlier (.guarded condition body .done)).symm
  | otherwise line earlier =>
    exact congrArg (Statement.branch _)
      (Clauses.relabel_append r earlier (.otherwise body)).symm

variable (r) in
/-- What a line holds, with its lines, places and names changed. -/
def LineContent.relabel : LineContent → LineContent
  | statement s => statement (s.relabel r)
  | heading head colon => heading (head.relabel r) (colon.relabel r)

private theorem Heading.readBody_relabel (heading : Heading) (tokens : List Token) :
    (heading.relabel r).readBody (cx.relabel r) (tokens.map (Token.relabel r)) =
      r.result (LineContent.relabel r) (heading.readBody cx tokens) := by
  rw [readBody_eq_bind, readBody_eq_bind, Body.readInline_relabel]
  refine r.bind_result fun result _ => ?_
  obtain ⟨colon, _ | ⟨body, rest⟩⟩ := result
  · rfl
  · simp only [Relabeling.inline, Prod.map, Option.map_some, goOn, LineContext.finish_relabel]
    refine r.bind_result fun _ _ => ?_
    rw [complete_relabel]
    rfl

/-- Relabeled tokens are read as the relabeled clauses, behind relabeled ones. -/
private theorem Clauses.read_relabel (line : Option Int) (earlier : Clauses) (tokens : List Token) :
    read (cx.relabel r) (line.map r.line) (earlier.relabel r) (tokens.map (Token.relabel r)) =
      r.result (LineContent.relabel r) (read cx line earlier tokens) := by
  induction hlength : tokens.length using Nat.strongRecOn generalizing earlier tokens with
  | ind length ih =>
    rw [read_eq_bind, read_eq_bind, Condition.read_relabel]
    refine r.bind_reading fun condition behind hcondition => ?_
    simp only [Body.readInline_relabel]
    refine r.bind_result fun result hinline => ?_
    obtain ⟨colon, _ | ⟨body, rest⟩⟩ := result
    · rfl
    · -- behind an inline body a further clause may follow, and fewer tokens are left
      have hlater : (earlier.relabel r).append
          (.guarded (condition.relabel r) (body.relabel r) .done) =
            (earlier.append (.guarded condition body .done)).relabel r :=
        (relabel_append r earlier (.guarded condition body .done)).symm
      have hfewer := (Body.suffix_of_readInline hinline).length_le
      have hfewer' := (Condition.suffix_of_read hcondition).2
      cases rest with
      | nil =>
        simp only [goOn, Relabeling.inline, Prod.map, Option.map_some, List.map_nil, hlater]
        rfl
      | cons token tail =>
        rw [List.length_cons] at hfewer
        simp only [goOn, Relabeling.inline, Prod.map, Option.map_some, List.map_cons,
          Token.kind_relabel, hlater]
        split
        · exact ih tail.length (by omega) _ tail rfl
        · exact Heading.readBody_relabel (.otherwise line _) tail
        · rw [← List.map_cons, LineContext.finish_relabel]
          cases cx.finish (token :: tail) <;> rfl

private theorem openBranch?_relabel (before : List Statement) :
    openBranch? (before.map (Statement.relabel r)) =
      (openBranch? before).map fun (line, clauses, before) =>
        (line.map r.line, clauses.relabel r, before.map (Statement.relabel r)) := by
  cases before with
  | nil => rfl
  | cons statement rest =>
    cases statement with
    | branch line clauses =>
      have hopen := clauses.isOpen_relabel r
      change (if (clauses.relabel r).isOpen then _ else _) =
        Option.map _ (if clauses.isOpen then _ else _)
      rw [hopen]
      split <;> rfl
    | assign | display | input | whileLoop | forLoop | block | misplaced => rfl

/-- **Reading a line** commutes with a relabeling. -/
theorem LineContent.read_relabel (cx : LineContext) (before : List Statement)
    (tokens : List Token) :
    read (cx.relabel r) (before.map (Statement.relabel r)) (tokens.map (Token.relabel r)) =
      r.result (Prod.map (relabel r) (List.map (Statement.relabel r)))
        (read cx before tokens) := by
  have hcontent : ∀ {first first' : Except Failure LineContent} (before : List Statement),
      first' = r.result (relabel r) first →
      (first' >>= fun content => pure (content, before.map (Statement.relabel r))) =
        r.result (Prod.map (relabel r) (List.map (Statement.relabel r)))
          (first >>= fun content => pure (content, before)) := by
    rintro first _ before rfl
    exact r.bind_result fun _ _ => rfl
  simp only [read, LineContext.current_relabel, Token.kind_relabel, ← List.map_tail,
    openBranch?_relabel, Token.row_relabel, ← r.line_row]
  split
  · -- the first clause of a branch
    exact hcontent before (Clauses.read_relabel (some _) .done tokens.tail)
  · -- a guarded clause of the branch in front
    next hkind =>
    cases openBranch? before with
    | none =>
      exact r.result_atToken (congrArg _ (Token.lexeme_relabel_of_ne r (by rw [hkind]; decide)))
    | some found =>
      obtain ⟨line, clauses, rest⟩ := found
      exact hcontent rest (Clauses.read_relabel line clauses tokens.tail)
  · -- the clause without a guard of the branch in front
    next hkind =>
    cases openBranch? before with
    | none =>
      exact r.result_atToken (congrArg _ (Token.lexeme_relabel_of_ne r (by rw [hkind]; decide)))
    | some found =>
      obtain ⟨line, clauses, rest⟩ := found
      exact hcontent rest (Heading.readBody_relabel (.otherwise line clauses) tokens.tail)
  · -- a loop with a condition
    rw [Condition.read_relabel]
    refine r.bind_reading fun condition behind _ => ?_
    exact hcontent before (Heading.readBody_relabel (.whileLoop (some _) condition) behind)
  · -- a counting loop
    rw [LineContext.expect_relabel]
    refine r.bind_reading fun name _ hname => ?_
    rw [LineContext.expect_relabel]
    refine r.bind_reading fun _ _ _ => ?_
    rw [Expr.read_relabel]
    refine r.bind_reading fun lower _ _ => ?_
    rw [LineContext.expect_relabel]
    refine r.bind_reading fun _ _ _ => ?_
    rw [Expr.read_relabel]
    refine r.bind_reading fun upper behind _ => ?_
    obtain ⟨hkind, rfl, -⟩ := LineContext.expect_eq_ok_iff.mp hname
    rw [Token.lexeme_relabel_of_eq r hkind]
    exact hcontent before (Heading.readBody_relabel (.forLoop (some _) _ lower upper) behind)
  · -- a simple statement
    rw [Statement.readSimple_relabel]
    refine r.bind_reading fun statement rest _ => ?_
    rw [LineContext.finish_relabel]
    exact r.bind_result fun _ _ => rfl

end Offside

import Offside.Proofs.Failing
import Offside.Proofs.Source.Expression

/-!
# Reading by recursive descent

The grammar of expressions is recursive, and so is the plain way of reading them: an expression is
a term and what additive operators add to it, a term is a factor and what multiplicative operators
add to it, and a factor may be a group, which is an expression between parentheses. `Descent` reads
in this way. It calls itself at every parenthesis, and knows no limit of nesting.

The pass with a stack of frames reads the same expressions, leaves the same tokens and fails in the
same way at the same token, unless it fails because something is nested too deeply
(`readOn_expr` and those with it). The argument goes along the rules. Where a rule calls another,
the pass has a frame pending in its place; that frame takes no part in what the rule reads
(`Frame.Bears`), and is completed where the rule ends (`Stops`).
-/

namespace Offside

/-- What is left of tokens when something has been taken from the front. -/
abbrev Rest (tokens : List Token) : Type :=
  { rest : List Token // rest.length < tokens.length }

/-- What is left of tokens when something may have been taken from the front. -/
abbrev Rest? (tokens : List Token) : Type :=
  { rest : List Token // rest.length ≤ tokens.length }

namespace Descent

variable (stop : Token)

/-- Expects the parenthesis that closes a group. -/
def closing : (tokens : List Token) → Except Failure (Rest tokens)
  | [] => .error (.atToken (.expected .rightParen stop.toWord) stop)
  | token :: rest =>
    if token.kind = .rightParen then .ok ⟨rest, Nat.lt_succ_self _⟩
    else .error (.atToken (.expected .rightParen token.toWord) token)

mutual

/-- An expression: a term, and what additive operators add to it. -/
def expr (tokens : List Token) : Except Failure (Expr × Rest tokens) := do
  let (first, ⟨behind, hfirst⟩) ← term tokens
  let (whole, ⟨rest, hrest⟩) ← operations false first behind
  return (whole, ⟨rest, Nat.lt_of_le_of_lt hrest hfirst⟩)
termination_by (tokens.length, 2)

/-- A term: a factor, and what multiplicative operators add to it. -/
def term (tokens : List Token) : Except Failure (Expr × Rest tokens) := do
  let (first, ⟨behind, hfirst⟩) ← factor tokens
  let (whole, ⟨rest, hrest⟩) ← operations true first behind
  return (whole, ⟨rest, Nat.lt_of_le_of_lt hrest hfirst⟩)
termination_by (tokens.length, 1)

/-- Adds operands to a left one for as long as operators of one tier follow: terms to terms, or
factors to factors. -/
def operations (tight : Bool) (left : Expr) (tokens : List Token) :
    Except Failure (Expr × Rest? tokens) :=
  match tokens with
  | [] => .ok (left, ⟨[], Nat.le_refl 0⟩)
  | token :: behind =>
    match Operator.ofKind? token.kind with
    | none => .ok (left, ⟨token :: behind, Nat.le_refl _⟩)
    | some op =>
      if op.isTight = tight then do
        let (right, ⟨further, hright⟩) ← (if tight then factor behind else term behind)
        let longer := .binary (some token.row) op left right
        let (whole, ⟨rest, hrest⟩) ← operations tight longer further
        return (whole, ⟨rest, by simp only [List.length_cons]; omega⟩)
      else .ok (left, ⟨token :: behind, Nat.le_refl _⟩)
termination_by (tokens.length, 0)
decreasing_by all_goals simp only [List.length_cons]; omega

/-- A factor. -/
def factor (tokens : List Token) : Except Failure (Expr × Rest tokens) :=
  match tokens with
  | [] => .error (.atToken (.expectedOperand stop.toWord) stop)
  | token :: behind =>
    match token.kind with
    | .integer =>
      match Numeral.read token.lexeme.toList with
      | .error b => .error (.broken b)
      | .ok n => .ok (.number (some token.row) n, ⟨behind, Nat.lt_succ_self _⟩)
    | .identifier => .ok (.var (some token.row) token.lexeme, ⟨behind, Nat.lt_succ_self _⟩)
    | .subtract => do
      let (operand, ⟨rest, hrest⟩) ← expr behind
      return (.negate (some token.row) operand, ⟨rest, Nat.lt_succ_of_lt hrest⟩)
    | .leftParen => do
      let (inner, ⟨further, hinner⟩) ← expr behind
      let ⟨rest, hrest⟩ ← closing stop further
      return (.paren (some token.row) inner,
        ⟨rest, Nat.lt_succ_of_lt (Nat.lt_trans hrest hinner)⟩)
    | _ => .error (.atToken (.expectedOperand token.toWord) token)
termination_by (tokens.length, 0)

end

end Descent

/-! ### Where a tier of operators ends -/

/-- A tier of operators **stops** at tokens that do not go on with one of its operators, nor with
one of a tighter tier. -/
def Stops (tight : Bool) (tokens : List Token) : Prop :=
  ∀ token ∈ tokens.head?, ∀ op, Operator.ofKind? token.kind = some op →
    op.isTight = false ∧ tight = true

private theorem stops_nil (tight : Bool) : Stops tight [] :=
  nofun

private theorem stops_cons {tight : Bool} {token : Token} {rest : List Token}
    (h : ∀ op, Operator.ofKind? token.kind = some op → op.isTight = false ∧ tight = true) :
    Stops tight (token :: rest) := by
  rintro _ ⟨⟩
  exact h

namespace Descent

variable {stop : Token}

mutual

/-- A tier of operators stops where no more of them are added. -/
private theorem stops_of_operations {tight : Bool} {left : Expr} {tokens : List Token}
    {read : Expr × Rest? tokens} (hbefore : tight = false → Stops true tokens)
    (h : operations stop tight left tokens = .ok read) : Stops tight read.2 := by
  match tokens with
  | [] =>
    rw [operations] at h
    cases h
    exact stops_nil tight
  | token :: behind =>
    rw [operations] at h
    split at h
    · next hop =>
      cases h
      refine stops_cons fun op hsome => ?_
      rw [hop] at hsome
      cases hsome
    · next op hop =>
      split at h
      · next htight =>
        obtain ⟨⟨right, further, hfurther⟩, hright, h⟩ := bind_eq_ok_iff.mp h
        obtain ⟨⟨whole, rest⟩, hrest, h⟩ := bind_eq_ok_iff.mp h
        cases h
        have hfurther : tight = false → Stops true further := fun hloose => by
          rw [hloose, if_neg Bool.false_ne_true] at hright
          exact stops_of_term hright
        have hstops := stops_of_operations hfurther hrest
        exact hstops
      · next htight =>
        cases h
        refine stops_cons fun op' hsome => ?_
        rw [hop] at hsome
        cases hsome
        cases tight with
        | true => exact ⟨Bool.eq_false_iff.mpr htight, rfl⟩
        | false => exact absurd (hbefore rfl token rfl op hop).1 htight
termination_by (tokens.length, 0)

/-- A term ends where multiplicative operators stop. -/
private theorem stops_of_term {tokens : List Token} {read : Expr × Rest tokens}
    (h : term stop tokens = .ok read) : Stops true read.2 := by
  rw [term] at h
  obtain ⟨⟨first, behind, hbehind⟩, -, h⟩ := bind_eq_ok_iff.mp h
  obtain ⟨⟨whole, rest⟩, hrest, h⟩ := bind_eq_ok_iff.mp h
  cases h
  have hstops := stops_of_operations (fun hloose => absurd hloose.symm Bool.false_ne_true) hrest
  exact hstops
termination_by (tokens.length, 1)

end

/-- An expression ends where all operators stop. -/
private theorem stops_of_expr {tokens : List Token} {read : Expr × Rest tokens}
    (h : expr stop tokens = .ok read) : Stops false read.2 := by
  rw [expr] at h
  obtain ⟨⟨first, behind, hbehind⟩, hfirst, h⟩ := bind_eq_ok_iff.mp h
  obtain ⟨⟨whole, rest⟩, hrest, h⟩ := bind_eq_ok_iff.mp h
  cases h
  have hstops := stops_of_operations (fun _ => stops_of_term hfirst) hrest
  exact hstops

end Descent

/-! ### Frames that are completed -/

section Completed

variable {cx : LineContext} {frames : List Frame} {row : Nat} {tokens : List Token}

/-- A pending operator is completed where its tier stops. -/
private theorem Expr.readOn_binary {op : Operator} {left right : Expr}
    (h : op.isTight = false → Stops true tokens) :
    readOn cx (.binary row op left :: frames) (some right) tokens =
      readOn cx frames (some (.binary (some row) op left right)) tokens := by
  cases tokens with
  | nil => rfl
  | cons token rest =>
    cases hop : Operator.ofKind? token.kind with
    | none =>
      rw [readOn, readOn]
      simp only [hop, Frame.closeExpression]
    | some next =>
      have hcloses : (op.isTight || !next.isTight) = true := by
        cases hop' : op.isTight with
        | true => rfl
        | false => simp [(h hop' token rfl next hop).1]
      rw [readOn_operator rest hop, readOn_operator rest hop, Frame.closeOperators, if_pos hcloses]

/-- An expression with nothing pending ends where all operators stop. -/
private theorem Expr.readOn_complete {whole : Expr} (h : Stops false tokens) :
    readOn cx [] (some whole) tokens = .ok (whole, tokens) := by
  cases tokens with
  | nil => rfl
  | cons token rest =>
    cases hop : Operator.ofKind? token.kind with
    | none =>
      rw [readOn]
      simp only [hop, Frame.closeExpression]
    | some next => exact absurd (h token rfl next hop).2 Bool.false_ne_true

/-- A minus sign is completed where all operators stop. -/
private theorem Expr.readOn_negate {operand : Expr} (h : Stops false tokens) :
    readOn cx (.negate row :: frames) (some operand) tokens =
      readOn cx frames (some (.negate (some row) operand)) tokens := by
  cases tokens with
  | nil => rfl
  | cons token rest =>
    cases hop : Operator.ofKind? token.kind with
    | none =>
      rw [readOn, readOn]
      simp only [hop, Frame.closeExpression]
    | some next => exact absurd (h token rfl next hop).2 Bool.false_ne_true

/-- A parenthesis is completed where all operators stop, unless it is not closed there. -/
private theorem Expr.readOn_opened {inner : Expr} (h : Stops false tokens) :
    readOn cx (.opened row :: frames) (some inner) tokens =
      Descent.closing cx.stop tokens >>= fun rest =>
        readOn cx frames (some (.paren (some row) inner)) rest := by
  cases tokens with
  | nil => rfl
  | cons token rest =>
    cases hop : Operator.ofKind? token.kind with
    | none =>
      rw [readOn, Descent.closing]
      simp only [hop, Frame.closeExpression]
      split <;> rfl
    | some next => exact absurd (h token rfl next hop).2 Bool.false_ne_true

end Completed

/-! ### Reading with frames is recursive descent -/

/-- What reading comes to is as expected, unless it is that something is nested too deeply. -/
def SameUnlessDeep (result expected : Except Failure (Expr × List Token)) : Prop :=
  result = .error (.unplaced .nestedTooDeeplyToRead) ∨ result = expected

namespace SameUnlessDeep

variable {α : Type} {first : Except Failure α}
  {result expected : Except Failure (Expr × List Token)}
  {next next' : α → Except Failure (Expr × List Token)}

private theorem of_eq (h : result = expected) : SameUnlessDeep result expected :=
  .inr h

private theorem refl (result : Except Failure (Expr × List Token)) : SameUnlessDeep result result :=
  .inr rfl

private theorem deep (expected : Except Failure (Expr × List Token)) :
    SameUnlessDeep (.error (.unplaced .nestedTooDeeplyToRead)) expected :=
  .inl rfl

private theorem trans {result' : Except Failure (Expr × List Token)}
    (h : SameUnlessDeep result result')
    (h' : SameUnlessDeep result' expected) : SameUnlessDeep result expected := by
  rcases h with h | rfl
  · exact .inl h
  · exact h'

/-- Computations that begin alike are the same if they go on to the same. -/
private theorem bind (h : ∀ a, first = .ok a → SameUnlessDeep (next a) (next' a)) :
    SameUnlessDeep (first >>= next) (first >>= next') := by
  cases first with
  | error failure => exact .refl _
  | ok a => exact h a rfl

end SameUnlessDeep

namespace Descent

variable {cx : LineContext}

/-- Goes on behind something that was read for an operand. -/
def goOn (cx : LineContext) (frames : List Frame) {within : List Token → Prop}
    (read : Expr × Subtype within) : Except Failure (Expr × List Token) :=
  Expr.readOn cx frames (some read.1) read.2

private theorem expr_goOn (frames : List Frame) (tokens : List Token) :
    expr cx.stop tokens >>= goOn cx frames =
      term cx.stop tokens >>= fun first =>
        operations cx.stop false first.1 first.2 >>= goOn cx frames := by
  rw [expr]
  simp only [bind_assoc, pure_bind]
  rfl

private theorem term_goOn (frames : List Frame) (tokens : List Token) :
    term cx.stop tokens >>= goOn cx frames =
      factor cx.stop tokens >>= fun first =>
        operations cx.stop true first.1 first.2 >>= goOn cx frames := by
  rw [term]
  simp only [bind_assoc, pure_bind]
  rfl

private theorem operations_goOn {tight : Bool} {token : Token} {op : Operator}
    (hop : Operator.ofKind? token.kind = some op) (htight : op.isTight = tight) (left : Expr)
    (frames : List Frame) (behind : List Token) :
    operations cx.stop tight left (token :: behind) >>= goOn cx frames =
      (if tight then factor cx.stop behind else term cx.stop behind) >>= fun right =>
        operations cx.stop tight (.binary (some token.row) op left right.1) right.2 >>=
          goOn cx frames := by
  rw [operations]
  simp only [hop, if_pos htight, bind_assoc, pure_bind]
  rfl

mutual

/-- Where no frame is completed inside an expression, the pass reads the expression and goes on
behind it. -/
theorem readOn_expr {frames : List Frame} (hbears : ∀ op, Frame.Bears frames op)
    (tokens : List Token) :
    SameUnlessDeep (Expr.readOn cx frames none tokens)
      (expr cx.stop tokens >>= goOn cx frames) := by
  rw [expr_goOn]
  refine (readOn_term (fun op _ => hbears op) tokens).trans (.bind fun first hfirst => ?_)
  have hshorter : first.2.val.length < tokens.length := first.2.property
  exact readOn_operations (fun op _ => hbears op) fun _ => stops_of_term hfirst
termination_by (tokens.length, 2)

/-- Where no frame is completed inside a term, the pass reads the term and goes on behind it. -/
theorem readOn_term {frames : List Frame}
    (hbears : ∀ op, op.isTight = true → Frame.Bears frames op) (tokens : List Token) :
    SameUnlessDeep (Expr.readOn cx frames none tokens)
      (term cx.stop tokens >>= goOn cx frames) := by
  rw [term_goOn]
  refine (readOn_factor frames tokens).trans (.bind fun first hfirst => ?_)
  have hshorter : first.2.val.length < tokens.length := first.2.property
  exact readOn_operations hbears nofun
termination_by (tokens.length, 1)

/-- An operator is added, and then those behind its operand. -/
theorem readOn_operations {tight : Bool} {left : Expr} {frames : List Frame} {tokens : List Token}
    (hbears : ∀ op, op.isTight = tight → Frame.Bears frames op)
    (hbefore : tight = false → Stops true tokens) :
    SameUnlessDeep (Expr.readOn cx frames (some left) tokens)
      (operations cx.stop tight left tokens >>= goOn cx frames) := by
  match tokens with
  | [] =>
    rw [operations]
    exact .refl _
  | token :: behind =>
    cases hop : Operator.ofKind? token.kind with
    | none =>
      rw [operations]
      simp only [hop]
      exact .refl _
    | some op =>
      by_cases htight : op.isTight = tight
      · subst htight
        -- what is pending takes no part in reading the operand
        have hoperand : SameUnlessDeep
            (Expr.readOn cx (.binary token.row op left :: frames) none behind)
            ((if op.isTight then factor cx.stop behind else term cx.stop behind) >>=
              goOn cx (.binary token.row op left :: frames)) := by
          cases htight : op.isTight with
          | true => exact readOn_factor _ behind
          | false =>
            have hinside : ∀ op', op'.isTight = true →
                Frame.Bears (.binary token.row op left :: frames) op' :=
              fun op' hop' => ⟨htight, hop'⟩
            exact readOn_term hinside behind
        rw [operations_goOn hop rfl, Expr.readOn_operator behind hop,
          Frame.closeOperators_of_bears (hbears op rfl)]
        refine hoperand.trans (.bind fun right hright => ?_)
        have hshorter : right.2.val.length < behind.length := right.2.property
        have hstops : op.isTight = false → Stops true right.2 := fun hloose => by
          rw [hloose, if_neg Bool.false_ne_true] at hright
          exact stops_of_term hright
        rw [goOn, Expr.readOn_binary hstops]
        exact readOn_operations hbears hstops
      · rw [operations]
        simp only [hop, if_neg htight]
        exact .refl _
termination_by (tokens.length, 0)

/-- The pass reads a factor and goes on behind it, whatever is pending. -/
private theorem readOn_factor (frames : List Frame) (tokens : List Token) :
    SameUnlessDeep (Expr.readOn cx frames none tokens)
      (factor cx.stop tokens >>= goOn cx frames) := by
  match tokens with
  | [] =>
    rw [factor]
    exact .refl _
  | token :: behind =>
    rw [factor]
    dsimp only
    split
    · next hkind =>
      -- a literal
      split
      · next b hread =>
        rw [Expr.readOn]
        simp only [hkind, hread]
        exact .refl _
      · next n hread =>
        rw [Expr.readOn_integer behind hkind hread]
        exact .refl _
    · next hkind =>
      -- a name
      rw [Expr.readOn_identifier behind hkind]
      exact .refl _
    · next hkind =>
      -- a minus sign
      have hbears : ∀ op, Frame.Bears (.negate token.row :: frames) op := fun op => trivial
      rw [Expr.readOn_subtract behind hkind]
      split
      · rw [bind_assoc]
        refine (readOn_expr hbears behind).trans (.bind fun operand hoperand => ?_)
        exact .of_eq (Expr.readOn_negate (stops_of_expr hoperand))
      · exact .deep _
    · next hkind =>
      -- a parenthesis
      have hbears : ∀ op, Frame.Bears (.opened token.row :: frames) op := fun op => trivial
      rw [Expr.readOn_leftParen behind hkind]
      split
      · rw [bind_assoc]
        refine (readOn_expr hbears behind).trans (.bind fun inner hinner => ?_)
        rw [goOn, Expr.readOn_opened (stops_of_expr hinner), bind_assoc]
        exact .refl _
      · exact .deep _
    · next hinteger hidentifier hsubtract hleftParen =>
      -- no factor begins here
      rw [Expr.readOn]
      split
      all_goals first | contradiction | exact .refl _
termination_by (tokens.length, 0)

end

end Descent

/-! ### Where there is room -/

namespace Frame

/-- Completing operators leaves the depth as it is. -/
private theorem depth_closeOperators (op : Operator) (frames : List Frame) (value : Expr) :
    depth (closeOperators op frames value).1 = depth frames := by
  fun_induction closeOperators op frames value with
  | case1 row pending left outer value hcloses ih => rw [ih, depth]
  | case2 => rfl
  | case3 => rfl

/-- What is outside a parenthesis is not deeper than what is inside. -/
private theorem depth_le_of_closeExpression {frames outer : List Frame} {value inner : Expr}
    {row : Nat}
    (h : closeExpression frames value = (inner, some (row, outer))) :
    depth outer ≤ depth frames := by
  induction frames generalizing value with
  | nil => cases h
  | cons frame rest ih =>
    cases frame with
    | opened row' =>
      cases h
      rw [depth_opened]
      exact Nat.le_add_right _ _
    | negate row' => exact Nat.le_succ_of_le (ih h)
    | binary row' op left => exact ih h

end Frame

namespace Expr

/-- So few tokens cannot be nested too deeply. -/
private theorem readOn_ne_deep {cx : LineContext} {frames : List Frame} {done : Option Expr}
    {tokens : List Token} (h : Frame.depth frames + tokens.length ≤ cx.room) :
    readOn cx frames done tokens ≠ .error (.unplaced .nestedTooDeeplyToRead) := by
  have hopens (row : Nat) (frames : List Frame) :
      Frame.depth (.opened row :: frames) ≤ Frame.depth frames + 1 := by
    rw [Frame.depth_opened]
    split <;> omega
  fun_induction readOn cx frames done tokens <;>
    grind [Frame.depth_closeOperators, → Frame.depth_le_of_closeExpression, Frame.depth_negate,
      Frame.depth, LineContext.admits_iff, Failure.atToken, Failure.unplaced]

end Expr

/-! ### Groups -/

namespace Descent

/-- A group is an expression and the parenthesis that closes it. -/
private theorem factor_goOn {cx : LineContext} {opening : Token}
    (hopening : opening.kind = .leftParen) (frames : List Frame) (behind : List Token) :
    factor cx.stop (opening :: behind) >>= goOn cx frames =
      expr cx.stop behind >>= fun inner => closing cx.stop inner.2 >>= fun rest =>
        Expr.readOn cx frames (some (.paren (some opening.row) inner.1)) rest := by
  rw [factor]
  simp only [hopening, bind_assoc, pure_bind]
  rfl

end Descent

namespace Expr

/-- **Expressions are read by recursive descent**, except that they can be nested too deeply. -/
theorem read_by_descent (cx : LineContext) (tokens : List Token) :
    SameUnlessDeep (read cx tokens)
      (Descent.expr cx.stop tokens >>= fun whole => .ok (whole.1, whole.2.val)) := by
  have hbears : ∀ op, Frame.Bears [] op := fun op => trivial
  refine (Descent.readOn_expr hbears tokens).trans (.bind fun whole hwhole => ?_)
  exact .of_eq (readOn_complete (Descent.stops_of_expr hwhole))

/-- **Groups are read by the recursive rule**: an expression, and the parenthesis that closes it.
So it is at every parenthesis where an operand can begin, whatever is pending there and whatever
follows, except that something can be nested too deeply for the room on the line. So few
tokens that they cannot be nested more deeply than that are read exactly so. -/
theorem readOn_group_by_descent (cx : LineContext) (frames : List Frame) {opening : Token}
    (hopening : opening.kind = .leftParen) (behind : List Token) :
    let byRule := Descent.expr cx.stop behind >>= fun inner =>
      Descent.closing cx.stop inner.2 >>= fun rest =>
        readOn cx frames (some (.paren (some opening.row) inner.1)) rest
    SameUnlessDeep (readOn cx frames none (opening :: behind)) byRule ∧
      (Frame.depth frames + (opening :: behind).length ≤ cx.room →
        readOn cx frames none (opening :: behind) = byRule) := by
  have hsame : SameUnlessDeep (readOn cx frames none (opening :: behind)) _ :=
    Descent.factor_goOn hopening frames behind ▸ Descent.readOn_factor frames (opening :: behind)
  refine ⟨hsame, fun hroom => ?_⟩
  rcases hsame with hdeep | hsame
  · exact absurd hdeep (readOn_ne_deep hroom)
  · exact hsame

/-- A group behind an operator, with another one in it: `2 * ((x) - 3) / y`, from the group on. -/
theorem readOn_group_by_descent_in_product :
    let cx : LineContext := ⟨.closing 0 18, nestingLimit⟩
    let opening : Token := ⟨⟨"(", .leftParen⟩, 0, 5⟩
    let behind : List Token :=
      [⟨⟨"(", .leftParen⟩, 0, 6⟩, ⟨⟨"x", .identifier⟩, 0, 7⟩, ⟨⟨")", .rightParen⟩, 0, 8⟩,
        ⟨⟨"-", .subtract⟩, 0, 10⟩, ⟨⟨"3", .integer⟩, 0, 12⟩, ⟨⟨")", .rightParen⟩, 0, 13⟩,
        ⟨⟨"/", .divide⟩, 0, 15⟩, ⟨⟨"y", .identifier⟩, 0, 17⟩]
    let frames := [Frame.binary 0 .multiply (.number (some 0) 2)]
    (opening.kind = .leftParen ∧ Frame.depth frames + (opening :: behind).length ≤ cx.room) ∧
      readOn cx frames none (opening :: behind) =
        (Descent.expr cx.stop behind >>= fun inner =>
          Descent.closing cx.stop inner.2 >>= fun rest =>
            readOn cx frames (some (.paren (some opening.row) inner.1)) rest) ∧
      ∃ whole, readOn cx frames none (opening :: behind) = .ok (whole, []) :=
  ⟨⟨rfl, by decide⟩, (readOn_group_by_descent _ _ rfl _).2 (by decide), _, rfl⟩

end Expr

end Offside

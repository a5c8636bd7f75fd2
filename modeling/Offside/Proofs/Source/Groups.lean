import Mathlib.Data.List.Infix
import Offside.Proofs.Source.Descent
import Offside.Proofs.Token.Placed

/-!
# Reading groups in a loop

Parentheses that follow one another can be read without a call for each of them. A run of them is
taken in a loop that counts them. Then the innermost expression is read, and a second loop closes
the groups from the inside out. A group that is closed inside another one is the first factor of
the expression around it, so reading goes on with that expression, the factor being given
(`GroupLoop.expr`). All groups of a run stand on the row of its first parenthesis.

On the tokens of one row this is recursive descent (`expr_eq_descent`, `group_eq_descent`). The
weight lies on one step: the second loop closes the outermost group of a run in its last round
(`close_outermost`), so that group can be split off, and what is left is the loop for a shorter run
(`group_recursion`). Hence the pass with a stack of frames agrees with the loop as well, on every
line and from every place in it (`Expr.read_by_loop`).
-/

namespace Offside

/-- What is left of tokens when an expression has been read from the front: less than there was,
unless the first factor of the expression was given. -/
abbrev Left (first : Option Expr) (tokens : List Token) : Type :=
  { rest : List Token // rest <:+ tokens ∧ (first = none → rest.length < tokens.length) }

namespace Left

variable {first : Option Expr} {tokens : List Token}

/-- Nothing needs to be taken where a factor is given. -/
def all (done : Expr) (tokens : List Token) : Left (some done) tokens :=
  ⟨tokens, List.suffix_refl tokens, nofun⟩

/-- What is left behind what is taken from the tokens behind an operand. -/
def further {done : Expr} (behind : Left first tokens) (rest : Left (some done) behind.val) :
    Left first tokens :=
  ⟨rest.val, rest.property.1.trans behind.property.1, fun hfirst =>
    Nat.lt_of_le_of_lt rest.property.1.length_le (behind.property.2 hfirst)⟩

/-- What is left when a token was taken before. -/
def cons {first' : Option Expr} (token : Token) (rest : Left first' tokens) :
    Left first (token :: tokens) :=
  ⟨rest.val, rest.property.1.trans (List.suffix_cons token tokens), fun _ =>
    Nat.lt_succ_of_le rest.property.1.length_le⟩

end Left

namespace GroupLoop

/-- Takes parentheses for as long as they follow one another, counting on from `depth`. -/
def openings (depth : Nat) : List Token → Nat × List Token
  | [] => (depth, [])
  | token :: behind =>
    if token.kind = .leftParen then openings (depth + 1) behind else (depth, token :: behind)

/-- Parentheses are taken from the front. -/
private theorem suffix_openings (depth : Nat) (tokens : List Token) :
    (openings depth tokens).2 <:+ tokens := by
  fun_induction openings depth tokens with
  | case1 => exact List.suffix_refl _
  | case2 depth token behind hkind ih => exact ih.trans (List.suffix_cons token behind)
  | case3 => exact List.suffix_refl _

variable (stop : Token)

mutual

/-- An expression: a term, and what additive operators add to it. Its first factor may be given. -/
def expr (first : Option Expr) (tokens : List Token) :
    Except Failure (Expr × Left first tokens) := do
  let (left, ⟨behind, hbehind⟩) ← term first tokens
  let (whole, rest) ← operations false left behind
  return (whole, Left.further ⟨behind, hbehind⟩ rest)
termination_by (tokens.length, 2)
decreasing_by
  · exact Prod.Lex.right _ (by decide)
  · exact Prod.Lex.right' _ hbehind.1.length_le (by decide)

/-- A term: a factor, and what multiplicative operators add to it. The factor may be given. -/
def term (first : Option Expr) (tokens : List Token) :
    Except Failure (Expr × Left first tokens) :=
  match first with
  | none => do
    let (left, ⟨behind, hbehind⟩) ← factor tokens
    let (whole, rest) ← operations true left behind
    return (whole, Left.further ⟨behind, hbehind⟩ rest)
  | some left => operations true left tokens
termination_by (tokens.length, 1)
decreasing_by
  · exact Prod.Lex.right _ (by decide)
  · exact Prod.Lex.right' _ hbehind.1.length_le (by decide)
  · exact Prod.Lex.right _ (by decide)

/-- Adds operands to a left one for as long as operators of one tier follow: terms to terms, or
factors to factors. -/
def operations (tight : Bool) (left : Expr) (tokens : List Token) :
    Except Failure (Expr × Left (some left) tokens) :=
  match tokens with
  | [] => .ok (left, .all left [])
  | token :: behind =>
    match Operator.ofKind? token.kind with
    | none => .ok (left, .all left (token :: behind))
    | some op =>
      if op.isTight = tight then do
        let (right, ⟨further, hfurther⟩) ← (if tight then factor behind else term none behind)
        let (whole, rest) ← operations tight (.binary (some token.row) op left right) further
        return (whole, .cons token (Left.further ⟨further, hfurther⟩ rest))
      else .ok (left, .all left (token :: behind))
termination_by (tokens.length, 0)
decreasing_by
  · exact Prod.Lex.left _ _ (Nat.lt_succ_self _)
  · exact Prod.Lex.left _ _ (Nat.lt_succ_self _)
  · exact Prod.Lex.left _ _ (Nat.lt_succ_of_le hfurther.1.length_le)

/-- A factor. -/
def factor (tokens : List Token) : Except Failure (Expr × Left none tokens) :=
  match tokens with
  | [] => .error (.atToken (.expectedOperand stop.toWord) stop)
  | token :: behind =>
    match token.kind with
    | .leftParen => group token behind
    | .subtract => do
      let (operand, rest) ← expr none behind
      return (.negate (some token.row) operand, .cons token rest)
    | .integer =>
      match Numeral.read token.lexeme.toList with
      | .error b => .error (.broken b)
      | .ok n => .ok (.number (some token.row) n, .cons token (.all (.number none n) behind))
    | .identifier =>
      .ok (.var (some token.row) token.lexeme, .cons token (.all (.var none token.lexeme) behind))
    | _ => .error (.atToken (.expectedOperand token.toWord) token)
termination_by (tokens.length, 0)
decreasing_by
  · exact Prod.Lex.left _ _ (Nat.lt_succ_self _)
  · exact Prod.Lex.left _ _ (Nat.lt_succ_self _)

/-- A run of groups that begin behind one another, the first one at `opening`: the parentheses that
open them, the innermost expression, and then the groups, from the inside out. The first parenthesis
is there already, so the count begins at one. -/
def group (opening : Token) (behind : List Token) :
    Except Failure (Expr × Left none (opening :: behind)) := do
  let (inner, ⟨further, hfurther⟩) ← expr none (openings 1 behind).2
  let (whole, ⟨rest, hrest⟩) ← close opening.row (openings 1 behind).1 inner further
  have hsuffix : rest <:+ behind :=
    hrest.1.trans (hfurther.1.trans (suffix_openings 1 behind))
  return (whole, ⟨rest, hsuffix.trans (List.suffix_cons opening behind), fun _ =>
    Nat.lt_succ_of_le hsuffix.length_le⟩)
termination_by (behind.length, 3)
decreasing_by
  · exact Prod.Lex.right' _ (suffix_openings 1 behind).length_le (by decide)
  · exact Prod.Lex.left _ _
      (Nat.lt_of_lt_of_le (hfurther.2 rfl) (suffix_openings 1 behind).length_le)

/-- Closes groups from the inside out, where `level` of them are open and `node` is what stands in
the innermost one. A group that is closed inside others is the first factor of the expression
around it. -/
def close (row level : Nat) (node : Expr) (tokens : List Token) :
    Except Failure (Expr × Left (some node) tokens) :=
  match level with
  | 0 => .ok (node, .all node tokens)
  | outside + 1 => do
    let ⟨_, _hclosed⟩ ← Descent.closing stop tokens
    let closed := Expr.paren (some row) node
    let (outer, ⟨further, hfurther⟩) ←
      (if 0 < outside then expr (some closed) tokens.tail else .ok (closed, .all _ tokens.tail))
    let (whole, ⟨rest, hrest⟩) ← close row outside outer further
    return (whole, ⟨rest, hrest.1.trans (hfurther.1.trans (List.tail_suffix tokens)), nofun⟩)
termination_by (tokens.length, 0)
decreasing_by
  · rw [List.length_tail]
    exact Prod.Lex.left _ _ (Nat.sub_one_lt_of_lt _hclosed)
  · have hle := hfurther.1.length_le
    rw [List.length_tail] at hle
    exact Prod.Lex.left _ _ (Nat.lt_of_le_of_lt hle (Nat.sub_one_lt_of_lt _hclosed))

end

end GroupLoop

/-! ### The parts of the loop and of the descent -/

/-- What a reader makes of the tokens and what it leaves of them, without the bound on that. -/
def bare {within : List Token → Prop} (result : Except Failure (Expr × Subtype within)) :
    Except Failure (Expr × List Token) :=
  result >>= fun read => .ok (read.1, read.2.val)

/-- What follows two readers has to agree only for what the reader can leave. -/
private theorem bare_bind_congr {within : List Token → Prop}
    {first : Except Failure (Expr × Subtype within)}
    {next next' : Expr × List Token → Except Failure (Expr × List Token)}
    (h : ∀ e rest, within rest → next (e, rest) = next' (e, rest)) :
    bare first >>= next = bare first >>= next' := by
  cases first with
  | error failure => rfl
  | ok read => exact h read.1 read.2.val read.2.property

namespace Descent

variable {stop : Token}

/-- Encloses an expression in a group that began on the given row: what is left of the tokens has
to begin with the parenthesis that closes it. -/
def enclose (stop : Token) (row : Nat) (inner : Expr × List Token) :
    Except Failure (Expr × List Token) :=
  closing stop inner.2 >>= fun _ => .ok (.paren (some row) inner.1, inner.2.tail)

/-- What is left behind the parenthesis that closes a group is all but that parenthesis. -/
private theorem closing_bind {α : Type} (tokens : List Token)
    (next : List Token → Except Failure α) :
    (closing stop tokens >>= fun rest => next rest) =
      closing stop tokens >>= fun _ => next tokens.tail := by
  cases tokens with
  | nil => rfl
  | cons token behind =>
    rw [closing]
    split <;> rfl

/-- The recursive rule for a group. -/
private theorem bare_bind_enclose (row : Nat) (tokens : List Token) :
    bare (expr stop tokens) >>= enclose stop row =
      expr stop tokens >>= fun inner => closing stop inner.2 >>= fun rest =>
        .ok (.paren (some row) inner.1, rest.val) := by
  simp only [bare, bind_assoc, ok_bind]
  refine congrArg _ (funext fun inner => ?_)
  exact (closing_bind inner.2.val fun rest => .ok (Expr.paren (some row) inner.1, rest)).symm

private theorem bare_expr (tokens : List Token) :
    bare (expr stop tokens) =
      bare (term stop tokens) >>= fun left => bare (operations stop false left.1 left.2) := by
  rw [expr]
  simp only [bare, bind_assoc, pure_bind, ok_bind]

private theorem bare_term (tokens : List Token) :
    bare (term stop tokens) =
      bare (factor stop tokens) >>= fun left => bare (operations stop true left.1 left.2) := by
  rw [term]
  simp only [bare, bind_assoc, pure_bind, ok_bind]

private theorem bare_operations {tight : Bool} {token : Token} {op : Operator}
    (hop : Operator.ofKind? token.kind = some op) (htight : op.isTight = tight) (left : Expr)
    (behind : List Token) :
    bare (operations stop tight left (token :: behind)) =
      bare (if tight then factor stop behind else term stop behind) >>= fun right =>
        bare (operations stop tight (.binary (some token.row) op left right.1) right.2) := by
  rw [operations]
  simp only [hop, if_pos htight, bare, bind_assoc, pure_bind, ok_bind]

private theorem bare_factor_sign {sign : Token} (hsign : sign.kind = .subtract)
    (behind : List Token) :
    bare (factor stop (sign :: behind)) =
      bare (expr stop behind) >>= fun operand =>
        .ok (.negate (some sign.row) operand.1, operand.2) := by
  rw [factor]
  simp only [hsign, bare, bind_assoc, pure_bind, ok_bind]

private theorem bare_factor_opening {opening : Token} (hopening : opening.kind = .leftParen)
    (behind : List Token) :
    bare (factor stop (opening :: behind)) =
      bare (expr stop behind) >>= enclose stop opening.row := by
  rw [bare_bind_enclose, factor]
  simp only [hopening, bare, bind_assoc, pure_bind]

end Descent

namespace GroupLoop

variable {stop : Token}

private theorem bare_expr (first : Option Expr) (tokens : List Token) :
    bare (expr stop first tokens) =
      bare (term stop first tokens) >>= fun left =>
        bare (operations stop false left.1 left.2) := by
  rw [expr]
  simp only [bare, bind_assoc, pure_bind, ok_bind]
  rfl

private theorem bare_term_none (tokens : List Token) :
    bare (term stop none tokens) =
      bare (factor stop tokens) >>= fun left => bare (operations stop true left.1 left.2) := by
  rw [term]
  simp only [bare, bind_assoc, pure_bind, ok_bind]
  rfl

private theorem bare_term_some (left : Expr) (tokens : List Token) :
    bare (term stop (some left) tokens) = bare (operations stop true left tokens) := by
  rw [term]

private theorem bare_operations {tight : Bool} {token : Token} {op : Operator}
    (hop : Operator.ofKind? token.kind = some op) (htight : op.isTight = tight) (left : Expr)
    (behind : List Token) :
    bare (operations stop tight left (token :: behind)) =
      bare (if tight then factor stop behind else term stop none behind) >>= fun right =>
        bare (operations stop tight (.binary (some token.row) op left right.1) right.2) := by
  rw [operations]
  simp only [hop, if_pos htight, bare, bind_assoc, pure_bind, ok_bind]
  rfl

private theorem bare_factor_sign {sign : Token} (hsign : sign.kind = .subtract)
    (behind : List Token) :
    bare (factor stop (sign :: behind)) =
      bare (expr stop none behind) >>= fun operand =>
        .ok (.negate (some sign.row) operand.1, operand.2) := by
  rw [factor]
  simp only [hsign, bare, bind_assoc, pure_bind, ok_bind]
  rfl

private theorem bare_factor_opening {opening : Token} (hopening : opening.kind = .leftParen)
    (behind : List Token) :
    bare (factor stop (opening :: behind)) = bare (group stop opening behind) := by
  rw [factor]
  simp only [hopening]

private theorem bare_group (opening : Token) (behind : List Token) :
    bare (group stop opening behind) =
      bare (expr stop none (openings 1 behind).2) >>= fun inner =>
        bare (close stop opening.row (openings 1 behind).1 inner.1 inner.2) := by
  rw [group]
  simp only [bare, bind_assoc, pure_bind, ok_bind]

private theorem bare_close_one (row : Nat) (node : Expr) (tokens : List Token) :
    bare (close stop row 1 node tokens) = Descent.enclose stop row (node, tokens) := by
  rw [close]
  simp only [Nat.lt_irrefl, if_false, close, bare, bind_assoc, pure_bind, ok_bind]
  rfl

private theorem bare_close_add_two (row outside : Nat) (node : Expr) (tokens : List Token) :
    bare (close stop row (outside + 2) node tokens) =
      Descent.enclose stop row (node, tokens) >>= fun closed =>
        bare (expr stop (some closed.1) closed.2) >>= fun outer =>
          bare (close stop row (outside + 1) outer.1 outer.2) := by
  rw [close]
  simp only [Nat.succ_pos, if_true, Descent.enclose, bare, bind_assoc, pure_bind, ok_bind]

/-! ### A run of parentheses is recursion -/

/-- The group that the last round closes is the outermost one. -/
private theorem close_outermost (row outside : Nat) (node : Expr) (tokens : List Token) :
    bare (close stop row (outside + 2) node tokens) =
      bare (close stop row (outside + 1) node tokens) >>= fun first =>
        bare (expr stop (some first.1) first.2) >>= Descent.enclose stop row := by
  induction outside generalizing node tokens with
  | zero => simp only [bare_close_add_two, Nat.zero_add, bare_close_one]
  | succ outside ih =>
    rw [bare_close_add_two, bare_close_add_two]
    simp only [ih, bind_assoc]

/-- An expression is a factor, and then the expression that the factor is given for. -/
private theorem bare_expr_none (tokens : List Token) :
    bare (expr stop none tokens) =
      bare (factor stop tokens) >>= fun first => bare (expr stop (some first.1) first.2) := by
  simp only [bare_expr, bare_term_none, bare_term_some, bind_assoc]

/-- Counting may begin one higher. -/
private theorem openings_add_one (depth : Nat) (tokens : List Token) :
    openings (depth + 1) tokens = ((openings depth tokens).1 + 1, (openings depth tokens).2) := by
  fun_induction openings depth tokens with
  | case1 => rfl
  | case2 depth token behind hkind ih => rw [openings, if_pos hkind, ih]
  | case3 depth token behind hkind => rw [openings, if_neg hkind]

/-- A run of parentheses is recursion: the outermost group is what would be read behind its
parenthesis, and the parenthesis that closes it. -/
theorem group_recursion {opening : Token} {behind : List Token}
    (hrow : ∀ next ∈ behind.head?, next.row = opening.row) :
    bare (group stop opening behind) =
      bare (expr stop none behind) >>= Descent.enclose stop opening.row := by
  have hinnermost (h : openings 1 behind = (1, behind)) : bare (group stop opening behind) =
      bare (expr stop none behind) >>= Descent.enclose stop opening.row := by
    rw [bare_group, h]
    simp only [bare_close_one]
  cases behind with
  | nil => exact hinnermost rfl
  | cons next further =>
    by_cases hnext : next.kind = .leftParen
    · -- what is behind the first parenthesis begins with the loop for a run that is one shorter
      rw [bare_expr_none, bare_factor_opening hnext, bare_group, bare_group, hrow next rfl,
        openings, if_pos hnext, openings_add_one, openings_add_one 0]
      simp only [close_outermost, bind_assoc]
    · exact hinnermost (by rw [openings, if_neg hnext])

/-! ### The loop is recursive descent -/

mutual

/-- On the tokens of one row the loop is recursive descent. -/
theorem expr_eq_descent {row : Nat} {tokens : List Token}
    (hrow : ∀ token ∈ tokens, token.row = row) :
    bare (expr stop none tokens) = bare (Descent.expr stop tokens) := by
  rw [bare_expr, Descent.bare_expr, ← term_eq_descent hrow]
  refine bare_bind_congr fun left behind hbehind => ?_
  exact operations_eq_descent fun token hmem => hrow token (hbehind.1.subset hmem)
termination_by (tokens.length, 2)
decreasing_by
  · exact Prod.Lex.right _ (by decide)
  · exact Prod.Lex.right' _ hbehind.1.length_le (by decide)

private theorem term_eq_descent {row : Nat} {tokens : List Token}
    (hrow : ∀ token ∈ tokens, token.row = row) :
    bare (term stop none tokens) = bare (Descent.term stop tokens) := by
  rw [bare_term_none, Descent.bare_term, ← factor_eq_descent hrow]
  refine bare_bind_congr fun left behind hbehind => ?_
  exact operations_eq_descent fun token hmem => hrow token (hbehind.1.subset hmem)
termination_by (tokens.length, 1)
decreasing_by
  · exact Prod.Lex.right _ (by decide)
  · exact Prod.Lex.right' _ hbehind.1.length_le (by decide)

private theorem operations_eq_descent {row : Nat} {tight : Bool} {left : Expr}
    {tokens : List Token} (hrow : ∀ token ∈ tokens, token.row = row) :
    bare (operations stop tight left tokens) =
      bare (Descent.operations stop tight left tokens) := by
  match tokens with
  | [] =>
    rw [operations, Descent.operations]
    rfl
  | token :: behind =>
    have hbehind : ∀ token ∈ behind, token.row = row := (List.forall_mem_cons.mp hrow).2
    cases hop : Operator.ofKind? token.kind with
    | none =>
      rw [operations, Descent.operations]
      simp only [hop]
      rfl
    | some op =>
      by_cases htight : op.isTight = tight
      · have hoperand : bare (if tight then factor stop behind else term stop none behind) =
            bare (if tight then Descent.factor stop behind else Descent.term stop behind) := by
          cases tight with
          | true => exact factor_eq_descent hbehind
          | false => exact term_eq_descent hbehind
        rw [bare_operations hop htight, Descent.bare_operations hop htight, ← hoperand]
        refine bare_bind_congr fun right further hfurther => ?_
        exact operations_eq_descent fun token hmem => hbehind token (hfurther.1.subset hmem)
      · rw [operations, Descent.operations]
        simp only [hop, if_neg htight]
        rfl
termination_by (tokens.length, 0)
decreasing_by
  · exact Prod.Lex.left _ _ (Nat.lt_succ_self _)
  · exact Prod.Lex.left _ _ (Nat.lt_succ_self _)
  · exact Prod.Lex.left _ _ (Nat.lt_succ_of_le hfurther.1.length_le)

private theorem factor_eq_descent {row : Nat} {tokens : List Token}
    (hrow : ∀ token ∈ tokens, token.row = row) :
    bare (factor stop tokens) = bare (Descent.factor stop tokens) := by
  match tokens with
  | [] =>
    rw [factor, Descent.factor]
    rfl
  | token :: behind =>
    obtain ⟨htoken, hbehind⟩ := List.forall_mem_cons.mp hrow
    cases hkind : token.kind with
    | leftParen =>
      have hnext : ∀ next ∈ behind.head?, next.row = token.row := fun next hnext =>
        (hbehind next (List.mem_of_mem_head? hnext)).trans htoken.symm
      rw [bare_factor_opening hkind, group_recursion hnext, expr_eq_descent hbehind,
        Descent.bare_factor_opening hkind]
    | subtract =>
      rw [bare_factor_sign hkind, expr_eq_descent hbehind, Descent.bare_factor_sign hkind]
    | integer =>
      rw [factor, Descent.factor]
      simp only [hkind]
      cases Numeral.read token.lexeme.toList <;> rfl
    | _ =>
      rw [factor, Descent.factor]
      simp only [hkind]
      rfl
termination_by (tokens.length, 0)
decreasing_by
  · exact Prod.Lex.left _ _ (Nat.lt_succ_self _)
  · exact Prod.Lex.left _ _ (Nat.lt_succ_self _)

end

/-- **The loop reads groups by the recursive rule**: an expression, and the parenthesis that closes
it. From whatever parenthesis of a line a run is taken, the loop comes to the same tree, leaves the
same tokens, and fails in the same way at the same token. -/
theorem group_eq_descent {row : Nat} {opening : Token} {behind : List Token}
    (hrow : ∀ token ∈ opening :: behind, token.row = row) :
    bare (group stop opening behind) =
      Descent.expr stop behind >>= fun inner => Descent.closing stop inner.2 >>= fun rest =>
        .ok (.paren (some opening.row) inner.1, rest.val) := by
  obtain ⟨hopening, hbehind⟩ := List.forall_mem_cons.mp hrow
  have hnext : ∀ next ∈ behind.head?, next.row = opening.row := fun next hnext =>
    (hbehind next (List.mem_of_mem_head? hnext)).trans hopening.symm
  rw [group_recursion hnext, expr_eq_descent hbehind, Descent.bare_bind_enclose]

end GroupLoop

/-- **Expressions are read as by the loop** from every place in a line, except that they can be
nested too deeply for the room that there is. -/
theorem Expr.read_by_loop {row : Nat} {line : List Char} {scanned : TokenLine}
    (hscan : TokenLine.scan row line = .ok scanned) (room : Nat) {tokens : List Token}
    (hplace : tokens <:+ scanned.tokens) :
    SameUnlessDeep (read ⟨scanned.stop, room⟩ tokens)
      (bare (GroupLoop.expr scanned.stop none tokens)) := by
  have hrow : ∀ token ∈ tokens, token.row = row := fun token hmem =>
    TokenLine.row_of_mem_scan hscan
      (List.mem_append_left [scanned.stop] (hplace.subset hmem))
  rw [GroupLoop.expr_eq_descent hrow]
  exact read_by_descent ⟨scanned.stop, room⟩ tokens

end Offside

import Offside.Diagnostic
import Offside.Numeral.Decimal
import Offside.Tree.Expr

/-!
# Reading expressions

An expression is read from the tokens of a line in one pass, with a stack of **frames** for
what has been begun and waits to be completed: an open parenthesis, a minus sign whose operand
is still to come, or a left operand and its operator. The pass ends at the first token that
cannot go on the expression; that token and all behind it are left over.

Both tiers of operators fold to the left. A minus sign in front of an operand negates the whole
expression that follows it, as far as that goes.

How deeply the pending constructs may be nested is limited by the **room** that the blocks around
the line leave of the nesting limit, which stands in for a limit of the host language
(`nestingLimit`). Operators at one level, and parentheses opened directly behind one another, do not
count as nesting.
-/

namespace Offside

/-- How deeply minus signs, parentheses behind operators, and blocks may be nested.

The language has no such limit. This one stands in for the limit on recursion of the host language:
a reader that calls itself for each of these constructs, three or four calls deep, runs out of
calls. The host counts calls, so what is too deep for it varies with the constructs and with the
place that the reader is called from, and it has the complaint point at the token at hand. Here
every construct counts for one, and the complaint has no place. -/
def nestingLimit : Nat := 240

/-- What the readers of a line have to know about it: the token that ends it, and the room that
is left for nesting. -/
structure LineContext where
  stop : Token
  room : Nat

/-- The token that the rest of a line begins with. -/
def LineContext.current (cx : LineContext) (tokens : List Token) : Token :=
  tokens.headD cx.stop

/-- Takes a token of the given kind from the rest of a line. -/
def LineContext.expect (cx : LineContext) (kind : Kind) (tokens : List Token) :
    Except Failure (Token × List Token) :=
  if (cx.current tokens).kind = kind then .ok (cx.current tokens, tokens.tail)
  else .error (.atToken (.expected kind (cx.current tokens).toWord) (cx.current tokens))

/-- Something begun in an expression that waits to be completed, and the row it began at. -/
inductive Frame
  | opened (row : Nat)
  | negate (row : Nat)
  | binary (row : Nat) (op : Operator) (left : Expr)
  deriving DecidableEq, Repr

namespace Frame

/-- The nesting that a stack of frames amounts to. A parenthesis counts unless it stands at the
beginning or directly behind another one. -/
def depth : List Frame → Nat
  | [] => 0
  | .binary .. :: rest => depth rest
  | .negate _ :: rest => depth rest + 1
  | [.opened _] => 0
  | .opened _ :: .opened row :: rest => depth (.opened row :: rest)
  | .opened _ :: rest => depth rest + 1

/-- Completes the pending operators that bind at least as tightly as `op` with `value` for
their right operand. -/
def closeOperators (op : Operator) : List Frame → Expr → List Frame × Expr
  | .binary row pending left :: rest, value =>
    if pending.isTight || !op.isTight then
      closeOperators op rest (.binary (some row) pending left value)
    else (.binary row pending left :: rest, value)
  | frames, value => (frames, value)

/-- Completes an expression that ends with `value`, back to the innermost open parenthesis. The
row of that parenthesis comes with the frames outside it. -/
def closeExpression : List Frame → Expr → Expr × Option (Nat × List Frame)
  | [], value => (value, none)
  | .opened row :: rest, value => (value, some (row, rest))
  | .negate row :: rest, value => closeExpression rest (.negate (some row) value)
  | .binary row op left :: rest, value => closeExpression rest (.binary (some row) op left value)

end Frame

/-- Whether there is room for a stack of frames on this line. -/
def LineContext.admits (cx : LineContext) (frames : List Frame) : Bool :=
  Frame.depth frames ≤ cx.room

namespace Expr

/-- Reads on in an expression, with `frames` pending and either an operand just completed or
one to come next. -/
def readOn (cx : LineContext) (frames : List Frame) :
    Option Expr → List Token → Except Failure (Expr × List Token)
  | none, [] => .error (.atToken (.expectedOperand cx.stop.toWord) cx.stop)
  | none, token :: rest =>
    match token.kind with
    | .integer =>
      match Numeral.read token.lexeme.toList with
      | .error b => .error (.broken b)
      | .ok n => readOn cx frames (some (.number (some token.row) n)) rest
    | .identifier => readOn cx frames (some (.var (some token.row) token.lexeme)) rest
    | .subtract =>
      if cx.admits (.negate token.row :: frames) then
        readOn cx (.negate token.row :: frames) none rest
      else .error (.unplaced .nestedTooDeeplyToRead)
    | .leftParen =>
      if cx.admits (.opened token.row :: frames) then
        readOn cx (.opened token.row :: frames) none rest
      else .error (.unplaced .nestedTooDeeplyToRead)
    | _ => .error (.atToken (.expectedOperand token.toWord) token)
  | some value, [] =>
    match Frame.closeExpression frames value with
    | (whole, none) => .ok (whole, [])
    | (_, some _) => .error (.atToken (.expected .rightParen cx.stop.toWord) cx.stop)
  | some value, token :: rest =>
    match Operator.ofKind? token.kind with
    | some op =>
      let (pending, left) := Frame.closeOperators op frames value
      readOn cx (.binary token.row op left :: pending) none rest
    | none =>
      match Frame.closeExpression frames value with
      | (whole, none) => .ok (whole, token :: rest)
      | (inner, some (row, outer)) =>
        if token.kind = .rightParen then readOn cx outer (some (.paren (some row) inner)) rest
        else .error (.atToken (.expected .rightParen token.toWord) token)
  termination_by structural _ tokens => tokens

/-- Reads an expression from the front of the tokens. -/
def read (cx : LineContext) (tokens : List Token) : Except Failure (Expr × List Token) :=
  readOn cx [] none tokens

/-! ### What is left over -/

/-- Reading takes tokens from the front, at least one where an operand is still to come. -/
theorem suffix_of_readOn {cx : LineContext} {frames : List Frame} {done : Option Expr}
    {tokens rest : List Token} {e : Expr} (h : readOn cx frames done tokens = .ok (e, rest)) :
    rest <:+ tokens ∧ (done = none → rest.length < tokens.length) := by
  fun_induction readOn cx frames done tokens <;> grind [List.suffix_cons_iff, List.suffix_refl]

theorem suffix_of_read {cx : LineContext} {tokens rest : List Token} {e : Expr}
    (h : read cx tokens = .ok (e, rest)) : rest <:+ tokens ∧ rest.length < tokens.length :=
  ⟨(suffix_of_readOn h).1, (suffix_of_readOn h).2 rfl⟩

end Expr

end Offside

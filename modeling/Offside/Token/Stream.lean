import Offside.Token.Line

/-!
# Token streams

A **stream** hands out the tokens of one line after another. Once the tokens of its line are
used up it repeats the last one, which ends the line, for as long as it is asked. Giving it a
new line starts over with that; a line that does not scan leaves the stream as it was.

What is made of a stream from outside are **requests**: to scan a line, to take the next token, or
to show it. Each of them is answered, or fails, and leaves a stream for the next (`respond`).
-/

namespace Offside

/-- The tokens of a line, and how many of them have been taken. -/
structure Stream where
  tokens : List Token
  index : Nat
  deriving DecidableEq, Repr

namespace Stream

/-- A stream that no line has been given to. -/
def empty : Stream := ⟨[], 0⟩

/-- The stream of the tokens of a line; which stream there was before does not matter. -/
def ofLine (row : Int) (line : String) : Except Failure Stream :=
  match TokenLine.scanAt row line.toList with
  | .error e => .error e
  | .ok scanned => .ok ⟨scanned.toList, 0⟩

/-- The next token, which stays in the stream. -/
def peek (stream : Stream) : Except Breakdown Token :=
  match stream.tokens[stream.index]? with
  | some token => .ok token
  | none =>
    match stream.tokens.getLast? with
    | some token => .ok token
    | none => .error .noTokens

/-- The stream behind its next token. -/
def advance (stream : Stream) : Stream :=
  if stream.index < stream.tokens.length then { stream with index := stream.index + 1 }
  else stream

/-- Takes the next token. -/
def next (stream : Stream) : Except Breakdown (Token × Stream) :=
  stream.peek.map fun token => (token, stream.advance)

/-! ### Requests -/

/-- What is asked of a stream. -/
inductive Request
  | scan (row : Int) (line : String)
  | next
  | peek
  deriving DecidableEq, Repr

/-- What comes back from a request that does not fail. -/
inductive Reply
  | tokens (tokens : List Token)
  | token (token : Token)
  deriving DecidableEq, Repr

/-- Answers a request: the reply to it or its failure, and the stream behind it. A request that
fails leaves the stream as it was. -/
def respond (stream : Stream) : Request → Except Failure Reply × Stream
  | .scan row line =>
    match ofLine row line with
    | .ok fresh => (.ok (.tokens fresh.tokens), fresh)
    | .error failure => (.error failure, stream)
  | .next =>
    match stream.next with
    | .ok (token, rest) => (.ok (.token token), rest)
    | .error breakdown => (.error (.broken breakdown), stream)
  | .peek =>
    match stream.peek with
    | .ok token => (.ok (.token token), stream)
    | .error breakdown => (.error (.broken breakdown), stream)

end Stream

end Offside

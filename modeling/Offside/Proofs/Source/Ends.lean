import Offside.Proofs.Source.Line
import Offside.Token.Line

/-!
# The ends of lines

A line is to end with its last token or with one semicolon behind that: **once**. Reading a line
also accepts a line that ends **twice**, with two semicolons in a row, and then takes no notice of
what follows. That is the only way in which a line that is read may fail to end once
(`TokenLine.endsOnce_iff_of_finish`).
-/

namespace Offside

namespace TokenLine

/-- A line **ends once** when no token follows a semicolon. -/
def EndsOnce (line : TokenLine) : Prop :=
  ∀ token ∈ line.tokens.dropLast, token.kind ≠ .endOfLine

instance (line : TokenLine) : Decidable line.EndsOnce :=
  inferInstanceAs (Decidable (∀ token ∈ line.tokens.dropLast, token.kind ≠ .endOfLine))

/-- A line **ends twice** when two semicolons stand in a row on it. -/
def EndsTwice (line : TokenLine) : Prop :=
  [Kind.endOfLine, .endOfLine] <:+: line.tokens.map fun token => token.kind

instance (line : TokenLine) : Decidable line.EndsTwice :=
  inferInstanceAs (Decidable (_ <:+: _))

/-- The tokens of a line without the semicolon that may end it. -/
def body (line : TokenLine) : List Token :=
  if line.tokens.getLast?.any fun token => token.kind = .endOfLine then line.tokens.dropLast
  else line.tokens

end TokenLine

namespace LineContext

variable {cx : LineContext}

/-- A line that goes on may end with one semicolon, or with two and anything behind them. -/
private theorem finish_cons_eq_ok_iff (hstop : cx.stop.kind = .endOfLine) {first : Token}
    {more : List Token} :
    cx.finish (first :: more) = .ok () ↔
      first.kind = .endOfLine ∧ ∀ second ∈ more.head?, second.kind = .endOfLine := by
  rw [finish]
  split
  · next hfirst =>
    cases more with
    | nil => simp [current, hstop, hfirst]
    | cons second more => by_cases hsecond : second.kind = .endOfLine <;> simp [current, *]
  · next hfirst => simp [hfirst]

end LineContext

namespace TokenLine

variable {cx : LineContext} {line : TokenLine} {front tail : List Token}

/-- The tokens of a line are those in front of its end, and one semicolon at most, unless the line
ends twice. -/
theorem tail_of_finish (hline : line.tokens = front ++ tail) (hstop : cx.stop.kind = .endOfLine)
    (hfinish : cx.finish tail = .ok ()) (hends : ¬ line.EndsTwice) :
    tail = [] ∨ ∃ last, tail = [last] ∧ last.kind = .endOfLine := by
  match tail with
  | [] => exact .inl rfl
  | [last] => exact .inr ⟨last, rfl, ((cx.finish_cons_eq_ok_iff hstop).mp hfinish).1⟩
  | first :: second :: more =>
    obtain ⟨hfirst, hmore⟩ := (cx.finish_cons_eq_ok_iff hstop).mp hfinish
    have hsecond : second.kind = .endOfLine := hmore second rfl
    refine absurd ⟨front.map fun token => token.kind, more.map fun token => token.kind, ?_⟩ hends
    rw [hline]
    simp [hfirst, hsecond]

theorem body_eq_front (hline : line.tokens = front ++ tail)
    (hfront : ∀ token ∈ front, token.kind ≠ .endOfLine)
    (htail : tail = [] ∨ ∃ last, tail = [last] ∧ last.kind = .endOfLine) : line.body = front := by
  rw [body, hline]
  rcases htail with rfl | ⟨last, rfl, hlast⟩
  · rw [List.append_nil, if_neg]
    rw [Option.any_eq_true]
    rintro ⟨last, hmem, hlast⟩
    exact hfront last (List.mem_of_getLast? hmem) (of_decide_eq_true hlast)
  · simp [hlast]

/-- A line that is read ends once unless it ends twice. -/
theorem endsOnce_iff_of_finish (hline : line.tokens = front ++ tail)
    (hfront : ∀ token ∈ front, token.kind ≠ .endOfLine) (hstop : cx.stop.kind = .endOfLine)
    (hfinish : cx.finish tail = .ok ()) : line.EndsOnce ↔ ¬ line.EndsTwice := by
  constructor
  · -- the first of two semicolons in a row is followed by the second
    rintro honce ⟨before, after, htwice⟩
    have hkinds : (line.tokens.map fun token => token.kind).dropLast =
        before ++ .endOfLine :: (.endOfLine :: after).dropLast := by
      rw [← htwice, List.append_assoc, List.cons_append, List.dropLast_append_cons,
        List.cons_append, List.nil_append, List.dropLast_cons_cons]
    have hmem : Kind.endOfLine ∈ line.tokens.dropLast.map fun token => token.kind := by
      rw [List.map_dropLast, hkinds]
      exact List.mem_append_right before List.mem_cons_self
    obtain ⟨token, hmem, hkind⟩ := List.mem_map.mp hmem
    exact honce token hmem hkind
  · -- no token in front of the end is a semicolon, and the end is one token at most
    intro htwice
    have hfew := tail_of_finish hline hstop hfinish htwice
    rw [EndsOnce, hline]
    rcases hfew with rfl | ⟨last, rfl, hlast⟩
    · rw [List.append_nil]
      exact fun token hmem => hfront token (List.dropLast_subset front hmem)
    · rw [List.dropLast_concat]
      exact hfront

end TokenLine

end Offside

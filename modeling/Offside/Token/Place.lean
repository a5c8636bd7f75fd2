import Offside.Diagnostic
import Offside.Text.Blank

/-!
# Placing lexemes

A token is made from a lexeme and a place. `Token.ofLexeme` refuses what is no lexeme of the
language; `Token.place` takes any row and column and refuses, in this order, a lexeme without
content, a place before the beginning, and what is no lexeme.
-/

namespace Offside.Token

/-- The token of a lexeme, if the lexeme is legal. -/
def ofLexeme (row column : Nat) (lexeme : String) : Except Failure Token :=
  match Kind.classify lexeme with
  | some kind => .ok { lexeme, kind, row, column }
  | none => .error (.diagnosed ⟨.illegalLexeme lexeme, some row, some column⟩)

/-- The token of a lexeme at any place. A place before the beginning is reported at the nearest
one that is not. -/
def place (row column : Int) (lexeme : String) : Except Failure Token :=
  if Text.isBlankText lexeme.toList then
    .error (.diagnosed ⟨.blankLexeme, some row, some column⟩)
  else if row < 0 ∨ column < 0 then
    .error (.diagnosed ⟨.negativePlace row column, some (max row 0), some (max column 0)⟩)
  else ofLexeme row.toNat column.toNat lexeme

theorem ofLexeme_eq_ok_iff {row column : Nat} {lexeme : String} {token : Token} :
    ofLexeme row column lexeme = .ok token ↔
      ∃ kind, Kind.classify lexeme = some kind ∧ token = { lexeme, kind, row, column } := by
  rw [ofLexeme]
  split
  · next kind h =>
    rw [Except.ok.injEq]
    exact ⟨fun heq => ⟨kind, h, heq.symm⟩, fun ⟨k, hk, heq⟩ => by
      rw [h, Option.some.injEq] at hk
      rw [heq, hk]⟩
  · next h => exact ⟨nofun, fun ⟨k, hk, _⟩ => by simp [h] at hk⟩

end Offside.Token

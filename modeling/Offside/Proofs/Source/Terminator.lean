import Offside.Proofs.Source.Program

/-!
# The terminator law

A semicolon ends a line, so nothing is to follow it. A line that is read keeps this law unless two
semicolons stand in a row on it, and then it breaks it: the second semicolon passes for the end of
the line, and what follows is not read (`endsOnce_iff_not_endsTwice`).
-/

namespace Offside

/-- A line keeps the law exactly when it does not end twice. -/
private def Lawful (row : Nat) (line : String) : Prop :=
  ∃ scanned, TokenLine.scan row line.toList = .ok scanned ∧ (scanned.EndsOnce ↔ ¬ scanned.EndsTwice)

/-- A blank line is lawful. -/
private theorem lawful_of_isBlankText {row : Nat} {line : String}
    (h : Text.isBlankText line.toList = true) : Lawful row line := by
  refine ⟨⟨[], .closing row 0⟩, ?_, ?_⟩
  · rw [TokenLine.scan_eq_ok_iff, Text.trim_eq_nil_iff.mpr h]
    exact ⟨[], TokenLine.scanFrom_nil row 0, rfl⟩
  · exact iff_of_true nofun (List.infix_nil.not.mpr (List.cons_ne_nil _ _))

private theorem lawful_of_readsAs {row : Nat} {line : String} {group : List Piece}
    (h : ReadsAs row line group) : Lawful row line := by
  obtain ⟨scanned, cx, tail, hscan, hcx, ⟨front, htokens, hwords⟩, hfinish⟩ := h.holds
  have hstop : cx.stop.kind = .endOfLine := hcx ▸ TokenLine.kind_stop_of_scan hscan
  have hfront : ∀ token ∈ front, token.kind ≠ .endOfLine := fun _ =>
    Piece.kind_ne_of_words_eq hwords
  exact ⟨scanned, hscan, TokenLine.endsOnce_iff_of_finish htokens hfront hstop hfinish⟩

/-- A line that is read as an expression is lawful. -/
private theorem lawful_of_ofLine {line : String} {e : Expr} (h : Expr.ofLine line = .ok e) :
    Lawful 0 line := by
  simp only [Expr.ofLine, bind_eq_ok_iff, Prod.exists] at h
  obtain ⟨scanned, hscan, whole, tail, hread, _, hfinish, -⟩ := h
  have hsettled : ∀ token ∈ scanned.tokens, token.toWord.IsSettled := fun token hmem =>
    (TokenLine.settled_of_mem_scan hscan hmem).1
  obtain ⟨front, htokens, hwords⟩ := Expr.words_of_read hsettled hread
  have hfront : ∀ token ∈ front, token.kind ≠ .endOfLine := by
    intro token hmem hkind
    have hword : token.toWord.normal ∈ whole.words := hwords ▸ List.mem_map_of_mem hmem
    refine Expr.kind_ne_of_mem_words hword ?_
    rw [Word.kind_normal, hkind]
    rfl
  exact ⟨scanned, hscan,
    TokenLine.endsOnce_iff_of_finish htokens hfront (TokenLine.kind_stop_of_scan hscan) hfinish⟩

/-- **The terminator law.** Every line of a program that is read scans, and nothing follows a
semicolon on it exactly when no two semicolons stand in a row on it. The same holds of a line that
is read as an expression. -/
theorem endsOnce_iff_not_endsTwice (lines : List String) (line : String) :
    (∀ program, Program.ofLines lines = .ok program → ∀ numbered ∈ lines.zipIdx,
      ∃ scanned, TokenLine.scan numbered.2 numbered.1.toList = .ok scanned ∧
        (scanned.EndsOnce ↔ ¬ scanned.EndsTwice)) ∧
    ∀ e, Expr.ofLine line = .ok e → ∃ scanned, TokenLine.scan 0 line.toList = .ok scanned ∧
      (scanned.EndsOnce ↔ ¬ scanned.EndsTwice) := by
  refine ⟨fun program h numbered hmem => ?_, fun e h => lawful_of_ofLine h⟩
  cases hblank : Text.isBlankText numbered.1.toList with
  | true => exact lawful_of_isBlankText hblank
  | false =>
    obtain ⟨group, hgroup⟩ := Program.readsAs_of_mem h hmem hblank
    exact lawful_of_readsAs hgroup

/-- The law at work on a line with one semicolon and on a line with two. -/
theorem endsOnce_iff_of_semicolons :
    (∃ scanned, TokenLine.scan 0 "display 1;".toList = .ok scanned ∧
      (scanned.EndsOnce ↔ ¬ scanned.EndsTwice)) ∧
    ∃ scanned, TokenLine.scan 0 "x + 1;;".toList = .ok scanned ∧
      (scanned.EndsOnce ↔ ¬ scanned.EndsTwice) := by
  obtain ⟨program, hprogram⟩ :=
    exists_eq_ok (show (Program.ofLines ["display 1;"]).isOk by decide +kernel)
  obtain ⟨e, he⟩ := exists_eq_ok (show (Expr.ofLine "x + 1;;").isOk by decide +kernel)
  obtain ⟨hlines, hline⟩ := endsOnce_iff_not_endsTwice ["display 1;"] "x + 1;;"
  exact ⟨hlines program hprogram ("display 1;", 0) (by simp), hline e he⟩

/-- A line that breaks the law and is read all the same. -/
theorem exists_ofLines_not_endsOnce :
    ∃ program scanned, Program.ofLines ["display 1;;let"] = .ok program ∧
      TokenLine.scan 0 "display 1;;let".toList = .ok scanned ∧ ¬ scanned.EndsOnce := by
  have htwice : (TokenLine.scan 0 "display 1;;let".toList).map (fun scanned =>
      decide scanned.EndsOnce) = .ok false := by decide +kernel
  obtain ⟨program, hprogram⟩ :=
    exists_eq_ok (show (Program.ofLines ["display 1;;let"]).isOk by decide +kernel)
  obtain ⟨scanned, hscan, hlaw⟩ := map_eq_ok_iff.mp htwice
  exact ⟨program, scanned, hprogram, hscan, of_decide_eq_false hlaw⟩

end Offside

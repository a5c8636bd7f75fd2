import Offside.Proofs.Source.Agreement

/-!
# The lines of a statement

For every program, every line of it and every level, reading a statement from that line on keeps to
the lines of the statement (`Reading.statement_owns_lines`). The statements about places ahead are
put in terms of the rows of the program, and it does not matter what the reader has scanned before.
-/

namespace Offside

namespace Ahead

variable {lines : List String} {row : Nat} {p : String × Nat → Prop} {a : Ahead}

private theorem next_ofLines (lines : List String) (row : Nat) :
    (ofLines lines row).next = ofLines lines (row + 1) :=
  congrArg (mk (row + 1)) List.tail_drop

/-- What is ahead behind lines of a program that are passed is the rest of its lines. -/
private theorem Passes.eq_ofLines (h : (ofLines lines row).Passes p a) :
    a = ofLines lines a.row := by
  obtain ⟨passed, hlines, hrow, -⟩ := h
  have hdrop : lines.drop row = passed ++ a.lines := hlines
  have hrest : a.lines = lines.drop a.row := by
    rw [hrow, ofLines, ← List.drop_drop, hdrop, List.drop_left]
  rw [ofLines, ← hrest]

/-- The lines of a program that are passed are as is said. -/
private theorem Passes.of_row_lt (h : (ofLines lines row).Passes p a) {k : Nat} (hk : row ≤ k)
    (hlt : k < a.row) {line : String} (hline : lines[k]? = some line)
    (hwritten : Text.isBlankText line.toList = false) : p (line, k) := by
  obtain ⟨passed, hlines, hrow, hpassed⟩ := h
  have hdrop : lines.drop row = passed ++ a.lines := hlines
  have hinside : k - row < passed.length := by
    change a.row = row + passed.length at hrow
    omega
  have hget : passed[k - row]? = some line := by
    rw [← List.getElem?_append_left hinside, ← hdrop, List.getElem?_drop, Nat.add_sub_cancel' hk,
      hline]
  refine hpassed _ (List.mem_filter.mpr ⟨?_, by simp [hwritten]⟩)
  exact List.mem_zipIdx_iff_le_and_getElem?_sub.mpr ⟨hk, hget⟩

end Ahead

namespace Reading

/-- The cursor that a part of the reader leaves behind, also when it fails. -/
def cursorBehind {α : Type} : EStateM.Result Failure Cursor α → Cursor
  | .ok _ c | .error _ c => c

private theorem Ends.isTrue {α : Type} {good : α → Cursor → Prop}
    {result : EStateM.Result Failure Cursor α}
    (h : Ends good result) : (cursorBehind result).IsTrue := by
  cases result with
  | ok a c => exact h.1
  | error failure c => exact h

/-! ### Rounds written out -/

/-- The first `n` rounds of a loop written out, and the loop behind them. -/
def unrolled {σ α : Type} (round : σ → Reading (σ ⊕ α)) : Nat → σ → Reading α
  | 0, s, c => loop round s c
  | n + 1, s, c =>
    match round s c with
    | .error failure c' => .error failure c'
    | .ok (.inr a) c' => .ok a c'
    | .ok (.inl s') c' =>
      if c'.IsPast c then unrolled round n s' c' else .error (.broken .noTokens) c'

private theorem loop_eq_unrolled {σ α : Type} (n : Nat) (round : σ → Reading (σ ⊕ α)) :
    loop round = unrolled round n := by
  induction n with
  | zero => rfl
  | succ n ih =>
    funext s c
    rw [loop, unrolled]
    cases round s c with
    | error failure c' => rfl
    | ok next c' =>
      cases next with
      | inl s' => simp only [ih]
      | inr a => rfl

/-! ### Statements of a program -/

/-- A statement that is read from a row of a program keeps to its own lines. -/
private theorem ends_statement (lines : List String) (room level row : Nat)
    (scanned : Option TokenLine) :
    Ends (fun s c => s.Owns level (.ofLines lines (row + 1)) c ∧
        (c.bodies = [] ∨ c.StopsBehindBlock level))
      (statement room level ⟨.ofLines lines row, scanned, []⟩) := by
  cases hlines : lines.drop row with
  | nil =>
    have hscan : scan ⟨.ofLines lines row, scanned, []⟩ =
        .error (.broken .noTokens) ⟨.ofLines lines row, scanned, []⟩ := by
      rw [scan, Ahead.ofLines, hlines]
    rw [statement, statementWith, bind_of_eq_error _ hscan]
    exact List.forall_mem_nil _
  | cons line rest =>
    rw [← Ahead.next_ofLines]
    exact keepsToOwn_statement room level ⟨.ofLines lines row, scanned, []⟩ line rest
      (List.forall_mem_nil _) hlines

/-- **Statements own their lines.** Programs may be read statement by statement. From whatever row
`i` a statement is read, and whatever has been scanned before, the cursor is on its line behind a
body exactly if the body is inline. When a statement comes out of it, the cursor is at a later row
`j`. Of the lines in between, each that is not blank is deeper or a further clause of the statement.
The next one is no clause that the statement could go on with, and it is not deeper if the last body
is a block. -/
theorem statement_owns_lines (lines : List String) :
    Program.ofLines lines = andThen (program (.ofLines lines 0)) (fun p _ => .ok p) ∧
    ∀ (room level i : Nat) (scanned : Option TokenLine),
      let result := statement room level ⟨.ofLines lines i, scanned, []⟩
      (∀ last ∈ (cursorBehind result).bodies, last.isOnLine = last.isInline) ∧
      ∀ s c, result = .ok s c →
        let j := c.ahead.row
        i < j ∧ c.ahead = .ofLines lines j ∧
        (∀ k, i < k → k < j → ∀ line ∈ lines[k]?, Text.isBlankText line.toList = false →
          OwnedBy level s.bodies (line, k)) ∧
        ∀ next ∈ (lines.drop j).find? fun line => !Text.isBlankText line.toList,
          (s.isOpen = true → Text.indentLevel next.toList = level → ¬ BeginsClause next) ∧
            ∀ last ∈ c.bodies.head?, last.isInline = false →
              Text.indentLevel next.toList ≤ level := by
  refine ⟨ofLines_eq_program lines, fun room level i scanned => ?_⟩
  intro result
  have hends : Ends _ result := ends_statement lines room level i scanned
  refine ⟨hends.isTrue, fun s c hresult => ?_⟩
  intro j
  obtain ⟨-, howns, hstops⟩ := hends.of_eq_ok hresult
  have hahead : c.ahead = .ofLines lines j := howns.passes.eq_ofLines
  have hfirst : c.ahead.first? =
      (lines.drop j).find? fun line => !Text.isBlankText line.toList := by
    rw [hahead]
    rfl
  rw [← hfirst]
  refine ⟨howns.passes.row_le, hahead, fun k hik hkj line hline hwritten => ?_,
    fun next hnext => ⟨fun hopen => howns.ends hopen next hnext, fun last hlast hblock => ?_⟩⟩
  · exact howns.passes.of_row_lt hik hkj hline hwritten
  · rcases hstops with hnone | ⟨last', hlast', hstops⟩
    · rw [hnone] at hlast
      cases hlast
    · cases hlast.symm.trans hlast'
      exact hstops hblock next hnext

/-- A branch with an inline body and a block, with a branch inside that, and the line behind it. -/
theorem statement_owns_lines_of_branch :
    let lines := ["if 1 < 2: display 1", "", "else:", "\tif 2 < 3:", "\t\tdisplay 2", "\tdisplay 3",
      "display 4"]
    ∃ s c, statement 3 0 (.ofLines lines 0) = .ok s c ∧ c.ahead = .ofLines lines 6 ∧
      c.bodies = [⟨false, false⟩, ⟨false, false⟩, ⟨true, true⟩] ∧ OwnedBy 0 s.bodies ("else:", 2) ∧
      OwnedBy 0 s.bodies ("\tdisplay 3", 5) := by
  intro lines
  have hvalue : (match statement 3 0 (.ofLines lines 0) with
      | .ok _ c => some (c.ahead.row, c.bodies)
      | .error .. => none) = some (6, [⟨false, false⟩, ⟨false, false⟩, ⟨true, true⟩]) := by
    -- no loop goes on for more than three rounds here
    simp only [statement, block, statements, statementWith, statementFrom, branchStatement,
      loop_eq_unrolled 3]
    decide +kernel
  cases hresult : statement 3 0 (.ofLines lines 0) with
  | error failure c =>
    rw [hresult] at hvalue
    cases hvalue
  | ok s c =>
    rw [hresult] at hvalue
    obtain ⟨hrow, hbodies⟩ := Prod.mk.inj (Option.some.inj hvalue)
    obtain ⟨-, hahead, howned, -⟩ := ((statement_owns_lines lines).2 3 0 0 none).2 s c hresult
    rw [hrow] at hahead howned
    exact ⟨s, c, rfl, hahead, hbodies, howned 2 (by decide) (by decide) _ rfl (by decide),
      howned 5 (by decide) (by decide) _ rfl (by decide)⟩

end Reading

end Offside

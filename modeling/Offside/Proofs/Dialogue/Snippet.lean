import Offside.Dialogue
import Offside.Proofs.Run.Faults
import Offside.Proofs.Run.Input
import Offside.Proofs.Source.Offence

/-!
# Snippets in a dialogue

What becomes of a snippet, case by case (`Dialogue.Takes`). As a program it is run on the store of
the dialogue; a single line that is no program may be an expression, which is answered; and if it is
neither, the diagnostic of the program is reported. Every diagnostic is reported, and the dialogue
goes on behind it. What ends the dialogue is a number of too many digits, or a run that is not
finished in the rounds it may take (`Dialogue.takes_submit`).
-/

namespace Offside

/-! ### Breakdowns -/

/-- The breakdowns over numbers of too many digits. -/
inductive Breakdown.IsOfDigits : Breakdown → Prop
  | numeral {digits : Nat} : digitLimit < digits → IsOfDigits (.numeralTooLong digits)
  | value : IsOfDigits .valueTooLong

open Numeral (IsWritable)

variable {lines : List String} {line : String} {b : Breakdown}

/-- Lines break down by their literals only. -/
private theorem Program.isOfDigits_of_ofLines (h : ofLines lines = .error (.broken b)) :
    b.IsOfDigits := by
  rcases bind_eq_error_iff.mp h with hlines | ⟨p, -, hfinish⟩
  · obtain ⟨front, line, back, p, rfl, -, hline⟩ := exists_of_foldlM_eq_error hlines
    cases Progress.offends_of_feed hline with
    | numeral _ _ _ hlong => exact .numeral hlong
  · obtain ⟨level, -, hfailure⟩ := Progress.exists_of_finish_eq_error hfinish
    cases hfailure

/-- A run of a program that is read breaks down over numbers only. -/
private theorem Program.isOfDigits_of_run {program : Program} {bounds : Bounds} {s s' : State}
    (h : ofLines lines = .ok program) (hrun : program.run bounds s = .failed (.broken b) s') :
    b.IsOfDigits := by
  have hfailed : (program.run bounds s).failure? = some (.broken b) :=
    Outcome.failure?_eq_some_iff.mpr ⟨s', hrun⟩
  cases isForeseen_of_run (exists_groups h).1 hfailed with
  | numeral digits hlong => exact .numeral hlong
  | value => exact .value

namespace Expr

variable {e : Expr}

/-- A line breaks down as an expression by its literals only. -/
private theorem isOfDigits_of_ofLine (h : ofLine line = .error (.broken b)) : b.IsOfDigits := by
  rcases bind_eq_error_iff.mp h with hscan | ⟨scanned, -, h⟩
  · obtain ⟨lexeme, place, hfailure, -⟩ := TokenLine.offence_of_scan hscan
    cases hfailure
  have hstop : scanned.stop ∈ scanned.toList := List.mem_append_right _ List.mem_cons_self
  have htokens : scanned.tokens ⊆ scanned.toList := List.subset_append_left _ _
  rcases bind_eq_error_iff.mp h with hread | ⟨⟨e, rest⟩, hread, h⟩
  · cases (blames_read hstop htokens).of_eq_error hread with
    | numeral _ _ hlong => exact .numeral hlong
  have hrest : rest ⊆ scanned.toList := (blames_read hstop htokens).of_eq_ok hread
  rcases bind_eq_error_iff.mp h with hfinish | ⟨_, -, h⟩
  · cases (LineContext.blames_finish hstop hrest).of_eq_error hfinish with
    | numeral _ _ hlong => exact .numeral hlong
  · cases h

private theorem isWellFormed_of_ofLine (h : ofLine line = .ok e) : e.isWellFormed = true := by
  simp only [ofLine, bind_eq_ok_iff, Prod.exists] at h
  obtain ⟨scanned, hscan, whole, rest, hread, _, -, hwhole⟩ := h
  cases hwhole
  exact isWellFormed_of_read
    (fun token hmem => (TokenLine.settled_of_mem_scan hscan hmem).1) hread

/-- A line that is read as an expression does not break down. -/
theorem evaluate_ne_broken (h : ofLine line = .ok e) (store : Store) :
    e.evaluate store ≠ .error (.broken b) := by
  intro hvalue
  have he : e.isCanonical = true := (Bool.and_eq_true_iff.mp (isWellFormed_of_ofLine h)).1
  obtain ⟨_, hfailure⟩ := (mayFail_of_evaluate hvalue).exists_division he
  cases hfailure

end Expr

/-! ### What becomes of a snippet -/

/-- Lines are **an expression** when they are no program, but a single line that reads as the
expression. -/
structure Snippet.IsExpression (lines : List String) (e : Expr) : Prop where
  not_program : ∃ fault, Program.ofLines lines = .error (.diagnosed fault)
  single : ∃ line, lines = [line] ∧ Expr.ofLine line = .ok e

open Snippet (IsExpression)

/-- The dialogue that a turn leaves. -/
def Turn.dialogue : Turn → Dialogue
  | .next d | .over _ d => d

namespace Dialogue

/-- A dialogue **takes** a snippet: what may become of it. -/
inductive Takes (bounds : Bounds) (d : Dialogue) (lines : List String) : Turn → Prop
  /-- A program is run to its end. -/
  | ran {program : Program} {s : State} :
    Program.ofLines lines = .ok program →
      program.run bounds ⟨d.store, d.input, 0, []⟩ = .done s →
        Takes bounds d lines (.next (d.adopt s))
  /-- A program is run up to a fault, which is reported. -/
  | faulted {program : Program} {fault : Diagnostic} {s : State} :
    Program.ofLines lines = .ok program →
      program.run bounds ⟨d.store, d.input, 0, []⟩ = .failed (.diagnosed fault) s →
        Takes bounds d lines (.next ((d.adopt s).say (.report fault)))
  /-- A program is run up to a number of too many digits. -/
  | broke {program : Program} {b : Breakdown} {s : State} :
    Program.ofLines lines = .ok program →
      program.run bounds ⟨d.store, d.input, 0, []⟩ = .failed (.broken b) s → b.IsOfDigits →
        Takes bounds d lines (.over (.broken b) (d.adopt s))
  /-- A program does not come to its end in the rounds that its loops may take. -/
  | endless {program : Program} :
    Program.ofLines lines = .ok program →
      program.run bounds ⟨d.store, d.input, 0, []⟩ = .unfinished →
        Takes bounds d lines (.over .unfinished d)
  /-- The value of an expression is the answer, and the store is left alone. -/
  | answered {e : Expr} {value : Int} :
    IsExpression lines e → e.evaluate d.store = .ok value → IsWritable value →
      Takes bounds d lines (.next (d.say (.answer value)))
  /-- A fault in the evaluation of an expression is reported. -/
  | unanswered {e : Expr} {fault : Diagnostic} :
    IsExpression lines e → e.evaluate d.store = .error (.diagnosed fault) →
      Takes bounds d lines (.next (d.say (.report fault)))
  /-- The value of an expression has too many digits. -/
  | unwritable {e : Expr} {value : Int} :
    IsExpression lines e → e.evaluate d.store = .ok value → ¬ IsWritable value →
      Takes bounds d lines (.over (.broken .valueTooLong) d)
  /-- What is neither a program nor an expression is rejected, with the diagnostic of the
  program. -/
  | rejected {fault : Diagnostic} :
    Program.ofLines lines = .error (.diagnosed fault) →
      (∀ line, lines = [line] → ∃ other, Expr.ofLine line = .error (.diagnosed other)) →
        Takes bounds d lines (.next (d.say (.report fault)))
  /-- A literal has too many digits to be read. -/
  | illegible {b : Breakdown} :
    Program.ofLines lines = .error (.broken b) → b.IsOfDigits →
      Takes bounds d lines (.over (.broken b) d)
  /-- A literal has too many digits to be read, on a line that is no program. -/
  | illegibleLine {line : String} {fault : Diagnostic} {b : Breakdown} :
    lines = [line] → Program.ofLines lines = .error (.diagnosed fault) →
      Expr.ofLine line = .error (.broken b) → b.IsOfDigits →
        Takes bounds d lines (.over (.broken b) d)

variable {bounds : Bounds} {d d' : Dialogue}

private theorem takes_run {program : Program} (h : Program.ofLines lines = .ok program) :
    d.Takes bounds lines (d.run bounds program) := by
  unfold run
  split
  · next s hrun => exact .ran h hrun
  · next failure s hrun =>
    cases failure with
    | diagnosed fault => exact .faulted h hrun
    | broken b => exact .broke h hrun (Program.isOfDigits_of_run h hrun)
  · next hrun => exact .endless h hrun

private theorem takes_answer {e : Expr} (h : IsExpression lines e) :
    d.Takes bounds lines (d.answer e) := by
  obtain ⟨line, -, hline⟩ := h.single
  rw [answer, e.value_eq_evaluate]
  cases hvalue : e.evaluate d.store with
  | error failure =>
    cases failure with
    | diagnosed fault => exact .unanswered h hvalue
    | broken b => exact absurd hvalue (Expr.evaluate_ne_broken hline d.store)
  | ok value =>
    by_cases hwritable : IsWritable value
    · simp only [Numeral.write_of_isWritable hwritable]
      exact .answered h hvalue hwritable
    · simp only [Numeral.write_of_not_isWritable hwritable]
      exact .unwritable h hvalue hwritable

/-- **What becomes of a snippet.** -/
theorem takes_submit (bounds : Bounds) (d : Dialogue) (lines : List String) :
    d.Takes bounds lines (d.submit bounds lines) := by
  rw [submit, Snippet.ofLines]
  cases hprogram : Program.ofLines lines with
  | ok program => exact takes_run hprogram
  | error failure =>
    cases failure with
    | broken b => exact .illegible hprogram (Program.isOfDigits_of_ofLines hprogram)
    | diagnosed fault =>
      match lines, hprogram with
      | [], hprogram | _ :: _ :: _, hprogram => exact .rejected hprogram nofun
      | [line], hprogram =>
        dsimp only
        cases hline : Expr.ofLine line with
        | ok e => exact takes_answer ⟨⟨fault, hprogram⟩, line, rfl, hline⟩
        | error failure =>
          cases failure with
          | broken b =>
            exact .illegibleLine rfl hprogram hline (Expr.isOfDigits_of_ofLine hline)
          | diagnosed other =>
            refine .rejected hprogram ?_
            rintro _ ⟨⟩
            exact ⟨other, hline⟩

namespace Takes

variable {turn : Turn}

/-- What is no program leaves the store alone. -/
theorem store_eq (h : d.Takes bounds lines turn)
    (hlines : ∀ program, Program.ofLines lines ≠ .ok program) :
    turn.dialogue.store = d.store := by
  cases h with
  | ran hprogram | faulted hprogram | broke hprogram | endless hprogram =>
    exact absurd hprogram (hlines _)
  | answered | unanswered | unwritable | rejected | illegible | illegibleLine => rfl

/-- A snippet is no part of the dialogue behind it. -/
theorem pending_eq (h : d.Takes bounds lines turn) : turn.dialogue.pending = d.pending := by
  cases h <;> rfl

/-- A snippet takes its input from the front. -/
theorem input_suffix (h : d.Takes bounds lines turn) : turn.dialogue.input <:+ d.input := by
  have hrun : ∀ {program : Program} {s : State},
      (program.run bounds ⟨d.store, d.input, 0, []⟩).state? = some s → s.input <:+ d.input :=
    Program.input_suffix_of_run
  cases h with
  | ran _ hs | faulted _ hs | broke _ hs => exact hrun (congrArg Outcome.state? hs)
  | endless | answered | unanswered | unwritable | rejected | illegible | illegibleLine =>
    exact List.suffix_rfl

end Takes

end Dialogue

end Offside

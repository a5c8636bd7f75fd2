import Offside.Text.Indent

/-!
# Indentation, run by run

A margin may be measured **from the left**, run by run: every tab is a level, every four spaces that
stand together are a level, and up to three spaces at the end of a run are **spare** and count for
nothing. `indentLevel` counts all tabs and all spaces of the margin instead, wherever they stand. So
spare spaces of several runs count for a level when there are four of them together, and the two
measures agree just where there are not (`indentLevel_eq_levelsByRuns_iff`).
-/

namespace Offside.Text

/-- The levels that are found in front of a line from the left: a tab is one, and four spaces that
stand together are one. -/
def levelsByRuns : List Char → Nat
  | ' ' :: ' ' :: ' ' :: ' ' :: rest => levelsByRuns rest + 1
  | '\t' :: rest => levelsByRuns rest + 1
  | ' ' :: rest => levelsByRuns rest
  | _ => 0

/-- The spaces in front of a line that are left over at the ends of runs of spaces. -/
def spareSpaces : List Char → Nat
  | ' ' :: ' ' :: ' ' :: ' ' :: rest => spareSpaces rest
  | '\t' :: rest => spareSpaces rest
  | ' ' :: rest => spareSpaces rest + 1
  | _ => 0

/-- A tab is worth four spaces, and every space of the margin is one of four that make a level or is
spare. -/
private theorem count_margin (line : List Char) :
    4 * (margin line).count '\t' + (margin line).count ' ' =
      4 * levelsByRuns line + spareSpaces line := by
  fun_induction levelsByRuns line with
  | case1 rest ih =>
    have hmargin : margin (' ' :: ' ' :: ' ' :: ' ' :: rest) =
        ' ' :: ' ' :: ' ' :: ' ' :: margin rest := rfl
    rw [hmargin, spareSpaces]
    simp only [List.count_cons_self, List.count_cons_of_ne (by decide : ' ' ≠ '\t')]
    omega
  | case2 rest ih =>
    have hmargin : margin ('\t' :: rest) = '\t' :: margin rest := rfl
    rw [hmargin, spareSpaces, List.count_cons_self, List.count_cons_of_ne (by decide)]
    omega
  | case3 rest hfew ih =>
    have hmargin : margin (' ' :: rest) = ' ' :: margin rest := rfl
    rw [hmargin, spareSpaces, List.count_cons_self, List.count_cons_of_ne (by decide)]
    · omega
    · exact hfew
  | case4 line _ htab hspace =>
    -- the line does not begin with a tab or a space
    have hmargin : margin line = [] := by
      cases line with
      | nil => rfl
      | cons c rest =>
        refine List.takeWhile_cons_of_neg fun hc => ?_
        rw [isMargin, Bool.or_eq_true, beq_iff_eq, beq_iff_eq] at hc
        rcases hc with rfl | rfl
        · exact htab rest rfl
        · exact hspace rest rfl
    rw [hmargin, spareSpaces]
    · rfl
    all_goals assumption

/-- **The level** of a line is what is found run by run, and one more for every four spare spaces.
So the two agree exactly where fewer than four spaces are spare in all. -/
theorem indentLevel_eq_levelsByRuns_iff (line : List Char) :
    indentLevel line = levelsByRuns line + spareSpaces line / 4 ∧
      (indentLevel line = levelsByRuns line ↔ spareSpaces line < 4) := by
  have hcount := count_margin line
  rw [indentLevel]
  omega

/-- Two spaces on either side of a tab are a level together, though there are no four in a row. -/
theorem indentLevel_ne_levelsByRuns :
    indentLevel "  \t  x".toList ≠ levelsByRuns "  \t  x".toList := by
  decide +kernel

end Offside.Text

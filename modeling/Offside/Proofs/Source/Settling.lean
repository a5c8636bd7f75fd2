import Offside.Proofs.Failing
import Offside.Proofs.Tree.Layouts
import Offside.Source.Layout

/-!
# Blocks that are still open

A block is closed by the next line that is indented less, so behind a statement the blocks inside
it may still be open. Progress **settles** with some statements and levels when closing blocks
leaves these, whatever the next line is (`Progress.SettlesAt`). For the lines to come that is all
that matters: the next line of the right depth is read with the statements that progress settles
with (`Progress.feed_text`), and progress that settles in a block settles outside it with the
block's statement completed (`Progress.SettlesAt.complete`).
-/

namespace Offside

namespace Progress

variable {p : Progress} {next : Option Nat} {depth : Nat} {levels levels' : List Level}
  {statements statements' : List Statement}

/-! ### Closing blocks -/

theorem close_of_length_le (h : levels.length ≤ depth) :
    close next depth levels statements = .ok (statements, levels) := by
  cases levels with
  | nil => rfl
  | cons level outer => exact if_pos h

private theorem length_le_of_close
    (h : close next depth levels statements = .ok (statements', levels')) :
    levels'.length ≤ levels.length := by
  fun_induction close next depth levels statements with
  | case1 statements => cases h; exact Nat.le_refl _
  | case2 level outer statements houter => cases h; exact Nat.le_refl _
  | case3 => cases h
  | case4 level outer statements houter hempty body ih => exact Nat.le_succ_of_le (ih h)

/-- Blocks may be closed in two steps. -/
private theorem close_close {depth' : Nat} (hdepth : depth' ≤ depth) :
    close next depth' levels statements =
      close next depth levels statements >>= fun (statements', levels') =>
        close next depth' levels' statements' := by
  fun_induction close next depth levels statements with
  | case1 statements => rfl
  | case2 level outer statements houter => rfl
  | case3 level outer statements houter hempty =>
    -- an empty block fails in the first step already
    rw [close, if_neg (by omega), if_pos hempty]
    rfl
  | case4 level outer statements houter hempty body ih =>
    rw [close, if_neg (by omega), if_neg hempty]
    exact ih

/-! ### Settling -/

/-- Progress **settles** with statements and levels when closing the blocks inside the innermost
of these levels leaves just them. -/
def SettlesAt (p : Progress) (statements : List Statement) (levels : List Level) : Prop :=
  ∀ next, close next levels.length p.levels p.statements = .ok (statements, levels)

theorem settlesAt_self (row : Nat) (statements : List Statement) (levels : List Level) :
    SettlesAt ⟨row, statements, levels⟩ statements levels :=
  fun _ => close_of_length_le (Nat.le_refl _)

/-- Outside a block its statement is completed, with the statements that the block holds. -/
theorem SettlesAt.complete {level : Level} (h : p.SettlesAt statements (level :: levels))
    (hne : statements ≠ []) :
    p.SettlesAt (level.heading.complete (.mk (some level.colon.row) statements.reverse) ::
      level.before) levels := by
  intro next
  have hinner : close next levels.length.succ p.levels p.statements =
      .ok (statements, level :: levels) := h next
  rw [close_close (Nat.le_succ levels.length), hinner, ok_bind]
  change close next levels.length (level :: levels) statements = _
  rw [close, if_neg (Nat.lt_irrefl _), if_neg (by simpa using hne)]
  exact close_of_length_le (Nat.le_refl _)

/-! ### The next line -/

/-- A line of the right depth is read with the statements that progress settles with. -/
theorem feed_of_settlesAt (h : p.SettlesAt statements levels) {line : String}
    (hblank : Text.isBlankText line.toList = false)
    (hdepth : Text.indentLevel line.toList = levels.length) :
    p.feed line = TokenLine.scan p.row line.toList >>= fun scanned =>
      LineContent.read ⟨scanned.stop, nestingLimit - levels.length⟩ statements scanned.tokens >>=
        add p.row levels := by
  have hlength := length_le_of_close (h none)
  rw [feed, hblank, if_neg Bool.false_ne_true, hdepth, if_neg (Nat.not_lt.mpr hlength), h]
  rfl

/-- A row of the right depth, written down, is read with the statements that progress settles
with. -/
theorem feed_text (h : p.SettlesAt statements levels) {row : Row} (hrow : row.isWellFormed = true)
    (hdepth : row.depth = levels.length) :
    ∃ cx tokens, LineContext.room cx = nestingLimit - levels.length ∧ cx.stop.kind = .endOfLine ∧
      Spells p.row tokens row.words ∧
        p.feed row.text = LineContent.read cx statements tokens >>= add p.row levels := by
  have hplain := row.isPlain_of_mem_words hrow
  have hsettled : ∀ word ∈ row.words, word.IsSettled := fun word hmem =>
    (hplain word hmem).toIsSettled
  have hne := row.words_ne_nil hrow
  have hblank : Text.isBlankText row.text.toList = false := by
    rw [Row.text, String.toList_ofList, Word.isBlankText_tabbed row.depth hne hsettled]
  have hlevel : Text.indentLevel row.text.toList = levels.length := by
    rw [Row.text, String.toList_ofList, Word.indentLevel_tabbed row.depth hne hsettled, hdepth]
  obtain ⟨scanned, hscan, hwords⟩ : ∃ scanned,
      TokenLine.scan p.row (Word.tabbed row.depth row.words) = .ok scanned ∧
        scanned.words = row.words :=
    ⟨_, TokenLine.scan_tabbed p.row row.depth hsettled, Token.map_toWord_spaced _ _ _⟩
  have hscan' : TokenLine.scan p.row row.text.toList = .ok scanned := by
    rw [Row.text, String.toList_ofList, hscan]
  have hspells : Spells p.row scanned.tokens row.words := by
    refine ⟨?_, fun token hmem => ?_⟩
    · rw [← hwords, TokenLine.words] at hplain
      rw [← hwords, TokenLine.words, Token.words]
      exact List.map_congr_left fun token hmem => (hplain _ (List.mem_map_of_mem hmem)).normal_eq
    · have hword : token.toWord ∈ row.words := hwords ▸ List.mem_map_of_mem hmem
      exact ⟨(hplain _ hword).toIsReadable, (TokenLine.settled_of_mem_scan hscan hmem).2⟩
  refine ⟨⟨scanned.stop, _⟩, scanned.tokens, rfl, TokenLine.kind_stop_of_scan hscan, hspells, ?_⟩
  rw [feed_of_settlesAt h hblank hlevel, hscan']
  rfl

end Progress

end Offside

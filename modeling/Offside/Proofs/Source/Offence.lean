import Offside.Proofs.Source.Blame
import Offside.Proofs.Source.Written
import Offside.Proofs.Token.Placed

/-!
# The first offence

A program that cannot be read has a **first offence**: a place on one of its lines, where the lines
before that could all be read so far, and what is read up to that line fails alike whatever follows
(`Program.first_offence_of_ofLines`). A missing block is the exception. It is found missing only
when the next line, or the end of the input, shows that nothing is indented below the colon, so what
follows matters there.

While lines are read, the colons of all open blocks stand on lines that were read
(`Progress.IsBehind`). So a block that is found missing later is blamed on one of these.
-/

namespace Offside

/-! ### Computations that fail -/

section Folds

variable {σ α ε : Type} {f : σ → α → Except ε σ}

/-- A fold that fails does so at its first step that fails. -/
theorem exists_of_foldlM_eq_error {s : σ} {items : List α} {failure : ε}
    (h : items.foldlM f s = .error failure) :
    ∃ front item back s', items = front ++ item :: back ∧ front.foldlM f s = .ok s' ∧
      f s' item = .error failure := by
  induction items generalizing s with
  | nil => cases h
  | cons item items ih =>
    rw [List.foldlM_cons] at h
    rcases bind_eq_error_iff.mp h with h | ⟨s', hs', h⟩
    · exact ⟨[], item, items, s, rfl, rfl, h⟩
    · obtain ⟨front, item', back, s'', rfl, hfront, hitem⟩ := ih h
      refine ⟨item :: front, item', back, s'', rfl, ?_, hitem⟩
      rw [List.foldlM_cons, hs', ok_bind, hfront]

/-- A fold that succeeds has succeeded on the way. -/
private theorem exists_foldlM_take_eq_ok {s s' : σ} {items : List α} (h : items.foldlM f s = .ok s')
    (n : Nat) : ∃ s'', (items.take n).foldlM f s = .ok s'' := by
  rw [← List.take_append_drop n items, List.foldlM_append] at h
  obtain ⟨s'', hs'', -⟩ := bind_eq_ok_iff.mp h
  exact ⟨s'', hs''⟩

/-- What a computation fails by does not go by the result that it might have had. -/
private theorem eq_error_of_map {first : Except ε α} {failure : ε}
    (h : (first.map fun _ => ()) = .error failure) : first = .error failure := by
  cases first with
  | error failure' => exact congrArg Except.error (Except.error.inj h)
  | ok a => cases h

end Folds

/-! ### Places -/

/-- A place **stands in** a program when it is on one of its lines that is not blank, and at most
just behind the text of that. -/
def StandsIn (lines : List String) (row column : Nat) : Prop :=
  ∃ line, lines[row]? = some line ∧ Text.isBlankText line.toList = false ∧
    column ≤ (Text.trim line.toList).length

private theorem StandsIn.append {lines : List String} {row column : Nat}
    (h : StandsIn lines row column)
    (more : List String) : StandsIn (lines ++ more) row column := by
  obtain ⟨line, hline, hplace⟩ := h
  have hrow := (List.getElem?_eq_some_iff.mp hline).1
  exact ⟨line, (List.getElem?_append_left hrow).trans hline, hplace⟩

/-! ### Colons of open blocks -/

namespace Progress

variable {p p' : Progress} {lines : List String} {line : String} {failure : Failure}

/-- Progress is **behind** the lines that were read, when it has come to the row behind them and the
colons of all open blocks stand in them. -/
structure IsBehind (p : Progress) (lines : List String) : Prop where
  row : p.row = lines.length
  colons : ∀ level ∈ p.levels, StandsIn lines level.colon.row level.colon.column

private theorem isBehind_start : start.IsBehind [] where
  row := rfl
  colons _ hlevel := absurd hlevel List.not_mem_nil

/-- Closing blocks closes the innermost ones. -/
private theorem levels_suffix_of_close {next : Option Nat} {depth : Nat}
    {levels levels' : List Level}
    {statements statements' : List Statement}
    (h : close next depth levels statements = .ok (statements', levels')) : levels' <:+ levels := by
  fun_induction close next depth levels statements with
  | case1 => cases h; exact List.suffix_refl []
  | case2 level outer => cases h; exact List.suffix_refl _
  | case3 => cases h
  | case4 level outer statements houter hempty body ih =>
    exact (ih h).trans (List.suffix_cons level outer)

/-- Closing blocks fails at a block that is empty, and blames its colon. -/
private theorem exists_of_close_eq_error {next : Option Nat} {depth : Nat} {levels : List Level}
    {statements : List Statement} (h : close next depth levels statements = .error failure) :
    ∃ level ∈ levels, failure = .atToken (.missingBlock next) level.colon := by
  fun_induction close next depth levels statements with
  | case1 => cases h
  | case2 => cases h
  | case3 level outer => cases h; exact ⟨level, List.mem_cons_self, rfl⟩
  | case4 level outer statements houter hempty body ih =>
    obtain ⟨inner, hinner, hfailure⟩ := ih h
    exact ⟨inner, List.mem_cons_of_mem level hinner, hfailure⟩

/-- A token of a line stands in the program that the line is added to. -/
private theorem standsIn_of_scan {scanned : TokenLine} {token : Token}
    (hline : Text.isBlankText line.toList = false)
    (hscan : TokenLine.scan lines.length line.toList = .ok scanned)
    (hmem : token ∈ scanned.toList) : StandsIn (lines ++ [line]) token.row token.column := by
  refine ⟨line, ?_, hline, TokenLine.column_of_mem_scan hscan hmem⟩
  rw [TokenLine.row_of_mem_scan hscan hmem]
  exact List.getElem?_concat_length

/-- A line is read, or it is blamed. -/
private theorem blames_read_of_scan (scanned : TokenLine) (room : Nat) (before : List Statement) :
    Abides (Blames scanned.toList) (fun result => result.1.HasColon scanned.toList)
      (LineContent.read ⟨scanned.stop, room⟩ before scanned.tokens) :=
  LineContent.blames_read (List.mem_append_right _ List.mem_cons_self) before
    (List.subset_append_left _ _)

/-- **One line** keeps progress behind the lines that were read. -/
theorem IsBehind.feed (hp : p.IsBehind lines) (h : p.feed line = .ok p') :
    p'.IsBehind (lines ++ [line]) := by
  have hlength : (lines ++ [line]).length = lines.length + 1 := List.length_append
  cases hline : Text.isBlankText line.toList with
  | true =>
    rw [feed_of_isBlankText hline] at h
    cases h
    exact ⟨by rw [hlength, hp.row], fun level hlevel => (hp.colons level hlevel).append [line]⟩
  | false =>
    rw [feed_eq_take hline] at h
    have hrow := row_of_take h
    obtain ⟨statements, levels, scanned, content, before, hclose, hscan, hread, hadd⟩ :=
      exists_of_take h
    refine ⟨by rw [hrow, hlength, ← hp.row]; rfl, ?_⟩
    have hlevels : ∀ level ∈ levels,
        StandsIn (lines ++ [line]) level.colon.row level.colon.column :=
      fun level hlevel =>
        (hp.colons level ((levels_suffix_of_close hclose).subset hlevel)).append [line]
    have hcolon := (blames_read_of_scan scanned _ statements).of_eq_ok hread
    obtain ⟨_, -, rfl⟩ | ⟨heading, colon, rfl, rfl⟩ := cases_of_add hadd
    · exact hlevels
    · rw [SourceLine.ofNumbered, hp.row] at hscan
      exact List.forall_mem_cons.mpr ⟨standsIn_of_scan hline hscan hcolon, hlevels⟩

/-- **All lines** that are read keep progress behind them. -/
theorem IsBehind.foldlM {front : List String} (hp : p.IsBehind front)
    (h : lines.foldlM Progress.feed p = .ok p') : p'.IsBehind (front ++ lines) := by
  induction lines generalizing p front with
  | nil =>
    cases h
    rwa [List.append_nil]
  | cons line lines ih =>
    rw [List.foldlM_cons] at h
    obtain ⟨p'', hline, h⟩ := bind_eq_ok_iff.mp h
    rw [List.append_cons]
    exact ih (hp.feed hline) h

/-! ### Failures -/

/-- What one line may fail by: an **offence** on the line, a block above the line that is missing, a
literal of too many digits, or nesting. -/
inductive Offends (p : Progress) (line : String) : Failure → Prop
  | offence {cause : Cause} {column : Nat} :
    (cause.family = .lexical ∨ cause.family = .grammatical) →
      Text.isBlankText line.toList = false → column ≤ (Text.trim line.toList).length →
        Offends p line (.diagnosed ⟨cause, some p.row, some column⟩)
  | missing {level : Level} :
    level ∈ p.levels → Offends p line (.atToken (.missingBlock (some p.row)) level.colon)
  | numeral {scanned : TokenLine} {token : Token} :
    TokenLine.scan p.row line.toList = .ok scanned → token ∈ scanned.toList →
      token.kind = .integer → digitLimit < token.lexeme.toList.length →
        Offends p line (.broken (.numeralTooLong token.lexeme.toList.length))
  | nesting : Offends p line (.unplaced .nestedTooDeeplyToRead)

private theorem family_indentationCause (depth found : Nat) :
    (indentationCause depth found).family = .grammatical := by
  unfold indentationCause
  split <;> rfl

/-- To blame a line is to name an offence on it, a literal of too many digits, or nesting. -/
private theorem offends_of_blames {scanned : TokenLine}
    (hline : Text.isBlankText line.toList = false)
    (hscan : TokenLine.scan p.row line.toList = .ok scanned)
    (h : Blames scanned.toList failure) : p.Offends line failure := by
  cases h with
  | @token cause token hmem hcause =>
    have hplace := TokenLine.column_of_mem_scan hscan hmem
    rw [Failure.atToken, TokenLine.row_of_mem_scan hscan hmem]
    exact .offence (.inr (Cause.family_of_isOfToken hcause)) hline hplace
  | numeral hmem hkind hlong => exact .numeral hscan hmem hkind hlong
  | nesting => exact .nesting

/-- **A line that is not taken** offends. -/
theorem offends_of_feed (h : p.feed line = .error failure) : p.Offends line failure := by
  cases hline : Text.isBlankText line.toList with
  | true =>
    rw [feed_of_isBlankText hline] at h
    cases h
  | false =>
    rw [feed, hline, if_neg Bool.false_ne_true] at h
    split at h
    · cases h
      exact .offence (.inr (family_indentationCause _ _)) hline (Nat.zero_le _)
    · rcases bind_eq_error_iff.mp h with hclose | ⟨⟨statements, levels⟩, hclose, h⟩
      · obtain ⟨level, hlevel, rfl⟩ := exists_of_close_eq_error hclose
        exact .missing hlevel
      rcases bind_eq_error_iff.mp h with hscan | ⟨scanned, hscan, h⟩
      · obtain ⟨lexeme, place, rfl, hplace⟩ := TokenLine.offence_of_scan hscan
        exact .offence (.inl rfl) hline (Nat.le_of_lt hplace)
      rcases bind_eq_error_iff.mp h with hread | ⟨⟨content, before⟩, -, hadd⟩
      · have hblames := (blames_read_of_scan scanned _ statements).of_eq_error hread
        exact offends_of_blames hline hscan hblames
      · rw [eq_of_add_eq_error hadd]
        exact .nesting

/-- What is read so far may lack a block at the end of the input, and nothing else. -/
theorem exists_of_finish_eq_error (h : p.finish = .error failure) :
    ∃ level ∈ p.levels, failure = .atToken (.missingBlock none) level.colon := by
  rcases bind_eq_error_iff.mp h with hclose | ⟨_, -, h⟩
  · exact exists_of_close_eq_error hclose
  · cases h

end Progress

/-! ### Programs -/

namespace Program

variable {lines : List String} {failure : Failure}

/-- Lines are **blameless** when they are a program, or lack nothing but a block at their end. -/
def Blameless (lines : List String) : Prop :=
  (∃ program, ofLines lines = .ok program) ∨
    ∃ d, ofLines lines = .error (.diagnosed d) ∧ d.cause = .missingBlock none

private theorem ofLines_eq_finish {p : Progress} (h : lines.foldlM Progress.feed .start = .ok p) :
    ofLines lines = p.finish := by
  rw [ofLines, h, ok_bind]

/-- Lines that could all be read so far are blameless. -/
private theorem blameless_of_foldlM {p : Progress} (h : lines.foldlM Progress.feed .start = .ok p) :
    Blameless lines := by
  rw [Blameless, ofLines_eq_finish h]
  cases hfinish : p.finish with
  | ok program => exact .inl ⟨program, rfl⟩
  | error failure =>
    obtain ⟨level, -, rfl⟩ := Progress.exists_of_finish_eq_error hfinish
    exact .inr ⟨_, rfl, rfl⟩

/-- What the lines up to a failing one come to does not depend on the lines behind it. -/
theorem ofLines_eq_error {p : Progress} {line : String}
    (h : lines.foldlM Progress.feed .start = .ok p) (hline : p.feed line = .error failure)
    (more : List String) : ofLines (lines ++ line :: more) = .error failure := by
  rw [ofLines, List.foldlM_append, h, ok_bind, List.foldlM_cons, hline]
  rfl

/-- A **first offence**: a diagnostic of scanning or of the grammar, at a place of the program,
where the lines before that are blameless. What follows the line does not matter, unless it is a
block that is missing. -/
structure IsFirstOffence (lines : List String) (cause : Cause) (row column : Nat) : Prop where
  family : cause.family = .lexical ∨ cause.family = .grammatical
  stands : StandsIn lines row column
  blameless : Blameless (lines.take row)
  lasting : (∃ next, cause = .missingBlock next) ∨ ∀ more,
    ofLines (lines.take (row + 1) ++ more) = .error (.diagnosed ⟨cause, some row, some column⟩)

/-- A **long literal** of the lines: an integer literal with more digits than the limit. -/
def HasLongLiteral (lines : List String) (digits : Nat) : Prop :=
  digitLimit < digits ∧ ∃ row line scanned token, lines[row]? = some line ∧
    TokenLine.scan row line.toList = .ok scanned ∧ token ∈ scanned.toList ∧
      token.kind = .integer ∧ token.lexeme.toList.length = digits

/-- A block that is found missing is blamed on a colon in the lines that were read, which makes it
the first offence. -/
private theorem isFirstOffence_of_missing {front : List String} {p : Progress}
    (hfront : front.foldlM Progress.feed .start = .ok p) {level : Level} (hlevel : level ∈ p.levels)
    (next : Option Nat) (back : List String) :
    IsFirstOffence (front ++ back) (.missingBlock next) level.colon.row level.colon.column := by
  have hcolon := (Progress.isBehind_start.foldlM hfront).colons level hlevel
  rw [List.nil_append] at hcolon
  refine ⟨.inr rfl, hcolon.append back, ?_, .inl ⟨next, rfl⟩⟩
  obtain ⟨line, hline, -⟩ := hcolon
  have hrow := (List.getElem?_eq_some_iff.mp hline).1
  obtain ⟨p', hp'⟩ := exists_foldlM_take_eq_ok hfront level.colon.row
  rw [List.take_append_of_le_length (Nat.le_of_lt hrow)]
  exact blameless_of_foldlM hp'

/-- **The first offence.** A program that cannot be read has a literal of too many digits, or is
nested too deeply, or it has a first offence, which is reported. -/
theorem first_offence_of_ofLines (h : ofLines lines = .error failure) :
    (∃ digits, failure = .broken (.numeralTooLong digits) ∧ HasLongLiteral lines digits) ∨
    failure = .unplaced .nestedTooDeeplyToRead ∨
    ∃ cause, ∃ row column : Nat, failure = .diagnosed ⟨cause, some row, some column⟩ ∧
      IsFirstOffence lines cause row column := by
  rcases bind_eq_error_iff.mp h with hlines | ⟨p, hp, hfinish⟩
  · -- a line is not taken, where the lines in front of it were
    obtain ⟨front, line, back, p, rfl, hfront, hline⟩ := exists_of_foldlM_eq_error hlines
    have hrow : p.row = front.length := (Progress.isBehind_start.foldlM hfront).row
    have hhere : (front ++ line :: back)[p.row]? = some line := by
      rw [hrow, List.getElem?_append_right (Nat.le_refl _), Nat.sub_self]
      rfl
    cases Progress.offends_of_feed hline with
    | numeral hscan hmem hkind hlong =>
      exact .inl ⟨_, rfl, hlong, p.row, line, _, _, hhere, hscan, hmem, hkind, rfl⟩
    | nesting => exact .inr (.inl rfl)
    | missing hlevel =>
      exact .inr (.inr ⟨_, _, _, rfl, isFirstOffence_of_missing hfront hlevel _ _⟩)
    | @offence cause column hfamily hblank hcolumn =>
      have hstands : StandsIn (front ++ line :: back) p.row column :=
        ⟨line, hhere, hblank, hcolumn⟩
      refine .inr (.inr ⟨cause, p.row, column, rfl, hfamily, hstands, ?_, ?_⟩)
      · rw [hrow, List.take_left]
        exact blameless_of_foldlM hfront
      · refine .inr fun more => ?_
        have htake : (front ++ line :: back).take (p.row + 1) = front ++ [line] := by
          rw [List.append_cons]
          exact List.take_left' (by rw [List.length_append, hrow]; rfl)
        rw [htake, List.append_assoc]
        exact ofLines_eq_error hfront hline more
  · -- all lines are taken, and the last block is missing
    obtain ⟨level, hlevel, rfl⟩ := Progress.exists_of_finish_eq_error hfinish
    have hoffence := isFirstOffence_of_missing hp hlevel none []
    rw [List.append_nil] at hoffence
    exact .inr (.inr ⟨_, _, _, rfl, hoffence⟩)

/-- An assignment to no name, behind a branch; the lines before it are a program. -/
theorem first_offence_of_unnamed :
    ofLines ["if x < 1:", "\tdisplay x", "let := 3", "$"] =
        .error (.diagnosed ⟨.expected .identifier ⟨":=", .assign⟩, some 2, some 4⟩) ∧
      IsFirstOffence ["if x < 1:", "\tdisplay x", "let := 3", "$"]
        (.expected .identifier ⟨":=", .assign⟩) 2 4 := by
  have hread : ofLines ["if x < 1:", "\tdisplay x", "let := 3", "$"] =
      .error (.diagnosed ⟨.expected .identifier ⟨":=", .assign⟩, some 2, some 4⟩) :=
    eq_error_of_map (by decide +kernel)
  obtain ⟨digits, hfailure, -⟩ | hfailure | ⟨cause, row, column, hfailure, hoffence⟩ :=
    first_offence_of_ofLines hread
  · cases hfailure
  · cases hfailure
  · cases hfailure
    exact ⟨hread, hoffence⟩

end Program

end Offside

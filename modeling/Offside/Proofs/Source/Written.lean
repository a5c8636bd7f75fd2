import Offside.Proofs.Source.Program

/-!
# Programs by their written lines

Reading a program passes over its blank lines, and of every other line it goes by no more than the
line's row, the depth that it is indented by, and its tokens. A `SourceLine` holds just that, and
a program is read from its source lines as it is from its lines (`Program.ofLines_eq`).
-/

namespace Offside

/-- What reading a program goes by of a line that is not blank: its row, the depth that it is
indented by, and its tokens, or the failure to find them. -/
structure SourceLine where
  row : Nat
  depth : Nat
  scanned : Except Failure TokenLine

namespace SourceLine

/-- The source line of a line and its row. -/
def ofNumbered (numbered : String × Nat) : SourceLine where
  row := numbered.2
  depth := Text.indentLevel numbered.1.toList
  scanned := TokenLine.scan numbered.2 numbered.1.toList

/-- The source lines of a program, where the first line is on row `first`. -/
def ofLines (first : Nat) (lines : List String) : List SourceLine :=
  (writtenLines first lines).map ofNumbered

/-- A blank line is no source line, but counts as a row. -/
theorem ofLines_cons_of_isBlankText {line : String} (h : Text.isBlankText line.toList = true)
    (first : Nat) (lines : List String) :
    ofLines first (line :: lines) = ofLines (first + 1) lines := by
  rw [ofLines, writtenLines, List.zipIdx_cons, List.filter_cons_of_neg (by simp [h])]
  rfl

theorem ofLines_cons {line : String} (h : Text.isBlankText line.toList = false) (first : Nat)
    (lines : List String) :
    ofLines first (line :: lines) = ofNumbered (line, first) :: ofLines (first + 1) lines := by
  rw [ofLines, writtenLines, List.zipIdx_cons, List.filter_cons_of_pos (by simp [h])]
  rfl

theorem ofLines_append (first : Nat) (front back : List String) :
    ofLines first (front ++ back) = ofLines first front ++ ofLines (first + front.length) back := by
  rw [ofLines, writtenLines_append, List.map_append]
  rfl

end SourceLine

namespace Progress

variable {p p' : Progress}

/-- Takes the next source line. -/
def take (p : Progress) (line : SourceLine) : Except Failure Progress :=
  if p.levels.length < line.depth then
    .error (.diagnosed ⟨indentationCause p.levels.length line.depth, some line.row, some 0⟩)
  else do
    let (statements, levels) ← close (some line.row) line.depth p.levels p.statements
    let scanned ← line.scanned
    let content ←
      LineContent.read ⟨scanned.stop, nestingLimit - line.depth⟩ statements scanned.tokens
    add line.row levels content

/-- A line that is not blank is fed as its source line. -/
theorem feed_eq_take {line : String} (h : Text.isBlankText line.toList = false) :
    p.feed line = p.take (.ofNumbered (line, p.row)) := by
  rw [feed, h, if_neg Bool.false_ne_true]
  rfl

section Add

variable {row : Nat} {levels : List Level} {content : LineContent} {before : List Statement}

/-- What is added is a statement of the innermost block, or the heading of a block in it. -/
theorem cases_of_add (h : add row levels (content, before) = .ok p) :
    (∃ statement, content = .statement statement ∧ p = ⟨row + 1, statement :: before, levels⟩) ∨
      ∃ heading colon, content = .heading heading colon ∧
        p = ⟨row + 1, [], ⟨heading, colon, before⟩ :: levels⟩ := by
  cases content with
  | statement statement =>
    cases h
    exact .inl ⟨statement, rfl, rfl⟩
  | heading heading colon =>
    rw [add] at h
    split at h <;> cases h
    exact .inr ⟨heading, colon, rfl, rfl⟩

/-- Nothing but the nesting limit keeps a line from being added. -/
theorem eq_of_add_eq_error {failure : Failure}
    (h : add row levels (content, before) = .error failure) :
    failure = .unplaced .nestedTooDeeplyToRead := by
  cases content with
  | statement statement => cases h
  | heading heading colon =>
    rw [add] at h
    split at h <;> cases h
    rfl

end Add

/-- A line that is taken is read behind the blocks that it closes, and added. -/
theorem exists_of_take {line : SourceLine} (h : p.take line = .ok p') :
    ∃ statements levels scanned content before,
      close (some line.row) line.depth p.levels p.statements = .ok (statements, levels) ∧
        line.scanned = .ok scanned ∧
        LineContent.read ⟨scanned.stop, nestingLimit - line.depth⟩ statements scanned.tokens =
          .ok (content, before) ∧
        add line.row levels (content, before) = .ok p' := by
  rw [take] at h
  split at h
  · cases h
  · simp only [bind_eq_ok_iff, Prod.exists] at h
    obtain ⟨statements, levels, hclose, scanned, hscan, content, before, hread, hadd⟩ := h
    exact ⟨statements, levels, scanned, content, before, hclose, hscan, hread, hadd⟩

theorem row_of_take {line : SourceLine} (h : p.take line = .ok p') : p'.row = line.row + 1 := by
  obtain ⟨_, _, _, _, _, -, -, -, hadd⟩ := exists_of_take h
  obtain ⟨_, -, rfl⟩ | ⟨_, _, -, rfl⟩ := cases_of_add hadd <;> rfl

/-- Reads on in a program, from source lines and then to its end. -/
def readOn (p : Progress) (lines : List SourceLine) : Except Failure Program :=
  lines.foldlM take p >>= finish

theorem readOn_cons (p : Progress) (line : SourceLine) (lines : List SourceLine) :
    p.readOn (line :: lines) = p.take line >>= fun p' => p'.readOn lines := by
  rw [readOn, List.foldlM_cons, bind_assoc]
  rfl

/-- The row that progress has come to does not matter for the source lines. -/
theorem readOn_row (p : Progress) (row : Nat) (lines : List SourceLine) :
    readOn { p with row } lines = p.readOn lines := by
  cases lines with
  | nil => rfl
  | cons line lines => rw [readOn_cons, readOn_cons, take, take]

/-- To feed lines is to take their source lines. -/
private theorem foldlM_feed (p : Progress) (lines : List String) :
    lines.foldlM feed p >>= finish = p.readOn (SourceLine.ofLines p.row lines) := by
  induction lines generalizing p with
  | nil => rfl
  | cons line lines ih =>
    rw [List.foldlM_cons, bind_assoc]
    cases hline : Text.isBlankText line.toList with
    | true =>
      rw [feed_of_isBlankText hline, ok_bind, ih, readOn_row,
        SourceLine.ofLines_cons_of_isBlankText hline]
    | false =>
      rw [feed_eq_take hline, SourceLine.ofLines_cons hline, readOn_cons]
      cases htake : p.take (.ofNumbered (line, p.row)) with
      | error failure => rfl
      | ok p' => rw [ok_bind, ok_bind, ih, row_of_take htake]; rfl

end Progress

/-- A program is read from its source lines. -/
theorem Program.ofLines_eq (lines : List String) :
    ofLines lines = Progress.start.readOn (SourceLine.ofLines 0 lines) :=
  Progress.foldlM_feed .start lines

end Offside

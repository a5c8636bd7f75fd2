import Offside.Proofs.Relabeling.Reading
import Offside.Proofs.Source.Written

/-!
# Reading programs commutes with relabelings

Lines that stand on other rows are scanned to the same tokens on these rows (`scan_relabel`). What
reading has come to is relabeled with its open blocks, and blocks are closed and lines are taken
alike before and after that, one step at a time. So the program that is read from relabeled lines is
the relabeled program (`Progress.readOn_relabel`), and what cannot be read fails alike.
-/

namespace Offside

variable (r : Relabeling)

/-- The tokens of a line, changed. -/
def TokenLine.relabel (line : TokenLine) : TokenLine where
  tokens := line.tokens.map (Token.relabel r)
  stop := line.stop.relabel r

/-- A source line with its row and its tokens changed. -/
def SourceLine.relabel (line : SourceLine) : SourceLine where
  row := r.row line.row
  depth := line.depth
  scanned := r.result (TokenLine.relabel r) line.scanned

/-! ### Scanning -/

variable {r} in
/-- A text is scanned alike when its characters are changed, if white space stays white space,
lexemes stay as long as they are, and the tokens that are made of them are relabeled. -/
theorem TokenLine.scanFrom_map {f : Char → Char} {row row' : Nat}
    (hblank : ∀ c, Text.isBlank (f c) = Text.isBlank c)
    (hextent : ∀ c cs, extent (f c) (cs.map f) = extent c cs)
    (htoken : ∀ (column : Nat) (c : Char) (cs : List Char),
      Token.ofLexeme row' column (lexemeOf ((c :: cs.take (extent c cs)).map f)) =
        r.result (Token.relabel r)
          (Token.ofLexeme row column (lexemeOf (c :: cs.take (extent c cs)))))
    (column : Nat) (cs : List Char) :
    scanFrom row' column (cs.map f) =
      r.result (List.map (Token.relabel r)) (scanFrom row column cs) := by
  fun_induction scanFrom row column cs with
  | case1 column => rw [List.map_nil, scanFrom]; rfl
  | case2 column c cs hc ih => rw [List.map_cons, scanFrom, hblank, if_pos hc, ih]
  | case3 column c cs hc failure hfirst =>
    have hfirst' := htoken column c cs
    rw [hfirst, List.map_cons, List.map_take] at hfirst'
    rw [List.map_cons, scanFrom, hblank, if_neg hc, hextent, hfirst']
    rfl
  | case4 column c cs hc token hfirst failure hrest ih =>
    have hfirst' := htoken column c cs
    rw [hfirst, List.map_cons, List.map_take] at hfirst'
    rw [hrest, List.map_drop] at ih
    rw [List.map_cons, scanFrom, hblank, if_neg hc, hextent, hfirst']
    simp only [Relabeling.result, ih]
  | case5 column c cs hc token hfirst tokens hrest ih =>
    have hfirst' := htoken column c cs
    rw [hfirst, List.map_cons, List.map_take] at hfirst'
    rw [hrest, List.map_drop] at ih
    rw [List.map_cons, scanFrom, hblank, if_neg hc, hextent, hfirst']
    simp only [Relabeling.result, ih]
    rfl

section Rows

variable {r} (hname : r.name = id) (hcolumn : r.column = id)

include hname hcolumn

private theorem Token.ofLexeme_relabel (row column : Nat) (lexeme : String) :
    ofLexeme (r.row row) column lexeme = r.result (relabel r) (ofLexeme row column lexeme) := by
  unfold ofLexeme
  split
  · rw [Relabeling.result, relabel, Word.relabel_of_name_eq_id hname, hcolumn]
    rfl
  · have hplace : r.place column = column := congrArg Int.ofNat (congrFun hcolumn column)
    rw [Relabeling.result, Failure.relabel, Diagnostic.relabel, Option.map_some, Option.map_some,
      r.line_row, hplace]
    rfl

/-- A text scans on the relabeled row to the relabeled tokens. -/
private theorem TokenLine.scanFrom_relabel (row column : Nat) (cs : List Char) :
    scanFrom (r.row row) column cs =
      r.result (List.map (Token.relabel r)) (scanFrom row column cs) := by
  have htoken : ∀ (column : Nat) (c : Char) (cs : List Char),
      Token.ofLexeme (r.row row) column (lexemeOf ((c :: cs.take (extent c cs)).map id)) =
        r.result (Token.relabel r)
          (Token.ofLexeme row column (lexemeOf (c :: cs.take (extent c cs)))) := by
    intro column c cs
    rw [List.map_id]
    exact Token.ofLexeme_relabel hname hcolumn row column _
  have hextent : ∀ c cs, extent (id c) (cs.map id) = extent c cs :=
    fun c cs => congrArg (extent c) (List.map_id cs)
  rw [← scanFrom_map (f := id) (fun _ => rfl) hextent htoken, List.map_id]

/-- The row of a line matters for the places of its tokens only. -/
theorem TokenLine.scan_relabel (row : Nat) (line : List Char) :
    scan (r.row row) line = r.result (relabel r) (scan row line) := by
  rw [scan, scan, scanFrom_relabel hname hcolumn]
  cases scanFrom row 0 (Text.trim line) with
  | error failure => rfl
  | ok tokens =>
    rw [Relabeling.result, Relabeling.result, relabel, Token.relabel,
      Word.relabel_of_name_eq_id hname, hcolumn]
    rfl

/-- Lines on other rows are the lines with their rows changed. -/
theorem SourceLine.ofNumbered_relabel (line : String) (row : Nat) :
    ofNumbered (line, r.row row) = (ofNumbered (line, row)).relabel r := by
  rw [ofNumbered, TokenLine.scan_relabel hname hcolumn]
  rfl

end Rows

/-! ### Progress -/

/-- An open block with its heading, its colon and the statements before it changed. -/
def Level.relabel (level : Level) : Level where
  heading := level.heading.relabel r
  colon := level.colon.relabel r
  before := level.before.map (Statement.relabel r)

namespace Progress

/-- Progress with its statements and open blocks changed, at any row. -/
def relabel (row : Nat) (p : Progress) : Progress where
  row := row
  statements := p.statements.map (Statement.relabel r)
  levels := p.levels.map (Level.relabel r)

variable {r}

/-- Blocks are closed alike in front of the relabeled row. -/
private theorem close_relabel (next : Option Nat) (depth : Nat) (levels : List Level)
    (statements : List Statement) :
    close (next.map r.row) depth (levels.map (Level.relabel r))
        (statements.map (Statement.relabel r)) =
      r.result (Prod.map (List.map (Statement.relabel r)) (List.map (Level.relabel r)))
        (close next depth levels statements) := by
  fun_induction close next depth levels statements with
  | case1 statements => rfl
  | case2 level outer statements houter =>
    rw [List.map_cons, close, List.length_map, if_pos houter]
    rfl
  | case3 level outer statements houter hempty =>
    rw [List.map_cons, close, List.length_map, if_neg houter, List.isEmpty_map, if_pos hempty]
    exact r.result_atToken rfl
  | case4 level outer statements houter hempty body ih =>
    have hbody : Body.mk (some (level.relabel r).colon.row)
        (statements.map (Statement.relabel r)).reverse = body.relabel r := by
      rw [Body.relabel_mk, List.map_reverse, Option.map_some, r.line_row]
      rfl
    rw [List.map_cons, close, List.length_map, if_neg houter, List.isEmpty_map, if_neg hempty,
      hbody]
    rw [← ih, List.map_cons, ← Heading.complete_relabel]
    rfl

private theorem add_relabel (row row' : Nat) (levels : List Level) (content : LineContent)
    (before : List Statement) :
    add row' (levels.map (Level.relabel r)) (content.relabel r, before.map (Statement.relabel r)) =
      r.result (relabel r (row' + 1)) (add row levels (content, before)) := by
  cases content with
  | statement statement => rfl
  | heading heading colon =>
    rw [LineContent.relabel, add, add, List.length_map]
    split <;> rfl

/-- A relabeled line is taken to the relabeled progress. -/
private theorem take_relabel (row : Nat) (p : Progress) (line : SourceLine) :
    (p.relabel r row).take (line.relabel r) =
      r.result (relabel r (r.row line.row + 1)) (p.take line) := by
  have hlength : (p.relabel r row).levels.length = p.levels.length := List.length_map _
  rw [take, take, hlength]
  change (if p.levels.length < line.depth then _ else _) = _
  split
  · -- the complaint about the indentation is about the first column
    have hcause : ∀ depth found, indentationCause depth found =
        (indentationCause depth found).relabel r := by
      intro depth found
      unfold indentationCause
      split <;> rfl
    have hplace : r.place 0 = 0 := congrArg Int.ofNat r.column_zero
    rw [Relabeling.result, Failure.relabel, Diagnostic.relabel, ← hcause, Option.map_some,
      Option.map_some, r.line_row, hplace]
    rfl
  · have hclose := close_relabel (r := r) (some line.row) line.depth p.levels p.statements
    refine Eq.trans (congrArg (· >>= _) hclose) (r.bind_result ?_)
    rintro ⟨statements, levels⟩ -
    refine r.bind_result fun scanned _ => ?_
    have hread := LineContent.read_relabel (r := r) ⟨scanned.stop, nestingLimit - line.depth⟩
      statements scanned.tokens
    refine Eq.trans (congrArg (· >>= _) hread) (r.bind_result ?_)
    rintro ⟨content, before⟩ -
    exact add_relabel _ _ levels content before

private theorem finish_relabel (row : Nat) (p : Progress) :
    (p.relabel r row).finish = r.result (Program.relabel r) p.finish := by
  have hclose := close_relabel (r := r) none 0 p.levels p.statements
  refine Eq.trans (congrArg (· >>= _) hclose) (r.bind_result ?_)
  rintro ⟨statements, levels⟩ -
  change Except.ok (Program.mk (statements.map (Statement.relabel r)).reverse) =
    .ok ((Program.mk statements.reverse).relabel r)
  rw [← List.map_reverse, Program.relabel_mk]

/-- **Reading a program** commutes with a relabeling. -/
theorem readOn_relabel (row : Nat) (p : Progress) (lines : List SourceLine) :
    (p.relabel r row).readOn (lines.map (SourceLine.relabel r)) =
      r.result (Program.relabel r) (p.readOn lines) := by
  induction lines generalizing row p with
  | nil => exact finish_relabel row p
  | cons line lines ih =>
    rw [List.map_cons, readOn_cons, readOn_cons, take_relabel]
    exact r.bind_result fun p' _ => ih _ p'

end Progress

end Offside

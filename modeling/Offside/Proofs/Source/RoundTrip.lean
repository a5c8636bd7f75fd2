import Offside.Proofs.Source.ReadsBack

/-!
# Programs that are written read back

A well-formed program that is written in any of its layouts is read as that program, line numbers
apart, unless a row of the layout is nested more deeply than the limit; then reading complains
about just that (`Program.reads_layout`).

The proof is by induction over the tree: every part reads back when the parts inside it do.
-/

namespace Offside

variable {depth : Nat}

/-! ### Statements -/

section Statement

variable {cx : LineContext} {before : List Statement} {tokens : List Token}

/-- A line that begins with the keyword of a simple statement holds that statement, and nothing but
the end of the line behind it. -/
theorem LineContent.read_simple (hkind : (cx.current tokens).kind = .letWord ∨
      (cx.current tokens).kind = .displayWord ∨ (cx.current tokens).kind = .inputWord) :
    read cx before tokens = Statement.readSimple cx tokens >>= fun (simple, rest) =>
      cx.finish rest >>= fun _ => .ok (.statement simple, before) := by
  rcases hkind with hkind | hkind | hkind
  · simp only [read, hkind]; rfl
  · simp only [read, hkind]; rfl
  · simp only [read, hkind]; rfl

/-- A simple statement begins with its keyword. -/
private theorem Statement.kind_of_simple? {s : Statement} {phrase : Phrase}
    (hsimple : s.simple? = some phrase) {row : Nat} (hspells : Spells row tokens phrase.words) :
    (cx.current tokens).kind = .letWord ∨ (cx.current tokens).kind = .displayWord ∨
      (cx.current tokens).kind = .inputWord := by
  cases s with
  | assign line name value =>
    cases hsimple
    obtain ⟨first, tokens, rfl, hfirst, -, -⟩ := hspells.cons
    exact .inl (Word.kind_of_fixed hfirst (by decide))
  | display line value =>
    cases hsimple
    obtain ⟨first, tokens, rfl, hfirst, -, -⟩ := hspells.cons
    exact .inr (.inl (Word.kind_of_fixed hfirst (by decide)))
  | input line name =>
    cases hsimple
    obtain ⟨first, tokens, rfl, hfirst, -, -⟩ := hspells.cons
    exact .inr (.inr (Word.kind_of_fixed hfirst (by decide)))
  | branch | whileLoop | forLoop | block | misplaced => cases hsimple

/-- A simple statement is laid out in one way. -/
private theorem Statement.layouts_of_simple? {s : Statement} {phrase : Phrase}
    (hsimple : s.simple? = some phrase) : s.layouts depth = [⟨[phrase], []⟩] := by
  cases s with
  | assign | display | input => cases hsimple; rfl
  | branch | whileLoop | forLoop | block | misplaced => cases hsimple

/-- A simple statement reads back from its line. -/
private theorem Statement.readsBack_simple {s : Statement} {phrase : Phrase}
    (hs : s.isWellFormed = true)
    (hsimple : s.simple? = some phrase) : s.ReadsBack depth := by
  intro layout hlayout cx hcx row tokens hspells before levels hlevels
  rw [layouts_of_simple? hsimple] at hlayout
  obtain rfl := List.mem_singleton.mp hlayout
  rw [List.flatMap_singleton] at hspells
  rw [LineContent.read_simple (kind_of_simple? hsimple hspells), bind_assoc]
  have hread : Fits cx.room phrase.nesting (readSimple cx (tokens ++ [])) _ :=
    fits_readSimple hs hsimple hspells nofun
  rw [List.append_nil] at hread
  refine ((hread.at hcx).bind_ok ?_).of_iff ?_
  · rintro _ rfl
    exact ⟨_, rfl, s.onRow row, unlined_onRow hsimple row,
      Progress.settlesAt_self (row + 1) _ levels⟩
  · simp only [Phrase.nestingOf, Row.nestingOf]
    omega

/-- Behind the keyword of a loop that tests a condition stand the condition and the body. -/
private theorem LineContent.read_while {keyword : Token} (hkind : keyword.kind = .whileWord) :
    read cx before (keyword :: tokens) = Condition.read cx tokens >>= fun (condition, rest) =>
      (Heading.whileLoop (some keyword.row) condition).readBody cx rest >>= fun content =>
        .ok (content, before) := by
  simp only [read, LineContext.current, List.headD_cons, hkind]
  rfl

/-- A loop that tests a condition reads back if its body does. -/
private theorem Statement.readsBack_whileLoop (line : Option Int) {condition : Condition}
    {body : Body}
    (hcondition : condition.isWellFormed = true) (hbody : body.ReadsBack depth) :
    (whileLoop line condition body).ReadsBack depth := by
  intro layout hlayout cx hcx row tokens hspells before levels hlevels
  obtain ⟨inner, hinner, rfl⟩ := List.mem_map.mp hlayout
  have hspells : Spells row tokens (.fixed .whileWord ::
      (condition.words ++ .fixed .colon :: inner.front.flatMap Phrase.words)) := by
    simpa [Layout.behind, Phrase.words] using hspells
  obtain ⟨keyword, tokens, rfl, hkeyword, -, hspells⟩ := hspells.cons
  obtain ⟨front, tokens, rfl, hfront, hspells⟩ := hspells.append
  obtain ⟨colon, back, rfl, hcolon, -, hback⟩ := hspells.cons
  have hcolon := Word.kind_of_fixed hcolon (by decide)
  rw [LineContent.read_while (Word.kind_of_fixed hkeyword (by decide)), bind_assoc]
  have hhead : Fits cx.room condition.nesting (Condition.read cx (front ++ colon :: back)) _ :=
    Condition.fits_read hcondition hfront (Token.operator_of_kind hcolon rfl)
  refine ((hhead.at hcx).bind (m := max (depth + Phrase.nestingOf inner.front)
    (Row.nestingOf inner.below)) ?_).of_iff ?_
  · rintro _ rfl
    rw [bind_assoc]
    have hread := Heading.fits_readBody hbody hinner hcx hcolon hback
      (.whileLoop (some keyword.row) (condition.onRow row)) before hlevels
    refine hread.imp ?_
    rintro p' ⟨read, hunlined, hsettles⟩
    refine ⟨_, ?_, hsettles⟩
    rw [Heading.complete, unlined_whileLoop, unlined_whileLoop, condition.unlined_onRow, hunlined]
  · simp only [Layout.behind, Phrase.nestingOf, Phrase.nesting]
    omega

private theorem LineContent.read_for {keyword name inWord : Token} (hkind : keyword.kind = .forWord)
    (hname : name.kind = .identifier) (hin : inWord.kind = .inWord) :
    read cx before (keyword :: name :: inWord :: tokens) =
      Expr.read cx tokens >>= fun (lower, rest) =>
        cx.expect .range rest >>= fun (_, rest) =>
          Expr.read cx rest >>= fun (upper, rest) =>
            (Heading.forLoop (some keyword.row) name.lexeme lower upper).readBody cx rest >>=
              fun content => .ok (content, before) := by
  simp only [read, LineContext.current, List.headD_cons, hkind, List.tail_cons,
    LineContext.expect_cons hname, ok_bind, LineContext.expect_cons hin]
  rfl

/-- A loop that counts reads back if its body does. -/
private theorem Statement.readsBack_forLoop (line : Option Int) {name : String} {first last : Expr}
    {body : Body} (hfirst : first.isWellFormed = true) (hlast : last.isWellFormed = true)
    (hbody : body.ReadsBack depth) : (forLoop line name first last body).ReadsBack depth := by
  intro layout hlayout cx hcx row tokens hspells before levels hlevels
  obtain ⟨inner, hinner, rfl⟩ := List.mem_map.mp hlayout
  have hspells : Spells row tokens (.fixed .forWord :: .name name :: .fixed .inWord ::
      (first.words ++ .fixed .range ::
        (last.words ++ .fixed .colon :: inner.front.flatMap Phrase.words))) := by
    simpa [Layout.behind, Phrase.words] using hspells
  obtain ⟨keyword, tokens, rfl, hkeyword, -, hspells⟩ := hspells.cons
  obtain ⟨identifier, tokens, rfl, hidentifier, -, hspells⟩ := hspells.cons
  obtain ⟨inWord, tokens, rfl, hin, -, hspells⟩ := hspells.cons
  obtain ⟨front, tokens, rfl, hfront, hspells⟩ := hspells.append
  obtain ⟨range, tokens, rfl, hrange, -, hspells⟩ := hspells.cons
  obtain ⟨middle, tokens, rfl, hmiddle, hspells⟩ := hspells.append
  obtain ⟨colon, back, rfl, hcolon, -, hback⟩ := hspells.cons
  obtain ⟨hname, hlexeme⟩ := Word.of_normal_eq_name hidentifier
  have hrange := Word.kind_of_fixed hrange (by decide)
  have hcolon := Word.kind_of_fixed hcolon (by decide)
  have hlower : Fits cx.room (first.nesting true)
      (Expr.read cx (front ++ range :: (middle ++ colon :: back))) _ :=
    Expr.fits_read hfirst hfront (Token.operator_of_kind hrange rfl)
  have hupper : Fits cx.room (last.nesting true) (Expr.read cx (middle ++ colon :: back)) _ :=
    Expr.fits_read hlast hmiddle (Token.operator_of_kind hcolon rfl)
  rw [LineContent.read_for (Word.kind_of_fixed hkeyword (by decide)) hname
    (Word.kind_of_fixed hin (by decide)), bind_assoc]
  refine ((hlower.at hcx).bind (m := max (depth + last.nesting true) (max (depth +
    Phrase.nestingOf inner.front) (Row.nestingOf inner.below))) ?_).of_iff ?_
  · rintro _ rfl
    simp only [LineContext.expect_cons hrange, ok_bind]
    rw [bind_assoc]
    refine (hupper.at hcx).bind ?_
    rintro _ rfl
    rw [bind_assoc]
    have hread := Heading.fits_readBody hbody hinner hcx hcolon hback
      (.forLoop (some keyword.row) identifier.lexeme (first.onRow row) (last.onRow row)) before
      hlevels
    refine hread.imp ?_
    rintro p' ⟨read, hunlined, hsettles⟩
    refine ⟨_, ?_, hsettles⟩
    rw [Heading.complete, unlined_forLoop, unlined_forLoop, hlexeme, hunlined, Expr.onRow,
      Expr.onRow, Expr.unlined_mapLine, Expr.unlined_mapLine]
  · simp only [Layout.behind, Phrase.nestingOf, Phrase.nesting]
    omega

private theorem LineContent.read_if {keyword : Token} (hkind : keyword.kind = .ifWord) :
    read cx before (keyword :: tokens) =
      Clauses.readFrom cx (some keyword.row) .done (keyword :: tokens) >>= fun content =>
        .ok (content, before) := by
  rw [Clauses.readFrom, if_neg (by rw [hkind]; decide)]
  simp only [read, LineContext.current, List.headD_cons, hkind]
  rfl

/-- A branch reads back if its clauses do. -/
private theorem Statement.readsBack_branch (line : Option Int) {clauses : Clauses}
    (hguarded : clauses.isGuarded = true) (hclauses : clauses.ReadsBack depth) :
    (branch line clauses).ReadsBack depth := by
  intro layout hlayout cx hcx row tokens hspells before levels hlevels
  obtain ⟨keyword, rest, rfl, hkeyword⟩ := Clauses.kind_of_first hguarded hlayout hspells
  rw [LineContent.read_if hkeyword, bind_assoc]
  have hread := hclauses true layout hlayout cx hcx row _ hspells (some keyword.row) .done rfl
    before levels hlevels
  refine hread.imp ?_
  rintro p' ⟨read, hunlined, hsettles⟩
  exact ⟨branch (some keyword.row) read, congrArg (branch none) hunlined, hsettles⟩

end Statement

/-! ### Statements in a row -/

private theorem Statement.readBack_nil (depth : Nat) : ReadBack depth [] := by
  intro rows hrows p before levels hlevels hdepth hsettles
  obtain rfl := List.mem_singleton.mp hrows
  exact .ok ⟨[], rfl, hsettles⟩

/-- Statements read back one after another. -/
private theorem Statement.readBack_cons {statement : Statement} {rest : List Statement}
    (hs : statement.isWellFormed = true) (hstatement : statement.ReadsBack depth)
    (hrest : ReadBack depth rest) : ReadBack depth (statement :: rest) := by
  intro rows hrows p before levels hlevels hdepth hsettles
  obtain ⟨first, hfirst, hrows⟩ := List.mem_flatMap.mp hrows
  obtain ⟨more, hmore, rfl⟩ := List.mem_map.mp hrows
  have hrow := (isWellFormed_of_mem_layouts hs hfirst).row depth
  obtain ⟨cx, tokens, hcx, hspells, hfold⟩ :=
    Progress.foldlM_feed_row hsettles (hlevels ▸ hdepth) hrow hlevels.symm
  -- whatever blocks the first statement leaves open, the rest is read where it settles
  rw [← List.cons_append, List.map_append, List.foldlM_append, hfold]
  have hread :=
    hstatement first hfirst cx (hlevels ▸ hcx) p.row tokens hspells before levels hlevels
  refine (hread.bind (m := Row.nestingOf more) ?_).of_iff ?_
  · rintro p' ⟨read, hunlined, hsettles'⟩
    refine (hrest more hmore p' _ levels hlevels hdepth hsettles').imp ?_
    rintro p'' ⟨others, hothers, hsettles''⟩
    refine ⟨read :: others, ?_, ?_⟩
    · rw [List.map_cons, List.map_cons, hunlined, hothers]
    · rw [List.reverse_cons, List.append_assoc]
      exact hsettles''
  · rw [Row.nestingOf_append]
    rfl

/-! ### All parts -/

mutual

/-- Every well-formed statement reads back from all its layouts. -/
theorem Statement.readsBack (depth : Nat) :
    ∀ {statement : Statement}, statement.isWellFormed = true → statement.ReadsBack depth
  | .assign line name value, h => Statement.readsBack_simple h rfl
  | .display line value, h => Statement.readsBack_simple h rfl
  | .input line name, h => Statement.readsBack_simple h rfl
  | .branch line clauses, h => by
    obtain ⟨hguarded, hclauses⟩ := Bool.and_eq_true_iff.mp h
    exact Statement.readsBack_branch line hguarded (Clauses.readsBack depth hclauses)
  | .whileLoop line condition body, h => by
    obtain ⟨hcondition, hbody⟩ := Bool.and_eq_true_iff.mp h
    exact Statement.readsBack_whileLoop line hcondition (Body.readsBack depth hbody)
  | .forLoop line name first last body, h => by
    obtain ⟨hhead, hbody⟩ := Bool.and_eq_true_iff.mp h
    obtain ⟨hhead, hlast⟩ := Bool.and_eq_true_iff.mp hhead
    obtain ⟨-, hfirst⟩ := Bool.and_eq_true_iff.mp hhead
    exact Statement.readsBack_forLoop line hfirst hlast (Body.readsBack depth hbody)

/-- Well-formed clauses read back behind the clauses in front of them. -/
theorem Clauses.readsBack (depth : Nat) :
    ∀ {clauses : Clauses}, clauses.isWellFormed = true → clauses.ReadsBack depth
  | .done, _ => Clauses.readsBack_done depth
  | .otherwise body, h => Clauses.readsBack_otherwise (Body.readsBack depth h)
  | .guarded condition body rest, h => by
    obtain ⟨hhead, hrest⟩ := Bool.and_eq_true_iff.mp h
    obtain ⟨hcondition, hbody⟩ := Bool.and_eq_true_iff.mp hhead
    exact Clauses.readsBack_guarded hcondition hbody (Body.readsBack depth hbody) hrest
      (Clauses.readsBack depth hrest)

/-- Every well-formed body reads back, inline or below its heading. -/
theorem Body.readsBack (depth : Nat) :
    ∀ {body : Body}, body.isWellFormed = true → body.ReadsBack depth
  | .mk line statements, h => by
    obtain ⟨-, hstatements⟩ := Bool.and_eq_true_iff.mp h
    exact Body.readsBack_of_statements h (Statement.readBack (depth + 1) hstatements)

private theorem Statement.readBack (depth : Nat) :
    ∀ {statements : List Statement}, Statement.areWellFormed statements = true →
      Statement.ReadBack depth statements
  | [], _ => Statement.readBack_nil depth
  | statement :: rest, h => by
    obtain ⟨hstatement, hrest⟩ := Bool.and_eq_true_iff.mp h
    exact Statement.readBack_cons hstatement (Statement.readsBack depth hstatement)
      (Statement.readBack depth hrest)

end

/-! ### Programs -/

namespace Program

variable {program : Program} {layout : List Row}

/-- Closing all blocks at the end of the input leaves the statements that progress settles with. -/
theorem finish_of_settlesAt {p : Progress} {statements : List Statement}
    (h : p.SettlesAt statements []) : p.finish = .ok ⟨statements.reverse⟩ := by
  have hclose : Progress.close none 0 p.levels p.statements = .ok (statements, []) := h none
  rw [Progress.finish, hclose]
  rfl

/-- **Programs read back.** However a well-formed program is written, the rows are read as the
program, line numbers apart, if no row is nested more deeply than the limit; and if one is,
reading complains about the nesting. -/
theorem reads_layout (h : program.isWellFormed = true) (hlayout : layout ∈ program.layouts) :
    (Row.nestingOf layout ≤ nestingLimit →
      ∃ read, ofLines (layout.map Row.text) = .ok read ∧ read.unlined = program.unlined) ∧
    (nestingLimit < Row.nestingOf layout →
      ofLines (layout.map Row.text) = .error (.unplaced .nestedTooDeeplyToRead)) := by
  have hstart : Progress.start.SettlesAt [] [] := Progress.settlesAt_self 0 [] []
  have hread := Statement.readBack 0 h layout hlayout .start [] [] rfl (Nat.zero_le _) hstart
  refine ⟨fun hfits => ?_, fun hdeep => ?_⟩
  · obtain ⟨p, hp, read, hunlined, hsettles⟩ := hread.granted hfits
    refine ⟨⟨read⟩, ?_, ?_⟩
    · rw [ofLines, hp, ok_bind, finish_of_settlesAt hsettles, List.append_nil,
        List.reverse_reverse]
    · rw [unlined, unlined, mapLine, mapLine, Statement.mapLines_eq_map,
        Statement.mapLines_eq_map]
      exact congrArg Program.mk hunlined
  · rw [ofLines, hread.refused hdeep]
    rfl

/-- A branch that goes on in one row behind an inline body, and ends with a block. -/
theorem reads_layout_of_inline_else :
    ∃ read, ofLines ["if a > 1 : display a else :", "\twhile a < 2 : let a := - a"] = .ok read ∧
      read.unlined = ⟨[.branch none (.guarded (.compare none .gt (.var none "a") (.number none 1))
        (.mk none [.display none (.var none "a")])
        (.otherwise (.mk none [.whileLoop none
          (.compare none .lt (.var none "a") (.number none 2))
          (.mk none [.assign none "a" (.negate none (.var none "a"))])])))]⟩ := by
  have hlayout : [⟨0, [.ifHead (.compare none .gt (.var none "a") (.number none 1)),
        .display (.var none "a"), .elseHead]⟩,
      ⟨1, [.whileHead (.compare none .lt (.var none "a") (.number none 2)),
        .assign "a" (.negate none (.var none "a"))]⟩] ∈
      layouts ⟨[.branch none (.guarded (.compare none .gt (.var none "a") (.number none 1))
        (.mk none [.display none (.var none "a")])
        (.otherwise (.mk none [.whileLoop none
          (.compare none .lt (.var none "a") (.number none 2))
          (.mk none [.assign none "a" (.negate none (.var none "a"))])])))]⟩ := by
    decide +kernel
  exact (reads_layout (by decide +kernel) hlayout).1 (by decide +kernel)

end Program

end Offside

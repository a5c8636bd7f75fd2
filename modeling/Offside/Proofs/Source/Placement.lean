import Mathlib.Data.List.Infix
import Offside.Proofs.Relabeling.Layout
import Offside.Proofs.Source.Program
import Offside.Proofs.Source.Rows
import Offside.Proofs.Source.Written
import Offside.Proofs.Token.Placed

/-!
# The lines of a program that is read

While a program is read line by line, its placed words grow with each line that is not blank by the
tokens of that line, up to a semicolon that ends it, each on the row where it stands
(`Progress.placed_feed`). So every node of the program has the row of the token that it is told by
for its line (`Program.exists_fronts`).
-/

namespace Offside

/-! ### Tokens as placed words -/

/-- A token as a placed word: its word in normal form, on its row. -/
def Token.mark (token : Token) : Word × Option Int :=
  (token.toWord.normal, some (token.row : Int))

/-- Words on a row are those words, placed on that row. -/
private theorem Word.AreOn.eq_placedOn {row : Nat} {placed : List (Word × Option Int)}
    (h : AreOn row placed) :
    placed = Word.placedOn (some (row : Int)) (placed.map Prod.fst) := by
  rw [Word.placedOn, List.map_map]
  refine ((List.map_congr_left fun entry hentry => ?_).trans (List.map_id placed)).symm
  exact Prod.ext rfl (h entry hentry).symm

private theorem Token.map_mark {row : Nat} {tokens : List Token}
    (h : ∀ token ∈ tokens, token.row = row) :
    tokens.map mark = Word.placedOn (some (row : Int)) (words tokens) := by
  rw [Word.placedOn, words, List.map_map]
  refine List.map_congr_left fun token htoken => ?_
  rw [mark, h token htoken]
  rfl

/-- The **front** of a line with its row: its tokens, up to a semicolon that ends it. -/
def IsFront (numbered : String × Nat) (front : List Token) : Prop :=
  ∃ scanned tail, TokenLine.scan numbered.2 numbered.1.toList = .ok scanned ∧
    scanned.tokens = front ++ tail ∧ ∀ token ∈ tail.head?, token.kind = .endOfLine

private theorem IsFront.row_eq {numbered : String × Nat} {front : List Token}
    (h : IsFront numbered front)
    {token : Token} (hmem : token ∈ front) : token.row = numbered.2 := by
  obtain ⟨scanned, tail, hscan, htokens, -⟩ := h
  have hwhole : token ∈ scanned.tokens := htokens ▸ List.mem_append_left tail hmem
  exact (TokenLine.settled_of_mem_scan hscan hwhole).2

/-- What may end a line is nothing, or begins with a semicolon. -/
private theorem LineContext.kind_of_finish {cx : LineContext} {tail : List Token}
    (h : cx.finish tail = .ok ()) : ∀ token ∈ tail.head?, token.kind = .endOfLine := by
  cases tail with
  | nil => exact nofun
  | cons first rest =>
    rintro _ ⟨⟩
    by_contra hkind
    rw [finish, if_neg hkind] at h
    cases h

/-! ### The placed words of what is read so far -/

/-- The placed words of a heading are the words of its pieces. -/
private theorem Heading.map_fst_placed (heading : Heading) (below : Option Int) (depth : Nat) :
    (heading.placed below).map Prod.fst = (heading.pieces depth).flatMap Piece.words := by
  rw [placed, pieces, List.map_append, List.flatMap_append, Clauses.map_fst_placed depth,
    List.flatMap_singleton]
  congr 1
  cases heading with
  | whileLoop line condition =>
    simp [ownPlaced, phrase, Piece.words, Phrase.words, Condition.map_fst_placed]
  | forLoop line name first last =>
    simp [ownPlaced, phrase, Piece.words, Phrase.words, Expr.map_fst_placed]
  | guarded line earlier condition =>
    rw [phrase, Piece.words, Phrase.words_guardHead, ownPlaced]
    split <;> simp [*, Condition.map_fst_placed]
  | otherwise line earlier => rfl

/-- The placed words of the open blocks up to the innermost heading. -/
def Level.placed : List Level → List (Word × Option Int)
  | [] => []
  | level :: outer =>
    placed outer ++ (Statement.placedOf level.before.reverse ++
      level.heading.placed (some (level.colon.row : Int)))

private theorem Level.map_fst_placed (levels : List Level) :
    (placed levels).map Prod.fst = (pieces levels).flatMap Piece.words := by
  induction levels with
  | nil => rfl
  | cons level outer ih =>
    rw [placed, pieces, List.map_append, List.map_append, List.flatMap_append, List.flatMap_append,
      ih, Statement.map_fst_placedOf outer.length, Heading.map_fst_placed _ _ outer.length]

namespace Progress

variable {p p' : Progress} {line : String}

/-- The placed words that are read so far. -/
def placed (p : Progress) : List (Word × Option Int) :=
  Level.placed p.levels ++ Statement.placedOf p.statements.reverse

private theorem map_fst_placed (p : Progress) :
    p.placed.map Prod.fst = p.pieces.flatMap Piece.words := by
  rw [placed, pieces, List.map_append, List.flatMap_append, Level.map_fst_placed,
    Statement.map_fst_placedOf p.levels.length]

/-- Closing blocks leaves the words where they are placed. -/
private theorem placed_close (row : Nat) {next : Option Nat} {depth : Nat}
    {levels levels' : List Level}
    {statements statements' : List Statement}
    (hlevels : ∀ level ∈ levels, level.heading.isWellFormed = true)
    (h : close next depth levels statements = .ok (statements', levels')) :
    placed ⟨row, statements', levels'⟩ = placed ⟨row, statements, levels⟩ := by
  fun_induction close next depth levels statements with
  | case1 => cases h; rfl
  | case2 => cases h; rfl
  | case3 => cases h
  | case4 level outer statements houter hempty body ih =>
    obtain ⟨hlevel, hlevels⟩ := List.forall_mem_cons.mp hlevels
    refine (ih hlevels h).trans ?_
    rw [placed, placed, Statement.placedOf_reverse_cons,
      Heading.placed_complete (Heading.isOpen_earlier hlevel) body, Level.placed]
    simp only [List.append_assoc]
    rfl

/-- What a line holds adds its words behind those of the progress. -/
private theorem placed_add {row : Nat} {levels : List Level} {before before' : List Statement}
    {content : LineContent} {taken : List (Word × Option Int)}
    (hbefore : Statement.placedOf before.reverse = Statement.placedOf before'.reverse ++ taken)
    (hadds : content.Adds row taken) (h : add row levels (content, before') = .ok p') :
    ∃ new, p'.placed = placed ⟨row, before, levels⟩ ++ new ∧ Word.AreOn row new := by
  obtain ⟨new, hplaced, hnew⟩ := hadds
  refine ⟨new, ?_, hnew⟩
  obtain ⟨statement, rfl, rfl⟩ | ⟨heading, colon, rfl, rfl⟩ := cases_of_add h
  · have hstatement : statement.placed = taken ++ new := hplaced
    rw [placed, placed, Statement.placedOf_reverse_cons, hstatement, hbefore]
    simp only [List.append_assoc]
  · have hheading : heading.placed (some (colon.row : Int)) = taken ++ new := hplaced
    rw [placed, placed, Level.placed, hheading, hbefore]
    simp [Statement.placedOf]

/-- **One line** that is not blank adds words on its row behind those that are read so far. -/
theorem placed_feed (hp : p.IsWellFormed) (hline : Text.isBlankText line.toList = false)
    (h : p.feed line = .ok p') :
    ∃ new, p'.placed = p.placed ++ new ∧ Word.AreOn p.row new := by
  rw [feed_eq_take hline] at h
  obtain ⟨statements, levels, scanned, content, before, hclose, hscan, hread, hadd⟩ :=
    exists_of_take h
  rw [SourceLine.ofNumbered] at hclose hscan hread hadd
  dsimp only at hclose hscan hread hadd
  obtain ⟨-, hclosed, -⟩ := pieces_close p.row hp hclose
  have hcx : LineContext.IsOn p.row scanned.toList
      ⟨scanned.stop, nestingLimit - Text.indentLevel line.toList⟩ :=
    ⟨fun token => TokenLine.row_of_mem_scan hscan, List.mem_append_right _ List.mem_cons_self⟩
  obtain ⟨taken, hbefore, hadds⟩ := LineContent.adds_of_read hcx (List.subset_append_left _ _)
    hclosed.statements hread
  obtain ⟨new, hplaced, hnew⟩ := placed_add hbefore hadds hadd
  refine ⟨new, hplaced.trans (congrArg (· ++ new) ?_), hnew⟩
  exact placed_close p.row (fun level hlevel => (hp.levels level hlevel).heading) hclose

/-- What a line adds are the tokens of its front, each on the row where it stands. -/
private theorem exists_front_of_feed (hp : p.IsWellFormed)
    (hline : Text.isBlankText line.toList = false)
    (h : p.feed line = .ok p') :
    ∃ front, IsFront (line, p.row) front ∧ p'.placed = p.placed ++ front.map Token.mark := by
  obtain ⟨new, hplaced, hnew⟩ := placed_feed hp hline h
  obtain ⟨-, -, group, hpieces, hgroup⟩ := reads_feed hp hline h
  obtain ⟨scanned, cx, tail, hscan, -, ⟨front, htokens, hwords⟩, hfinish⟩ := hgroup.holds
  have hfront : IsFront (line, p.row) front :=
    ⟨scanned, tail, hscan, htokens, LineContext.kind_of_finish hfinish⟩
  refine ⟨front, hfront, ?_⟩
  -- the words that are added are those of the front, and both stand on the row
  have hsame : new.map Prod.fst = Token.words front := by
    have hall := p'.map_fst_placed
    rw [hplaced, hpieces, List.map_append, List.flatMap_append, p.map_fst_placed] at hall
    rw [hwords]
    exact List.append_cancel_left hall
  rw [hplaced, hnew.eq_placedOn, hsame, Token.map_mark fun token => hfront.row_eq]

/-- **All lines** together add their fronts, in order. -/
private theorem exists_fronts_of_foldlM {lines : List String} (hp : p.IsWellFormed)
    (h : lines.foldlM feed p = .ok p') :
    ∃ fronts, List.Forall₂ IsFront (writtenLines p.row lines) fronts ∧
      p'.placed = p.placed ++ fronts.flatten.map Token.mark := by
  induction lines generalizing p with
  | nil =>
    cases h
    exact ⟨[], .nil, (List.append_nil _).symm⟩
  | cons line lines ih =>
    rw [List.foldlM_cons, bind_eq_ok_iff] at h
    obtain ⟨middle, hfeed, hrest⟩ := h
    cases hline : Text.isBlankText line.toList with
    | true =>
      rw [feed_of_isBlankText hline] at hfeed
      cases hfeed
      have hnext : IsWellFormed { p with row := p.row + 1 } := ⟨hp.statements, hp.levels⟩
      rw [writtenLines, List.zipIdx_cons, List.filter_cons_of_neg (by simp [hline])]
      exact ih hnext hrest
    | false =>
      obtain ⟨front, hfront, hplaced⟩ := exists_front_of_feed hp hline hfeed
      obtain ⟨hmiddle, hrow, -⟩ := reads_feed hp hline hfeed
      obtain ⟨fronts, hfronts, hplaced'⟩ := ih hmiddle hrest
      refine ⟨front :: fronts, ?_, ?_⟩
      · rw [hrow] at hfronts
        rw [writtenLines, List.zipIdx_cons, List.filter_cons_of_pos (by simp [hline])]
        exact .cons hfront hfronts
      · rw [hplaced', hplaced, List.append_assoc, List.flatten_cons, List.map_append]

end Progress

namespace Program

variable {lines : List String} {program : Program}

/-- **The words of a program that is read** are placed on the rows of its tokens: they are the
fronts of its lines that are not blank, in order, each token on its row. -/
theorem exists_fronts (h : ofLines lines = .ok program) :
    ∃ fronts, List.Forall₂ IsFront (writtenLines 0 lines) fronts ∧
      program.placed = fronts.flatten.map Token.mark := by
  simp only [ofLines, bind_eq_ok_iff, Progress.finish, Prod.exists] at h
  obtain ⟨p, hlines, statements, levels, hclose, hresult⟩ := h
  cases hresult
  have hstart : Progress.start.IsWellFormed := ⟨List.forall_mem_nil _, List.forall_mem_nil _⟩
  obtain ⟨fronts, hfronts, hplaced⟩ := Progress.exists_fronts_of_foldlM hstart hlines
  obtain ⟨hp, -⟩ := Progress.reads_foldlM hstart hlines
  obtain ⟨-, -, hlength⟩ := Progress.pieces_close p.row hp hclose
  obtain rfl : levels = [] := List.eq_nil_of_length_eq_zero (hlength (Nat.zero_le _))
  have hclosed := Progress.placed_close p.row (fun level hlevel => (hp.levels level hlevel).heading)
    hclose
  exact ⟨fronts, hfronts, hclosed.trans hplaced⟩

/-! ### Words on one line -/

/-- The tokens on a row are the front of the line that is on that row, if there is one. -/
private theorem filter_flatten_fronts {numberedLines : List (String × Nat)}
    {fronts : List (List Token)} (h : List.Forall₂ IsFront numberedLines fronts)
    (hrows : (numberedLines.map Prod.snd).Nodup) (row : Nat) :
    fronts.flatten.filter (fun token => token.row = row) = [] ∨
      ∃ numbered ∈ numberedLines, numbered.2 = row ∧
        IsFront numbered (fronts.flatten.filter fun token => token.row = row) := by
  induction h with
  | nil => exact .inl rfl
  | @cons numbered front numberedLines fronts hfront hfronts ih =>
    obtain ⟨hnot, hrows⟩ := List.nodup_cons.mp hrows
    rw [List.flatten_cons, List.filter_append]
    by_cases hrow : numbered.2 = row
    · -- no line behind this one is on the row
      have hall : front.filter (fun token => token.row = row) = front :=
        List.filter_eq_self.mpr fun token htoken => by simp [hfront.row_eq htoken, hrow]
      have hrest : fronts.flatten.filter (fun token => token.row = row) = [] := by
        rcases ih hrows with hnone | ⟨other, hother, rfl, -⟩
        · exact hnone
        · exact absurd (hrow ▸ List.mem_map_of_mem hother) hnot
      rw [hall, hrest, List.append_nil]
      exact .inr ⟨numbered, List.mem_cons_self, hrow, hfront⟩
    · have hnone : front.filter (fun token => token.row = row) = [] :=
        List.filter_eq_nil_iff.mpr fun token htoken => by simp [hfront.row_eq htoken, hrow]
      rw [hnone, List.nil_append]
      exact (ih hrows).imp_right fun ⟨other, hother, hfound⟩ =>
        ⟨other, List.mem_cons_of_mem numbered hother, hfound⟩

/-- Tokens **stand together** on a row of a program when the line there is scanned with them in a
row. -/
def StandTogether (lines : List String) (row : Nat) (tokens : List Token) : Prop :=
  ∃ line scanned, lines[row]? = some line ∧ TokenLine.scan row line.toList = .ok scanned ∧
    tokens <:+: scanned.tokens

/-- Words that stand together on a line of a tree that is read stand together in its text, on the
row that the line names. -/
theorem exists_tokens_of_infix (h : ofLines lines = .ok program) {line : Option Int}
    {words : List Word} (hne : words ≠ []) (hwords : Word.placedOn line words <:+: program.placed) :
    ∃ row : Nat, line = some (row : Int) ∧ ∃ tokens, StandTogether lines row tokens ∧
      Token.words tokens = words := by
  obtain ⟨fronts, hfronts, hplaced⟩ := exists_fronts h
  rw [hplaced] at hwords
  obtain ⟨tokens, htokens, hmarks⟩ := List.infix_map_iff.mp hwords
  have hsame : Token.words tokens = words := by
    have hfirst := congrArg (List.map Prod.fst) hmarks
    rw [Word.map_fst_placedOn, List.map_map] at hfirst
    exact hfirst.symm
  -- all of the tokens are on one row, which the line names
  have hlines : ∀ token ∈ tokens, some (token.row : Int) = line := by
    intro token htoken
    have hmark : token.mark ∈ Word.placedOn line words := hmarks ▸ List.mem_map_of_mem htoken
    obtain ⟨word, -, hword⟩ := List.mem_map.mp hmark
    exact (congrArg Prod.snd hword).symm
  obtain ⟨first, hfirst⟩ : ∃ first, first ∈ tokens := by
    refine List.exists_mem_of_ne_nil tokens ?_
    rintro rfl
    exact hne hsame.symm
  have hline := hlines first hfirst
  have hall : tokens.filter (fun token => token.row = first.row) = tokens := by
    refine List.filter_eq_self.mpr fun token htoken => ?_
    have hrow := (hlines token htoken).trans hline.symm
    rw [Option.some.injEq, Int.natCast_inj] at hrow
    exact decide_eq_true hrow
  have hwithin := htokens.filter fun token => decide (token.row = first.row)
  rw [hall] at hwithin
  refine ⟨first.row, hline.symm, tokens, ?_, hsame⟩
  rcases filter_flatten_fronts hfronts (nodup_writtenRows lines) first.row with hnone | hfound
  · rw [hnone, List.infix_nil] at hwithin
    rw [hwithin] at hfirst
    cases hfirst
  · obtain ⟨numbered, hmem, hrow, scanned, tail, hscan, hfront, -⟩ := hfound
    rw [hrow] at hscan
    refine ⟨numbered.1, scanned, ?_, hscan, ?_⟩
    · rw [← List.mk_mem_zipIdx_iff_getElem?, ← hrow]
      exact (List.mem_filter.mp hmem).1
    · rw [hfront]
      exact hwithin.trans (List.prefix_append _ _).isInfix

/-- A word of a tree that is read stands in its text, on the row that its line names. -/
theorem exists_token_of_mem (h : ofLines lines = .ok program) {kind : Kind} {line : Option Int}
    (hword : (Word.fixed kind, line) ∈ program.placed) (hkind : kind ≠ .eq) :
    ∃ row : Nat, line = some (row : Int) ∧
      ∃ token, StandTogether lines row [token] ∧ token.kind = kind := by
  have hwithin : Word.placedOn line [.fixed kind] <:+: program.placed :=
    (List.singleton_infix_iff _ _).mpr hword
  obtain ⟨row, hrow, tokens, htogether, hwords⟩ :=
    exists_tokens_of_infix h (List.cons_ne_nil _ _) hwithin
  obtain ⟨token, rfl, hsame⟩ := List.map_eq_singleton_iff.mp hwords
  exact ⟨row, hrow, token, htogether, Word.kind_of_fixed hsame hkind⟩

end Program

end Offside

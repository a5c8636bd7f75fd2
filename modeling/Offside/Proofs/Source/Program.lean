import Mathlib.Data.List.Forall2
import Offside.Proofs.Source.Ends
import Offside.Source.Layout

/-!
# What reading a program reads

While a program is read line by line, the pieces of the progress grow by a group of pieces with
each line that is not blank, and nothing that was read is lost when blocks are closed
(`Progress.reads_feed`, `Progress.pieces_close`). In the end the pieces of the program are the
groups of its lines in order, each at the depth that its line is indented by
(`Program.exists_groups`, `Program.pieces_of_ofLines`), and the program is well formed.
-/

namespace Offside

/-! ### The pieces of what is read so far -/

/-- A level is well formed when its heading and the statements in front of that are. -/
structure Level.IsWellFormed (level : Level) : Prop where
  heading : level.heading.isWellFormed = true
  before : ∀ statement ∈ level.before, statement.isWellFormed = true

/-- The pieces of the open blocks up to the innermost heading. -/
def Level.pieces : List Level → List Piece
  | [] => []
  | level :: outer =>
    pieces outer ++ (Statement.piecesOf outer.length level.before.reverse ++
      level.heading.pieces outer.length)

namespace Progress

/-- Progress is well formed when all statements and headings in it are. -/
structure IsWellFormed (p : Progress) : Prop where
  statements : ∀ statement ∈ p.statements, statement.isWellFormed = true
  levels : ∀ level ∈ p.levels, level.IsWellFormed

/-- The pieces that are read so far. -/
def pieces (p : Progress) : List Piece :=
  Level.pieces p.levels ++ Statement.piecesOf p.levels.length p.statements.reverse

/-- Closing blocks keeps the pieces, and leaves as many blocks as the next line is deep. -/
theorem pieces_close (row : Nat) {next : Option Nat} {depth : Nat} {levels levels' : List Level}
    {statements statements' : List Statement} (hp : IsWellFormed ⟨row, statements, levels⟩)
    (h : close next depth levels statements = .ok (statements', levels')) :
    pieces ⟨row, statements', levels'⟩ = pieces ⟨row, statements, levels⟩ ∧
      IsWellFormed ⟨row, statements', levels'⟩ ∧
        (depth ≤ levels.length → levels'.length = depth) := by
  fun_induction close next depth levels statements with
  | case1 statements =>
    cases h
    exact ⟨rfl, hp, fun hdepth => (Nat.le_zero.mp hdepth).symm⟩
  | case2 level outer statements houter =>
    cases h
    exact ⟨rfl, hp, fun hdepth => Nat.le_antisymm houter hdepth⟩
  | case3 => cases h
  | case4 level outer statements houter hempty body ih =>
    -- the block becomes the body of its heading, and its pieces stay where they are
    obtain ⟨hlevel, hlevels⟩ := List.forall_mem_cons.mp hp.levels
    have hbody : body.isWellFormed = true := by
      have hshape : Statement.areWellFormed statements.reverse = true :=
        Statement.areWellFormed_iff.mpr fun statement hmem =>
          hp.statements statement (List.mem_reverse.mp hmem)
      simp [body, Body.isWellFormed, hshape, hempty]
    have hstatement := Heading.isWellFormed_complete hlevel.heading hbody
    obtain ⟨hpieces, hp', hlength⟩ :=
      ih ⟨List.forall_mem_cons.mpr ⟨hstatement, hlevel.before⟩, hlevels⟩ h
    refine ⟨hpieces.trans ?_, hp', fun _ => hlength (Nat.not_lt.mp houter)⟩
    rw [pieces, pieces, Statement.piecesOf_reverse_cons,
      Heading.pieces_complete hlevel.heading outer.length body, Level.pieces]
    simp only [List.append_assoc, List.length_cons]
    rfl

end Progress

/-! ### The lines that are read -/

/-- What reading a program promises of a line that is not blank: its tokens are the words of a
group of pieces and something that may end a line, and the group begins at the depth that the line
is indented by. -/
structure ReadsAs (row : Nat) (line : String) (group : List Piece) : Prop where
  holds : ∃ scanned cx tail, TokenLine.scan row line.toList = .ok scanned ∧
    cx.stop = scanned.stop ∧ Token.Holds scanned.tokens (group.flatMap Piece.words) tail ∧
      LineContext.finish cx tail = .ok ()
  opens : ∃ phrase more, group = ⟨Text.indentLevel line.toList, phrase⟩ :: more

/-- The lines of a program that are not blank, with their rows, where the first line is on row
`first`. -/
def writtenLines (first : Nat) (lines : List String) : List (String × Nat) :=
  (lines.zipIdx first).filter fun numbered => !Text.isBlankText numbered.1.toList

theorem writtenLines_append (first : Nat) (front back : List String) :
    writtenLines first (front ++ back) =
      writtenLines first front ++ writtenLines (first + front.length) back := by
  rw [writtenLines, List.zipIdx_append, List.filter_append]
  rfl

namespace Progress

variable {p p' : Progress} {line : String}

theorem feed_of_isBlankText (h : Text.isBlankText line.toList = true) :
    p.feed line = .ok { p with row := p.row + 1 } := by
  rw [feed, if_pos h]

/-- What a line holds is added behind the pieces of the progress. -/
private theorem reads_add (row : Nat) {row' : Nat} {levels : List Level} {before : List Statement}
    {content : LineContent} {cx : LineContext} {tokens : List Token} {front group : List Piece}
    (hp : IsWellFormed ⟨row, before, levels⟩)
    (hreads : LineContent.Reads cx levels.length tokens front content group)
    (h : add row' levels (content, before) = .ok p') :
    p'.IsWellFormed ∧ p'.row = row' + 1 ∧
      p'.pieces = pieces ⟨row, before, levels⟩ ++ (front ++ group) := by
  cases content with
  | statement statement =>
    cases h
    refine ⟨⟨List.forall_mem_cons.mpr ⟨hreads.wellFormed, hp.statements⟩, hp.levels⟩, rfl, ?_⟩
    rw [pieces, pieces, Statement.piecesOf_reverse_cons, ← List.append_assoc, ← hreads.pieces_eq]
    rfl
  | heading heading colon =>
    rw [add] at h
    split at h
    · cases h
      refine ⟨⟨nofun, List.forall_mem_cons.mpr ⟨⟨hreads.wellFormed, hp.statements⟩, hp.levels⟩⟩,
        rfl, ?_⟩
      rw [pieces, pieces, Level.pieces, ← hreads.pieces_eq]
      simp [LineContent.pieces, Statement.piecesOf]
    · cases h

/-- **One line** that is not blank adds its group of pieces behind those that are read so far. -/
theorem reads_feed (hp : p.IsWellFormed) (hline : Text.isBlankText line.toList = false)
    (h : p.feed line = .ok p') :
    p'.IsWellFormed ∧ p'.row = p.row + 1 ∧
      ∃ group, p'.pieces = p.pieces ++ group ∧ ReadsAs p.row line group := by
  rw [feed, hline, if_neg Bool.false_ne_true] at h
  split at h
  · cases h
  next hdepth =>
  simp only [bind_eq_ok_iff, Prod.exists] at h
  obtain ⟨statements, levels, hclose, scanned, hscan, content, before, hread, hadd⟩ := h
  -- blocks are closed first, so the line is read in the block that it belongs to
  obtain ⟨hpieces, hclosed, hlength⟩ := pieces_close p.row hp hclose
  have hsettled : ∀ token ∈ scanned.tokens, token.toWord.IsSettled := fun token hmem =>
    (TokenLine.settled_of_mem_scan hscan hmem).1
  obtain ⟨taken, phrase, more, hbefore, hreads, hrest⟩ := LineContent.reads_of_read levels.length
    hsettled (TokenLine.kind_stop_of_scan hscan) hclosed.statements hread
  obtain ⟨hp', hrow, hpieces'⟩ := reads_add p.row ⟨hrest, hclosed.levels⟩ hreads hadd
  obtain ⟨tail, hholds, hfinish⟩ := hreads.holds
  refine ⟨hp', hrow, _, ?_, ⟨scanned, _, tail, hscan, rfl, hholds, hfinish⟩, phrase, more, ?_⟩
  · rw [hpieces', ← List.append_assoc, pieces, List.append_assoc (Level.pieces levels), ← hbefore]
    exact congrArg (· ++ _) hpieces
  · rw [hlength (Nat.not_lt.mp hdepth)]

/-- **All lines** together add their groups, in order. -/
theorem reads_foldlM {lines : List String} (hp : p.IsWellFormed)
    (h : lines.foldlM feed p = .ok p') :
    p'.IsWellFormed ∧ ∃ groups, p'.pieces = p.pieces ++ groups.flatten ∧
      List.Forall₂ (fun numbered group => ReadsAs numbered.2 numbered.1 group)
        (writtenLines p.row lines) groups := by
  induction lines generalizing p with
  | nil =>
    cases h
    exact ⟨hp, [], (List.append_nil _).symm, .nil⟩
  | cons line lines ih =>
    rw [List.foldlM_cons, bind_eq_ok_iff] at h
    obtain ⟨middle, hfeed, hrest⟩ := h
    cases hline : Text.isBlankText line.toList with
    | true =>
      rw [feed_of_isBlankText hline] at hfeed
      cases hfeed
      have hnext : IsWellFormed { p with row := p.row + 1 } := ⟨hp.statements, hp.levels⟩
      obtain ⟨hp', groups, hpieces, hgroups⟩ := ih hnext hrest
      refine ⟨hp', groups, hpieces, ?_⟩
      rw [writtenLines, List.zipIdx_cons, List.filter_cons_of_neg (by simp [hline])]
      exact hgroups
    | false =>
      obtain ⟨hmiddle, hrow, group, hpieces, hgroup⟩ := reads_feed hp hline hfeed
      obtain ⟨hp', groups, hpieces', hgroups⟩ := ih hmiddle hrest
      refine ⟨hp', group :: groups, ?_, ?_⟩
      · rw [hpieces', hpieces, List.append_assoc, List.flatten_cons]
      · rw [hrow] at hgroups
        rw [writtenLines, List.zipIdx_cons, List.filter_cons_of_pos (by simp [hline])]
        exact .cons hgroup hgroups

end Progress

namespace Program

variable {lines : List String} {program : Program}

/-- The pieces of a program that is read are the groups of its lines, and it is well formed. -/
theorem exists_groups (h : ofLines lines = .ok program) :
    program.isWellFormed = true ∧ ∃ groups, groups.flatten = program.pieces ∧
      List.Forall₂ (fun numbered group => ReadsAs numbered.2 numbered.1 group)
        (writtenLines 0 lines) groups := by
  simp only [ofLines, bind_eq_ok_iff, Progress.finish, Prod.exists] at h
  obtain ⟨p, hlines, statements, levels, hclose, hresult⟩ := h
  cases hresult
  have hstart : Progress.start.IsWellFormed := ⟨List.forall_mem_nil _, List.forall_mem_nil _⟩
  obtain ⟨hp, groups, hpieces, hgroups⟩ := Progress.reads_foldlM hstart hlines
  obtain ⟨hclosed, hp', hlength⟩ := Progress.pieces_close p.row hp hclose
  obtain rfl : levels = [] := List.eq_nil_of_length_eq_zero (hlength (Nat.zero_le _))
  refine ⟨?_, groups, ?_, hgroups⟩
  · exact Statement.areWellFormed_iff.mpr fun statement hmem =>
      hp'.statements statement (List.mem_reverse.mp hmem)
  · have hall : Program.pieces ⟨statements.reverse⟩ = groups.flatten := hclosed.trans hpieces
    exact hall.symm

/-- Every line of a program that is read and is not blank is read as a group. -/
theorem readsAs_of_mem (h : ofLines lines = .ok program) {numbered : String × Nat}
    (hmem : numbered ∈ lines.zipIdx) (hline : Text.isBlankText numbered.1.toList = false) :
    ∃ group, ReadsAs numbered.2 numbered.1 group := by
  obtain ⟨-, groups, -, hgroups⟩ := exists_groups h
  have hwritten : numbered ∈ writtenLines 0 lines := List.mem_filter.mpr ⟨hmem, by simp [hline]⟩
  obtain ⟨index, hindex, rfl⟩ := List.mem_iff_getElem.mp hwritten
  exact ⟨_, hgroups.get hindex (hgroups.length_eq ▸ hindex)⟩

/-- A line that is read and does not end twice has the words of its group, but for a semicolon. -/
private theorem words_body_of_readsAs {row : Nat} {line : String} {group : List Piece}
    (h : ReadsAs row line group)
    (hends : ∀ scanned, TokenLine.scan row line.toList = .ok scanned → ¬ scanned.EndsTwice) :
    ∃ scanned, TokenLine.scan row line.toList = .ok scanned ∧
      Token.words scanned.body = group.flatMap Piece.words := by
  obtain ⟨scanned, cx, tail, hscan, hcx, ⟨front, htokens, hwords⟩, hfinish⟩ := h.holds
  have hstop : cx.stop.kind = .endOfLine := hcx ▸ TokenLine.kind_stop_of_scan hscan
  have htail := TokenLine.tail_of_finish htokens hstop hfinish (hends scanned hscan)
  refine ⟨scanned, hscan, ?_⟩
  rw [TokenLine.body_eq_front htokens (fun _ => Piece.kind_ne_of_words_eq hwords) htail, hwords]

/-- Lines that are read and do not end twice are scanned with the words of their groups. -/
private theorem exists_scannedLines {numberedLines : List (String × Nat)}
    {groups : List (List Piece)}
    (h : List.Forall₂ (fun numbered group => ReadsAs numbered.2 numbered.1 group)
      numberedLines groups)
    (hends : ∀ numbered ∈ numberedLines, ∀ scanned,
      TokenLine.scan numbered.2 numbered.1.toList = .ok scanned → ¬ scanned.EndsTwice) :
    ∃ scannedLines : List TokenLine,
      List.Forall₂ (fun numbered scanned =>
        TokenLine.scan numbered.2 numbered.1.toList = .ok scanned) numberedLines scannedLines ∧
      List.Forall₂ (fun scanned group => Token.words scanned.body = group.flatMap Piece.words)
        scannedLines groups := by
  induction h with
  | nil => exact ⟨[], .nil, .nil⟩
  | cons hline hgroups ih =>
    obtain ⟨hfirst, hrest⟩ := List.forall_mem_cons.mp hends
    obtain ⟨scanned, hscan, hwords⟩ := words_body_of_readsAs hline hfirst
    obtain ⟨scannedLines, hscans, hbodies⟩ := ih hrest
    exact ⟨scanned :: scannedLines, .cons hscan hscans, .cons hwords hbodies⟩

/-- **No word is lost.** Unless a line ends twice, the pieces of a program that is read are the
groups of its lines that are not blank, in order. Each group has the words of its line but for the
semicolon that may end the line, and begins at the depth that the line is indented by; so the
words of all lines together are the words of the program. -/
theorem pieces_of_ofLines (h : ofLines lines = .ok program)
    (hends : ∀ numbered ∈ lines.zipIdx, ∀ scanned,
      TokenLine.scan numbered.2 numbered.1.toList = .ok scanned → ¬ scanned.EndsTwice) :
    ∃ (scannedLines : List TokenLine) (groups : List (List Piece)),
      List.Forall₂ (fun numbered scanned =>
        TokenLine.scan numbered.2 numbered.1.toList = .ok scanned)
        (writtenLines 0 lines) scannedLines ∧
      List.Forall₂ (fun scanned group => Token.words scanned.body = group.flatMap Piece.words)
        scannedLines groups ∧
      List.Forall₂ (fun numbered group =>
        ∃ phrase more, group = ⟨Text.indentLevel numbered.1.toList, phrase⟩ :: more)
        (writtenLines 0 lines) groups ∧
      groups.flatten = program.pieces ∧
      scannedLines.flatMap (fun scanned => Token.words scanned.body) = program.words := by
  obtain ⟨-, groups, hpieces, hgroups⟩ := exists_groups h
  obtain ⟨scannedLines, hscans, hwords⟩ := exists_scannedLines hgroups fun numbered hmem =>
    hends numbered (List.mem_filter.mp hmem).1
  refine ⟨scannedLines, groups, hscans, hwords, hgroups.imp fun _ _ hline => hline.opens,
    hpieces, ?_⟩
  have hbodies : scannedLines.map (fun scanned => Token.words scanned.body) =
      groups.map fun group => group.flatMap Piece.words := by
    rw [← List.forall₂_eq_eq_eq, List.forall₂_map_left_iff, List.forall₂_map_right_iff]
    exact hwords
  rw [List.flatMap_def, hbodies, words, ← hpieces, ← List.flatMap_def, ← List.flatMap_id,
    List.flatMap_assoc]
  rfl

/-- A branch with an inline body, a semicolon, and an indented body. -/
theorem pieces_of_branch_lines :
    ∃ (program : Program) (scannedLines : List TokenLine) (groups : List (List Piece)),
      ofLines ["if x == 01: display x;", "", "else:", "\tinput x"] = .ok program ∧
      List.Forall₂ (fun numbered scanned =>
        TokenLine.scan numbered.2 numbered.1.toList = .ok scanned)
        [("if x == 01: display x;", 0), ("else:", 2), ("\tinput x", 3)] scannedLines ∧
      groups.flatten = program.pieces ∧
      program.pieces =
        [⟨0, .ifHead (.compare (some 0) .eq (.var (some 0) "x") (.number (some 0) 1))⟩,
        ⟨1, .display (.var (some 0) "x")⟩, ⟨0, .elseHead⟩, ⟨1, .input "x"⟩] ∧
      scannedLines.flatMap (fun scanned => Token.words scanned.body) = program.words := by
  have hends : ∀ numbered ∈ ["if x == 01: display x;", "", "else:", "\tinput x"].zipIdx,
      ∀ scanned ∈ (TokenLine.scan numbered.2 numbered.1.toList).toOption, ¬ scanned.EndsTwice := by
    decide +kernel
  have hread : (ofLines ["if x == 01: display x;", "", "else:", "\tinput x"]).map pieces = .ok
      [⟨0, .ifHead (.compare (some 0) .eq (.var (some 0) "x") (.number (some 0) 1))⟩,
        ⟨1, .display (.var (some 0) "x")⟩, ⟨0, .elseHead⟩, ⟨1, .input "x"⟩] := by
    decide +kernel
  have hwritten : writtenLines 0 ["if x == 01: display x;", "", "else:", "\tinput x"] =
      [("if x == 01: display x;", 0), ("else:", 2), ("\tinput x", 3)] := by
    decide +kernel
  -- from here on the lines are not to be computed with
  generalize ["if x == 01: display x;", "", "else:", "\tinput x"] = lines at *
  obtain ⟨program, hprogram, hpieces⟩ := map_eq_ok_iff.mp hread
  obtain ⟨scannedLines, groups, hscans, -, -, hgroups, hwords⟩ :=
    pieces_of_ofLines hprogram fun numbered hmem scanned hscan =>
      hends numbered hmem scanned (by rw [hscan]; rfl)
  rw [hwritten] at hscans
  exact ⟨program, scannedLines, groups, hprogram, hscans, hgroups, hpieces, hwords⟩

end Program

end Offside

import Offside.Proofs.Source.Settling
import Offside.Proofs.Source.Spelled

/-!
# Bodies and clauses read back

A part of a program **reads back** when reading the rows of any of its layouts gives the part
again, line numbers apart, as far as there is room for the nesting of the rows, and otherwise
complains about just that. `ReadsBack` says so for each kind of part, at the place where reading
gets to it: a statement and its clauses are read in the middle of a row, statements from the
beginning of one. What has been read by then is what progress settles with, so the parts can be
put together whatever blocks they leave open.

A body and clauses read back when the parts they are made of do.
-/

namespace Offside

/-- The context of a line at a depth: what room blocks leave, and a token to end the line. -/
structure LineContext.IsAt (cx : LineContext) (depth : Nat) : Prop where
  room_eq : cx.room = nestingLimit - depth
  stop_kind : cx.stop.kind = .endOfLine
  depth_le : depth ≤ nestingLimit

/-- On a line at a depth, the depth counts as nesting. -/
theorem Fits.at {α : Type} {cx : LineContext} {depth n : Nat} {result : Except Failure α}
    {post : α → Prop} (hcx : cx.IsAt depth) (h : Fits cx.room n result post) :
    Fits nestingLimit (depth + n) result post := by
  have hroom := hcx.room_eq
  have hdepth := hcx.depth_le
  exact h.of_iff (by omega)

/-- What follows the content of a line: it is added, and the rows below are read. -/
def Progress.proceed (row : Nat) (levels : List Level) (before : List Statement)
    (below : List Row) (content : LineContent) : Except Failure Progress :=
  add row levels (content, before) >>= (below.map Row.text).foldlM feed

private theorem Progress.bind_proceed_append (row : Nat) (levels : List Level)
    (before : List Statement)
    (front back : List Row) (result : Except Failure LineContent) :
    result >>= proceed row levels before (front ++ back) =
      result >>= proceed row levels before front >>= (back.map Row.text).foldlM feed := by
  rw [bind_assoc]
  refine congrArg _ (funext fun content => ?_)
  rw [proceed, proceed, bind_assoc]
  refine congrArg _ (funext fun p => ?_)
  rw [List.map_append, List.foldlM_append]

/-- The next row of a layout is read as a line, and then the rows below it. -/
theorem Progress.foldlM_feed_row {p : Progress} {statements : List Statement}
    {levels : List Level} (h : p.SettlesAt statements levels) (hle : levels.length ≤ nestingLimit)
    {row : Row} (hrow : row.isWellFormed = true) (hdepth : row.depth = levels.length) :
    ∃ cx tokens, LineContext.IsAt cx levels.length ∧ Spells p.row tokens row.words ∧
      ∀ below : List Row, ((row :: below).map Row.text).foldlM feed p =
        LineContent.read cx statements tokens >>= fun (content, before) =>
          proceed p.row levels before below content := by
  obtain ⟨cx, tokens, hroom, hstop, hspells, hfeed⟩ := feed_text h hrow hdepth
  refine ⟨cx, tokens, ⟨hroom, hstop, hle⟩, hspells, fun below => ?_⟩
  rw [List.map_cons, List.foldlM_cons, hfeed, bind_assoc]
  rfl

/-! ### What reads back -/

/-- Statements read back when the rows of each of their layouts are read as them. -/
def Statement.ReadBack (depth : Nat) (statements : List Statement) : Prop :=
  ∀ rows ∈ Statement.layoutsOf depth statements, ∀ p before levels,
    levels.length = depth → depth ≤ nestingLimit → Progress.SettlesAt p before levels →
    Fits nestingLimit (Row.nestingOf rows) ((rows.map Row.text).foldlM Progress.feed p)
      fun p' => ∃ read : List Statement,
        read.map Statement.unlined = statements.map Statement.unlined ∧
          p'.SettlesAt (read.reverse ++ before) levels

/-- A statement reads back when its row and the rows below are read as it. -/
def Statement.ReadsBack (depth : Nat) (statement : Statement) : Prop :=
  ∀ layout ∈ statement.layouts depth, ∀ cx : LineContext, cx.IsAt depth →
    ∀ row tokens, Spells row tokens (layout.front.flatMap Phrase.words) →
    ∀ before levels, levels.length = depth →
    Fits nestingLimit (max (depth + Phrase.nestingOf layout.front) (Row.nestingOf layout.below))
      (LineContent.read cx before tokens >>= fun (content, before) =>
        Progress.proceed row levels before layout.below content)
      fun p' => ∃ read, read.unlined = statement.unlined ∧ p'.SettlesAt (read :: before) levels

/-- A body reads back when, behind any heading, the rest of the row from the colon on and the rows
below complete the heading with it. What is done with the content of the row is left open as far
as the heading allows. -/
def Body.ReadsBack (depth : Nat) (body : Body) : Prop :=
  ∀ layout ∈ body.layouts depth, ∀ cx : LineContext, cx.IsAt depth →
    ∀ row colon tokens, colon.kind = .colon →
    Spells row tokens (layout.front.flatMap Phrase.words) →
    ∀ (heading : Heading) (goOn : Token × Option (Body × List Token) → Except Failure LineContent),
    goOn (colon, none) = .ok (.heading heading colon) →
    (∀ inner, goOn (colon, some (inner, [])) = .ok (.statement (heading.complete inner))) →
    ∀ before levels, levels.length = depth →
    Fits nestingLimit (max (depth + Phrase.nestingOf layout.front) (Row.nestingOf layout.below))
      (Body.readInline cx (colon :: tokens) >>= goOn >>=
        Progress.proceed row levels before layout.below)
      fun p' => ∃ read, read.unlined = body.unlined ∧
        p'.SettlesAt (heading.complete read :: before) levels

/-- Reads further clauses of a branch, from the keyword of the next one on. -/
def Clauses.readFrom (cx : LineContext) (line : Option Int) (earlier : Clauses) :
    List Token → Except Failure LineContent
  | [] => .ok (.statement (.branch line earlier))
  | keyword :: tokens =>
    if keyword.kind = .elseWord then (Heading.otherwise line earlier).readBody cx tokens
    else Clauses.read cx line earlier tokens

/-- Clauses read back when, behind any earlier clauses, the rest of the row from the keyword on and
the rows below are read as them. -/
def Clauses.ReadsBack (depth : Nat) (clauses : Clauses) : Prop :=
  ∀ isFirst, ∀ layout ∈ clauses.layouts depth isFirst, ∀ cx : LineContext, cx.IsAt depth →
    ∀ row tokens, Spells row tokens (layout.front.flatMap Phrase.words) →
    ∀ line earlier, Clauses.isOpen earlier = true → ∀ before levels, levels.length = depth →
    Fits nestingLimit (max (depth + Phrase.nestingOf layout.front) (Row.nestingOf layout.below))
      (Clauses.readFrom cx line earlier tokens >>=
        Progress.proceed row levels before layout.below)
      fun p' => ∃ read, read.unlined = clauses.unlined ∧
        p'.SettlesAt (.branch line (earlier.append read) :: before) levels

/-! ### Bodies -/

private theorem Statement.depth_le_nestingOf {depth : Nat} {statements : List Statement}
    {rows : List Row} (hne : statements ≠ []) (h : rows ∈ layoutsOf depth statements) :
    depth ≤ Row.nestingOf rows := by
  cases statements with
  | nil => exact absurd rfl hne
  | cons statement rest =>
    obtain ⟨first, -, h⟩ := List.mem_flatMap.mp h
    obtain ⟨more, -, rfl⟩ := List.mem_map.mp h
    exact Nat.le_trans (Nat.le_add_right depth _) (Nat.le_max_left _ _)

theorem Body.readsBack_of_statements {depth : Nat} {body : Body} (hbody : body.isWellFormed = true)
    (h : Statement.ReadBack (depth + 1) body.statements) : body.ReadsBack depth := by
  obtain ⟨line, statements⟩ := body
  obtain ⟨hne, hstatements⟩ := Bool.and_eq_true_iff.mp hbody
  have hne : statements ≠ [] := by simpa using hne
  intro layout hlayout cx hcx row colon tokens hcolon hspells heading goOn hheading hstatement
    before levels hlevels
  rcases List.mem_append.mp hlayout with hinline | hindented
  · -- inline: the row holds the whole statement
    obtain ⟨statement, phrase, rfl, hsimple, rfl⟩ :=
      Statement.exists_of_inline? (Option.mem_toList.mp hinline)
    have hstatement' := Statement.areWellFormed_iff.mp hstatements statement List.mem_cons_self
    rw [List.flatMap_singleton] at hspells
    have hfits : Fits cx.room phrase.nesting (Body.readInline cx (colon :: (tokens ++ []))) _ :=
      Body.fits_readInline hcolon hstatement' hsimple hspells nofun
    rw [List.append_nil] at hfits
    rw [bind_assoc]
    refine ((hfits.at hcx).bind_ok ?_).of_iff ?_
    · rintro _ rfl
      rw [hstatement, ok_bind]
      refine ⟨_, rfl, _, ?_, Progress.settlesAt_self (row + 1) _ levels⟩
      rw [Body.unlined_mk, Body.unlined_mk, List.map_singleton, List.map_singleton,
        Statement.unlined_onRow hsimple]
    · simp only [Phrase.nestingOf, Row.nestingOf]
      omega
  · -- indented: the row ends with the colon, and the statements are read inside a new block
    obtain ⟨rows, hrows, rfl⟩ := List.mem_map.mp hindented
    obtain rfl := hspells.nil
    rw [Body.readInline_colon hcolon hcx.stop_kind, ok_bind, hheading, ok_bind, Progress.proceed,
      Progress.add]
    have hdeep := Statement.depth_le_nestingOf hne hrows
    by_cases hroom : levels.length < nestingLimit
    · rw [if_pos hroom, ok_bind]
      have hopened := Progress.settlesAt_self (row + 1) [] (⟨heading, colon, before⟩ :: levels)
      have hrows := h rows hrows _ _ _ (by rw [List.length_cons, hlevels]) (by omega) hopened
      refine (hrows.imp ?_).of_iff ?_
      · rintro p' ⟨read, hread, hsettles⟩
        rw [List.append_nil] at hsettles
        have hread_ne : read.reverse ≠ [] := by
          rw [Ne, List.reverse_eq_nil_iff, ← List.map_eq_nil_iff (f := Statement.unlined), hread,
            List.map_eq_nil_iff]
          exact hne
        refine ⟨_, ?_, hsettles.complete hread_ne⟩
        rw [Body.unlined_mk, Body.unlined_mk, List.reverse_reverse, hread]
        rfl
      · simp only [Phrase.nestingOf]
        omega
    · -- there is no room for the block, and its rows are nested more deeply than the limit
      rw [if_neg hroom]
      refine ⟨fun hfits => absurd hfits ?_, fun _ => rfl⟩
      simp only
      omega

/-- What reading the body of a heading goes on with behind the colon. -/
def Heading.goOn (cx : LineContext) (heading : Heading) :
    Token × Option (Body × List Token) → Except Failure LineContent
  | (colon, none) => .ok (.heading heading colon)
  | (_, some (body, tokens)) =>
    cx.finish tokens >>= fun _ => .ok (.statement (heading.complete body))

theorem Heading.readBody_eq_bind {cx : LineContext} {heading : Heading} {tokens : List Token} :
    heading.readBody cx tokens = Body.readInline cx tokens >>= heading.goOn cx := by
  rw [readBody]
  refine congrArg _ (funext fun result => ?_)
  obtain ⟨colon, _ | ⟨body, tokens⟩⟩ := result <;> rfl

/-- A heading is read with its body. -/
theorem Heading.fits_readBody {cx : LineContext} {depth : Nat} {body : Body} {inner : Layout}
    (hbody : body.ReadsBack depth) (hinner : inner ∈ body.layouts depth) (hcx : cx.IsAt depth)
    {row : Nat} {colon : Token} {tokens : List Token} (hcolon : colon.kind = .colon)
    (hspells : Spells row tokens (inner.front.flatMap Phrase.words)) (heading : Heading)
    (before : List Statement) {levels : List Level} (hlevels : levels.length = depth) :
    Fits nestingLimit (max (depth + Phrase.nestingOf inner.front) (Row.nestingOf inner.below))
      (heading.readBody cx (colon :: tokens) >>= Progress.proceed row levels before inner.below)
      fun p' => ∃ read, read.unlined = body.unlined ∧
        p'.SettlesAt (heading.complete read :: before) levels := by
  rw [readBody_eq_bind]
  exact hbody inner hinner cx hcx row colon tokens hcolon hspells heading (heading.goOn cx) rfl
    (fun _ => rfl) before levels hlevels

/-! ### Clauses -/

namespace Clauses

variable {cx : LineContext} {line : Option Int} {earlier : Clauses} {depth : Nat}

/-- What reading clauses goes on with behind the colon of a guarded one. -/
def goOn (cx : LineContext) (line : Option Int) (earlier : Clauses) (condition : Condition) :
    Token × Option (Body × List Token) → Except Failure LineContent
  | (colon, none) => .ok (.heading (.guarded line earlier condition) colon)
  | (_, some (body, rest)) =>
    let clauses := earlier.append (.guarded condition body .done)
    match rest with
    | [] => .ok (.statement (.branch line clauses))
    | token :: tail =>
      match token.kind with
      | .elifWord => read cx line clauses tail
      | .elseWord => (Heading.otherwise line clauses).readBody cx tail
      | _ => (cx.finish (token :: tail)).map fun _ => .statement (.branch line clauses)

theorem read_eq_bind (tokens : List Token) :
    read cx line earlier tokens = Condition.read cx tokens >>= fun (condition, behind) =>
      Body.readInline cx behind >>= goOn cx line earlier condition := by
  rw [read.eq_def]
  split
  · next failure hcondition => rw [hcondition]; rfl
  · next condition behind hcondition =>
    rw [hcondition, ok_bind]
    split
    · next failure hinline => exact (congrArg (· >>= goOn cx line earlier condition) hinline).symm
    · next colon hinline => exact (congrArg (· >>= goOn cx line earlier condition) hinline).symm
    · next colon body rest hinline =>
      refine Eq.trans ?_ (congrArg (· >>= goOn cx line earlier condition) hinline).symm
      cases rest <;> rfl

/-- Behind an inline body, further clauses are read from their keyword on. -/
theorem goOn_inline {condition : Condition} {colon : Token} {body : Body} {tokens : List Token}
    (hkeyword : ∀ token ∈ tokens.head?, token.kind = .elifWord ∨ token.kind = .elseWord) :
    goOn cx line earlier condition (colon, some (body, tokens)) =
      readFrom cx line (earlier.append (.guarded condition body .done)) tokens := by
  cases tokens with
  | nil => rfl
  | cons token tail =>
    rcases hkeyword token rfl with hkind | hkind
    · rw [readFrom, if_neg (by rw [hkind]; decide)]
      simp only [goOn, hkind]
    · rw [readFrom, if_pos hkind]
      simp only [goOn, hkind]

/-- The row of a guarded clause comes apart at its colon. -/
private theorem spells_guardHead {row : Nat} {tokens : List Token} {isFirst : Bool}
    {condition : Condition} {phrases : List Phrase}
    (h : Spells row tokens ((.guardHead isFirst condition :: phrases).flatMap Phrase.words)) :
    ∃ keyword front colon back, tokens = keyword :: (front ++ colon :: back) ∧
      keyword.kind ≠ .elseWord ∧ colon.kind = .colon ∧ Spells row front condition.words ∧
        Spells row back (phrases.flatMap Phrase.words) := by
  rw [List.flatMap_cons, Phrase.words_guardHead, List.cons_append, List.append_assoc] at h
  obtain ⟨keyword, tokens, rfl, hkeyword, -, h⟩ := h.cons
  obtain ⟨front, tokens, rfl, hfront, h⟩ := h.append
  obtain ⟨colon, back, rfl, hcolon, -, h⟩ := h.cons
  refine ⟨keyword, front, colon, back, rfl, ?_, Word.kind_of_fixed hcolon (by decide), hfront, h⟩
  cases isFirst with
  | false => rw [Word.kind_of_fixed hkeyword (by decide)]; decide
  | true => rw [Word.kind_of_fixed hkeyword (by decide)]; decide

theorem readsBack_done (depth : Nat) : ReadsBack depth done := by
  intro isFirst layout hlayout cx hcx row tokens hspells line earlier hopen before levels hlevels
  obtain rfl := List.mem_singleton.mp hlayout
  obtain rfl := hspells.nil
  have hdepth := hcx.depth_le
  refine Fits.ok_of_le ?_ ⟨done, rfl, ?_⟩
  · simp only [Phrase.nestingOf, Row.nestingOf]
    omega
  · rw [append_done]
    exact Progress.settlesAt_self (row + 1) _ levels

theorem readsBack_otherwise {body : Body} (hbody : body.ReadsBack depth) :
    ReadsBack depth (otherwise body) := by
  intro isFirst layout hlayout cx hcx row tokens hspells line earlier hopen before levels hlevels
  obtain ⟨inner, hinner, rfl⟩ := List.mem_map.mp hlayout
  obtain ⟨keyword, tokens, rfl, hkeyword, -, hspells⟩ := hspells.cons
  obtain ⟨colon, tokens, rfl, hcolon, -, hspells⟩ := hspells.cons
  rw [readFrom, if_pos (Word.kind_of_fixed hkeyword (by decide))]
  have hread := Heading.fits_readBody hbody hinner hcx (Word.kind_of_fixed hcolon (by decide))
    hspells (.otherwise line earlier) before hlevels
  refine (hread.imp ?_).of_iff ?_
  · rintro p' ⟨read, hread, hsettles⟩
    exact ⟨otherwise read, congrArg otherwise hread, hsettles⟩
  · simp only [Layout.behind, Phrase.nestingOf, Phrase.nesting]
    omega

/-- Clauses that are not the first ones of their branch begin with a keyword of their own. -/
private theorem kind_of_mem_layouts {clauses : Clauses} {layout : Layout}
    (hlayout : layout ∈ clauses.layouts depth false) {row : Nat} {tokens : List Token}
    (h : Spells row tokens (layout.front.flatMap Phrase.words)) :
    ∀ token ∈ tokens.head?, token.kind = .elifWord ∨ token.kind = .elseWord := by
  cases clauses with
  | done =>
    obtain rfl := List.mem_singleton.mp hlayout
    obtain rfl := h.nil
    exact nofun
  | otherwise body =>
    obtain ⟨inner, -, rfl⟩ := List.mem_map.mp hlayout
    obtain ⟨keyword, tokens, rfl, hkeyword, -, -⟩ := h.cons
    rintro token ⟨⟩
    exact .inr (Word.kind_of_fixed hkeyword (by decide))
  | guarded condition body rest =>
    obtain ⟨first, -, hjoin⟩ := List.mem_flatMap.mp hlayout
    obtain ⟨more, -, hjoin⟩ := List.mem_flatMap.mp hjoin
    obtain ⟨phrases, hfront⟩ := Layout.exists_front_of_mem_join hjoin
    rw [hfront] at h
    obtain ⟨keyword, tokens, rfl, hkeyword, -, -⟩ := h.cons
    rintro token ⟨⟩
    exact .inl (Word.kind_of_fixed hkeyword (by decide))


/-- The first clause of a branch begins with a keyword of its own. -/
theorem kind_of_first {clauses : Clauses} (hguarded : clauses.isGuarded = true) {layout : Layout}
    (hlayout : layout ∈ clauses.layouts depth true) {row : Nat} {tokens : List Token}
    (h : Spells row tokens (layout.front.flatMap Phrase.words)) :
    ∃ keyword rest, tokens = keyword :: rest ∧ keyword.kind = .ifWord := by
  cases clauses with
  | done => cases hguarded
  | otherwise body => cases hguarded
  | guarded condition body rest =>
    obtain ⟨first, -, hjoin⟩ := List.mem_flatMap.mp hlayout
    obtain ⟨more, -, hjoin⟩ := List.mem_flatMap.mp hjoin
    obtain ⟨phrases, hfront⟩ := Layout.exists_front_of_mem_join hjoin
    rw [hfront] at h
    obtain ⟨keyword, tokens, rfl, hkeyword, -, -⟩ := h.cons
    exact ⟨keyword, tokens, rfl, Word.kind_of_fixed hkeyword (by decide)⟩

/-- A line that begins with a further clause goes on with the branch in front of it. -/
theorem read_further {clauses : Clauses} (hopen : clauses.isOpen = true) (before : List Statement)
    {tokens : List Token} (hne : tokens ≠ [])
    (hkeyword : ∀ token ∈ tokens.head?, token.kind = .elifWord ∨ token.kind = .elseWord) :
    LineContent.read cx (.branch line clauses :: before) tokens =
      readFrom cx line clauses tokens >>= fun content => .ok (content, before) := by
  cases tokens with
  | nil => exact absurd rfl hne
  | cons keyword tokens =>
    have hopenBranch :
        openBranch? (.branch line clauses :: before) = some (line, clauses, before) := if_pos hopen
    rcases hkeyword keyword rfl with hkind | hkind
    · rw [readFrom, if_neg (by rw [hkind]; decide)]
      simp only [LineContent.read, LineContext.current, List.headD_cons, hkind, hopenBranch]
      rfl
    · rw [readFrom, if_pos hkind]
      simp only [LineContent.read, LineContext.current, List.headD_cons, hkind, hopenBranch]
      rfl

section Guarded

variable {condition : Condition} {body : Body} {rest : Clauses} {first more : Layout} {row : Nat}
  {front back : List Token} {colon : Token} {before : List Statement} {levels : List Level}

/-- A guarded clause is read up to the rows of its body. -/
private theorem fits_guarded (hcondition : condition.isWellFormed = true)
    (hbody : body.ReadsBack depth) (hfirst : first ∈ body.layouts depth) (hcx : cx.IsAt depth)
    (hfront : Spells row front condition.words) (hcolon : colon.kind = .colon)
    (hback : Spells row back (first.front.flatMap Phrase.words)) (line : Option Int)
    (earlier : Clauses) (before : List Statement) (hlevels : levels.length = depth) :
    Fits nestingLimit (max (depth + max condition.nesting (Phrase.nestingOf first.front))
        (Row.nestingOf first.below))
      (read cx line earlier (front ++ colon :: back) >>=
        Progress.proceed row levels before first.below)
      fun p' => ∃ condition' body', condition'.unlined = condition.unlined ∧
        body'.unlined = body.unlined ∧
        p'.SettlesAt (.branch line (earlier.append (guarded condition' body' done)) :: before)
          levels := by
  have hhead : Fits cx.room condition.nesting (Condition.read cx (front ++ colon :: back)) _ :=
    Condition.fits_read hcondition hfront (Token.operator_of_kind hcolon rfl)
  have hread := hbody first hfirst cx hcx row colon back hcolon hback
    (.guarded line earlier (condition.onRow row)) (goOn cx line earlier (condition.onRow row))
    rfl (fun _ => rfl) before levels hlevels
  rw [read_eq_bind, bind_assoc]
  refine ((hhead.at hcx).bind (m := max (depth + Phrase.nestingOf first.front)
    (Row.nestingOf first.below)) ?_).of_iff ?_
  · rintro _ rfl
    refine hread.imp ?_
    rintro p' ⟨body', hbody', hsettles⟩
    exact ⟨condition.onRow row, body', condition.unlined_onRow row, hbody', hsettles⟩
  · omega

/-- Behind a guarded clause, further clauses are read from a row of their own. -/
private theorem fits_guarded_below (hcondition : condition.isWellFormed = true)
    (hbody : body.ReadsBack depth) (hrestShape : rest.isWellFormed = true)
    (hrest : rest.ReadsBack depth) (hfirst : first ∈ body.layouts depth)
    (hmore : more ∈ rest.layouts depth false) (hne : more.front ≠ []) (hcx : cx.IsAt depth)
    (hfront : Spells row front condition.words) (hcolon : colon.kind = .colon)
    (hback : Spells row back (first.front.flatMap Phrase.words))
    (line : Option Int) (hopen : earlier.isOpen = true) (before : List Statement)
    (hlevels : levels.length = depth) :
    Fits nestingLimit (max (depth + max condition.nesting (Phrase.nestingOf first.front))
        (Row.nestingOf (first.below ++ ⟨depth, more.front⟩ :: more.below)))
      (read cx line earlier (front ++ colon :: back) >>=
        Progress.proceed row levels before (first.below ++ ⟨depth, more.front⟩ :: more.below))
      fun p' => ∃ read, read.unlined = (guarded condition body rest).unlined ∧
        p'.SettlesAt (.branch line (earlier.append read) :: before) levels := by
  have hmoreShape := continues_of_mem_layouts hrestShape hmore
  have hrow : Layout.IsWellFormed ⟨more.front, more.below⟩ := ⟨hmoreShape, hne⟩
  have hread := fits_guarded hcondition hbody hfirst hcx hfront hcolon hback line earlier before
    hlevels
  rw [Progress.bind_proceed_append]
  refine (hread.bind (m := max (depth + Phrase.nestingOf more.front)
    (Row.nestingOf more.below)) ?_).of_iff ?_
  · rintro p' ⟨condition', body', hcondition', hbody', hsettles⟩
    -- the branch settles as the last statement, so the next row goes on with it
    have hopen' := isOpen_append_guarded condition' body' hopen
    obtain ⟨cx', tokens, hcx', hspells, hfold⟩ :=
      Progress.foldlM_feed_row hsettles (hlevels ▸ hcx.depth_le) (hrow.row depth) hlevels.symm
    have htokens : tokens ≠ [] := by
      rintro rfl
      exact Row.words_ne_nil _ (hrow.row depth) hspells.words_eq.symm
    rw [hfold, read_further hopen' before htokens (kind_of_mem_layouts hmore hspells), bind_assoc]
    have hgoesOn := hrest false more hmore cx' (hlevels ▸ hcx') p'.row tokens hspells line _ hopen'
      before levels hlevels
    refine hgoesOn.imp ?_
    rintro p'' ⟨read, hunlined, hsettles⟩
    refine ⟨guarded condition' body' read, ?_, ?_⟩
    · rw [unlined_guarded, unlined_guarded, hcondition', hbody', hunlined]
    · rw [append_assoc] at hsettles
      exact hsettles
  · simp only [Row.nestingOf_append, Row.nestingOf, Row.nesting]
    omega

/-- Behind a guarded clause with an inline body, further clauses are read from the same row. -/
private theorem fits_guarded_inline {statement : Statement} {phrase : Phrase}
    {inner tokens : List Token} (hcondition : condition.isWellFormed = true)
    (hstatement : statement.isWellFormed = true) (hsimple : statement.simple? = some phrase)
    (hrest : rest.ReadsBack depth) (hmore : more ∈ rest.layouts depth false) (hcx : cx.IsAt depth)
    (hfront : Spells row front condition.words) (hcolon : colon.kind = .colon)
    (hinner : Spells row inner phrase.words)
    (hfurther : Spells row tokens (more.front.flatMap Phrase.words))
    (line : Option Int) (hopen : earlier.isOpen = true) (before : List Statement)
    (hlevels : levels.length = depth) :
    Fits nestingLimit (max (depth + max condition.nesting (max phrase.nesting
        (Phrase.nestingOf more.front))) (Row.nestingOf more.below))
      (read cx line earlier (front ++ colon :: (inner ++ tokens)) >>=
        Progress.proceed row levels before more.below)
      fun p' => ∃ read, read.unlined = (guarded condition (.mk none [statement]) rest).unlined ∧
        p'.SettlesAt (.branch line (earlier.append read) :: before) levels := by
  have hkinds := kind_of_mem_layouts hmore hfurther
  have hoperator : ∀ token ∈ tokens.head?, Operator.ofKind? token.kind = none := by
    intro token htoken
    rcases hkinds token htoken with hkind | hkind
    · rw [hkind]; rfl
    · rw [hkind]; rfl
  have hhead : Fits cx.room condition.nesting
      (Condition.read cx (front ++ colon :: (inner ++ tokens))) _ :=
    Condition.fits_read hcondition hfront (Token.operator_of_kind hcolon rfl)
  have hbehind : Fits cx.room phrase.nesting (Body.readInline cx (colon :: (inner ++ tokens))) _ :=
    Body.fits_readInline hcolon hstatement hsimple hinner hoperator
  rw [read_eq_bind, bind_assoc]
  refine ((hhead.at hcx).bind (m := max (depth + phrase.nesting) (max (depth +
    Phrase.nestingOf more.front) (Row.nestingOf more.below))) ?_).of_iff ?_
  · rintro _ rfl
    rw [bind_assoc]
    refine (hbehind.at hcx).bind ?_
    rintro _ rfl
    rw [goOn_inline hkinds]
    have hgoesOn := hrest false more hmore cx hcx row tokens hfurther line _
      (isOpen_append_guarded (condition.onRow row) (.mk (some colon.row) [statement.onRow row])
        hopen) before levels hlevels
    refine hgoesOn.imp ?_
    rintro p' ⟨read, hunlined, hsettles⟩
    rw [append_assoc] at hsettles
    refine ⟨_, ?_, hsettles⟩
    rw [append, unlined_guarded, unlined_guarded, condition.unlined_onRow, Body.unlined_mk,
      Body.unlined_mk, List.map_singleton, List.map_singleton, Statement.unlined_onRow hsimple]
    exact congrArg _ hunlined
  · omega

/-- Guarded clauses read back. What is behind the first of them begins a row of its own or goes on
with the row, and in neither case is there anything else between the two. -/
theorem readsBack_guarded (hcondition : condition.isWellFormed = true)
    (hbodyShape : body.isWellFormed = true) (hbody : body.ReadsBack depth)
    (hrestShape : rest.isWellFormed = true) (hrest : rest.ReadsBack depth) :
    ReadsBack depth (guarded condition body rest) := by
  intro isFirst layout hlayout cx hcx row tokens hspells line earlier hopen before levels hlevels
  obtain ⟨first, hfirst, hjoin⟩ := List.mem_flatMap.mp hlayout
  obtain ⟨more, hmore, hjoin⟩ := List.mem_flatMap.mp hjoin
  obtain ⟨phrases, hphrases⟩ := Layout.exists_front_of_mem_join hjoin
  rw [hphrases] at hspells
  obtain ⟨keyword, front, colon, back, rfl, hkeyword, hcolon, hfront, hback⟩ :=
    spells_guardHead hspells
  rw [readFrom, if_neg hkeyword]
  rcases Layout.mem_join hjoin with ⟨hnil, rfl⟩ | ⟨hne, rfl | ⟨hinline, rfl⟩⟩
  · -- there are no further clauses
    obtain rfl := (List.cons.inj hphrases).2
    have hdone : rest = done :=
      Classical.byContradiction fun hsome => front_ne_of_mem_layouts hsome hmore hnil
    have hread := fits_guarded hcondition hbody hfirst hcx hfront hcolon hback line earlier before
      hlevels
    refine (hread.imp ?_).of_iff ?_
    · rintro p' ⟨condition', body', hcondition', hbody', hsettles⟩
      refine ⟨guarded condition' body' done, ?_, hsettles⟩
      rw [unlined_guarded, unlined_guarded, hcondition', hbody', hdone]
    · simp only [Layout.behind, Phrase.nestingOf, Phrase.nesting_guardHead]
  · -- further clauses on a row of their own
    obtain rfl := (List.cons.inj hphrases).2
    have hread := fits_guarded_below hcondition hbody hrestShape hrest hfirst hmore hne hcx hfront
      hcolon hback line hopen before hlevels
    refine hread.of_iff ?_
    simp only [Phrase.nestingOf, Phrase.nesting_guardHead]
  · -- further clauses on the same row, so the body is inline
    obtain rfl := (List.cons.inj hphrases).2
    obtain ⟨bodyLine, statement, phrase, rfl, hsimple, rfl⟩ :=
      Body.exists_of_front_ne hfirst hinline
    have hstatement : statement.isWellFormed = true := by
      simpa [Body.isWellFormed, Statement.areWellFormed] using hbodyShape
    obtain ⟨inner, tokens, rfl, hinner, hfurther⟩ := hback.append
    have hread := fits_guarded_inline hcondition hstatement hsimple hrest hmore hcx hfront hcolon
      hinner hfurther line hopen before hlevels
    refine hread.of_iff ?_
    simp only [Phrase.nestingOf, Phrase.nesting_guardHead, Phrase.nestingOf_append]
    omega

end Guarded

end Clauses

end Offside

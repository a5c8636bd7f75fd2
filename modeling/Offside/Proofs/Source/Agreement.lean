import Offside.Proofs.Source.Continuation
import Offside.Proofs.Source.Ownership
import Offside.Proofs.Source.ReadsBack

/-!
# Reading statement by statement agrees with reading line by line

Programs are read line by line, with the open blocks on a stack, and they may as well be read
statement by statement, where the blocks are calls inside one another (`Reading.program`). Both ways
come to the same program, and to the same failure (`Reading.ofLines_eq_program`).

The proof goes along the rules, from bodies up to blocks. Each part of the reader gets a lemma that
says what reading the rest line by line comes to at the place where the part begins: the part is
read, and what is left behind it is read line by line again. For what is left it does not matter
whose line the cursor is on by the tokens alone. Behind a body the cursor is on the line exactly if
the body is inline, and behind a statement that may go on with a further clause the next line does
not begin with one, so that line by line, too, the statement is at its end there.

A block has such a lemma for the reader of statements inside it, and a statement for the reader of
blocks, so both are proved together by induction on the room that is left for blocks. There is just
as much room as the nesting limit leaves at the level.
-/

namespace Offside

namespace Reading

variable {room : Nat} {c : Cursor}

/-! ### Bodies -/

/-- A reader of blocks **agrees** with reading line by line below a heading at the level: it gives
the statements that the block holds when it is closed. -/
def BlockAgrees (level : Nat) (block : Reading (List Statement)) : Prop :=
  ∀ (c : Cursor) (heading : Heading) (colon : Token) (before : List Statement)
    (levels : List Level), c.IsTrue → c.IsBehind → levels.length = level →
    (if levels.length < nestingLimit then readRest [] (⟨heading, colon, before⟩ :: levels) c.ahead
      else .error (.unplaced .nestedTooDeeplyToRead)) =
      andThen (block c) fun statements c' =>
        closeAndRead ⟨heading, colon, before⟩ levels statements c'.ahead

section

variable {level : Nat} {block : Reading (List Statement)} {before : List Statement}
  {levels : List Level} {heading : Heading} {colon : Token}

/-- A block is read below its heading. -/
private theorem andThen_blockBody (hblock : KeepsBelow level block)
    (hagrees : BlockAgrees level block)
    (hlevels : levels.length = level) (hc : c.IsTrue) (hon : c.IsOn)
    (next : Body → Cursor → Except Failure Program) :
    c.readLeft room (fun cx tokens => cx.finish tokens >>= fun _ =>
        readBelow levels before c.ahead (.heading heading colon)) =
      andThen (blockBody room block colon c) fun inner c' =>
        if c'.isOnLine then next inner c'
        else readRest (heading.complete inner :: before) levels c'.ahead := by
  rw [blockBody, andThen_bind, readBelow_heading]
  refine (readLeft_finish hon fun a =>
    if levels.length < nestingLimit then readRest [] (⟨heading, colon, before⟩ :: levels) a
    else .error (.unplaced .nestedTooDeeplyToRead)).trans ?_
  refine (ends_endLine hc hon).andThen_congr ?_
  rintro _ c₁ hc₁ ⟨-, hbehind, -⟩
  rw [andThen_bind, hagrees c₁ heading colon before levels hc₁ hbehind hlevels]
  refine (hblock c₁ hc₁ hbehind).andThen_congr ?_
  rintro statements c₂ hc₂ ⟨hbehind₂, -⟩
  rw [closeAndRead]
  split
  · rfl
  · exact (if_neg (Bool.eq_false_iff.mp hbehind₂.isOnLine)).symm

/-- An inline body is read on the line of its heading. -/
private theorem andThen_inlineBody (hc : c.IsTrue) (hon : c.IsOn)
    (next : Body → LineContext → List Token → Except Failure Program)
    (below : Body → Cursor → Except Failure Program) :
    c.readLeft room (fun cx tokens => Statement.readSimple cx tokens >>= fun result =>
        next (.mk (some colon.row) [result.1]) cx result.2) =
      andThen (inlineBody room colon c) fun inner c' =>
        if c'.isOnLine then c'.readLeft room (next inner) else below inner c' := by
  rw [inlineBody, andThen_bind]
  refine (readLeft_bind Statement.readSimple
    (fun statement => next (.mk (some colon.row) [statement])) c).trans ?_
  refine (ends_onLine shortens_simple hc hon).andThen_congr ?_
  rintro statement c₁ hc₁ ⟨hstays, -⟩
  exact (if_pos hstays.isOn.isOnLine).symm

/-- Reads what comes behind a colon, line by line: the lines of a block, or an inline body and what
follows it. -/
def readBehindColon (heading : Heading) (levels : List Level) (before : List Statement) (a : Ahead)
    (next : Body → LineContext → List Token → Except Failure Program) (colon : Token)
    (cx : LineContext) (tokens : List Token) : Except Failure Program :=
  if (cx.current tokens).kind = .endOfLine then
    cx.finish tokens >>= fun _ => readBelow levels before a (.heading heading colon)
  else Statement.readSimple cx tokens >>= fun result =>
    next (.mk (some colon.row) [result.1]) cx result.2

/-- The token behind the colon tells whether the body is a block. -/
private theorem andThen_behindColon (hblock : KeepsBelow level block)
    (hagrees : BlockAgrees level block)
    (hlevels : levels.length = level) (hc : c.IsTrue) (hon : c.IsOn)
    (next : Body → LineContext → List Token → Except Failure Program) :
    c.readLeft room (readBehindColon heading levels before c.ahead next colon) =
      andThen ((do
        if (← current).kind = .endOfLine then blockBody room block colon
        else inlineBody room colon : Reading Body) c) fun inner c' =>
        if c'.isOnLine then c'.readLeft room (next inner)
        else readRest (heading.complete inner :: before) levels c'.ahead := by
  obtain ⟨line, hline, hrow⟩ := hon
  rw [bind_of_eq_ok _ (current_eq hline)]
  by_cases hend : line.current.kind = .endOfLine
  · have hleft : c.readLeft room (readBehindColon heading levels before c.ahead next colon) =
        c.readLeft room fun cx tokens =>
          cx.finish tokens >>= fun _ =>
            readBelow levels before c.ahead (.heading heading colon) := by
      rw [Cursor.readLeft, Cursor.readLeft, hline]
      exact if_pos hend
    rw [if_pos hend, hleft]
    exact andThen_blockBody hblock hagrees hlevels hc ⟨line, hline, hrow⟩ _
  · have hleft : c.readLeft room (readBehindColon heading levels before c.ahead next colon) =
        c.readLeft room fun cx tokens => Statement.readSimple cx tokens >>= fun result =>
          next (.mk (some colon.row) [result.1]) cx result.2 := by
      rw [Cursor.readLeft, Cursor.readLeft, hline]
      exact if_neg hend
    rw [if_neg hend, hleft]
    exact andThen_inlineBody hc ⟨line, hline, hrow⟩ next _

/-- A body is read as line by line, where `goOn` is what follows behind the colon: the heading of
a block, or whatever comes behind an inline body. -/
private theorem andThen_body (heading : Heading)
    (goOn : LineContext → Token × Option (Body × List Token) → Except Failure LineContent)
    (hblock : KeepsBelow level block) (hagrees : BlockAgrees level block)
    (hlevels : levels.length = level) (hc : c.IsTrue) (hon : c.IsOn)
    (hheading : ∀ cx colon, goOn cx (colon, none) = .ok (.heading heading colon))
    (hinline : ∀ cx colon inner, goOn cx (colon, some inner) = goOn cx (cx.stop, some inner)) :
    c.readLeft room (fun cx tokens =>
        Body.readInline cx tokens >>= goOn cx >>= readBelow levels before c.ahead) =
      andThen (body room block c) fun inner c' =>
        if c'.isOnLine then c'.readLeft room fun cx tokens =>
          goOn cx (cx.stop, some (inner, tokens)) >>= readBelow levels before c.ahead
        else readRest (heading.complete inner :: before) levels c'.ahead := by
  have hread : ∀ cx tokens,
      Body.readInline cx tokens >>= goOn cx >>= readBelow levels before c.ahead =
        cx.expect .colon tokens >>= fun result =>
          readBehindColon heading levels before c.ahead (fun inner cx tokens =>
            goOn cx (cx.stop, some (inner, tokens)) >>= readBelow levels before c.ahead)
            result.1 cx result.2 := by
    intro cx tokens
    rw [bind_assoc, Body.readInline_bind]
    refine congrArg _ (funext fun result => ?_)
    simp only [hheading, hinline cx result.1]
    rfl
  simp only [hread]
  rw [readLeft_bind (fun cx => cx.expect .colon), body, andThen_bind]
  refine (ends_onLine (shortens_expect .colon) hc hon).andThen_congr ?_
  rintro colon c₁ hc₁ ⟨hstays, -⟩
  rw [← hstays.ahead_eq]
  exact andThen_behindColon hblock hagrees hlevels hc₁ hstays.isOn _

/-- Behind the last body of a statement the line is left. -/
private theorem andThen_leaveLine {c' : Cursor} {isInline : Bool}
    (h : c.BehindBody level c' isInline)
    (inner : Body) :
    (if c'.isOnLine then c'.readLeft room fun cx tokens =>
        heading.goOn cx (cx.stop, some (inner, tokens)) >>= readBelow levels before c.ahead
      else readRest (heading.complete inner :: before) levels c'.ahead) =
      andThen (leaveLine room c') fun _ c'' =>
        readRest (heading.complete inner :: before) levels c''.ahead := by
  change _ = andThen ((if c'.isOnLine then endLine room else pure ()) c') _
  cases h with
  | inline hstays =>
    rw [hstays.isOn.isOnLine, if_pos rfl, if_pos rfl, ← hstays.ahead_eq,
      ← readLeft_finish hstays.isOn (readRest (heading.complete inner :: before) levels)]
    refine congrArg (c'.readLeft room ·) (funext fun cx => funext fun tokens => ?_)
    rw [Heading.goOn, bind_assoc]
    rfl
  | block hbehind =>
    rw [hbehind.isOnLine, if_neg Bool.false_ne_true, if_neg Bool.false_ne_true]
    rfl

/-- The last body of a statement is read, and its line is left. -/
private theorem andThen_lastBody (hblock : KeepsBelow level block)
    (hagrees : BlockAgrees level block)
    (hlevels : levels.length = level) (hc : c.IsTrue) (hon : c.IsOn) :
    c.readLeft room (fun cx tokens =>
        heading.readBody cx tokens >>= readBelow levels before c.ahead) =
      andThen (body room block c) fun inner c' => andThen (leaveLine room c') fun _ c'' =>
        readRest (heading.complete inner :: before) levels c''.ahead := by
  simp only [Heading.readBody_eq_bind]
  rw [andThen_body heading heading.goOn hblock hagrees hlevels hc hon (fun _ _ => rfl)
    fun _ _ _ => rfl]
  refine (ends_body hblock hc hon).andThen_congr ?_
  rintro inner c' hc' ⟨-, last, -, hbehind⟩
  exact andThen_leaveLine hbehind inner

/-! ### Branches -/

/-- What a branch comes to when its clauses go on, and when they do not. -/
def afterClauses (room : Nat) (levels : List Level) (before : List Statement) (line : Option Int)
    (clauses : Clauses) : Option Kind → Cursor → Except Failure Program
  | none, c => readRest (.branch line clauses :: before) levels c.ahead
  | some _, c => c.readLeft room fun cx tokens =>
    Clauses.readFrom cx line clauses tokens >>= readBelow levels before c.ahead

variable {line : Option Int} {clauses earlier : Clauses} {condition : Condition}

private theorem keyword_of_isOn {scanned : TokenLine} {row : Nat} (hrow : scanned.IsOn row)
    (h : scanned.IsAtClause) : scanned.tokens ≠ [] ∧
      ∀ token ∈ scanned.tokens.head?, token.kind = .elifWord ∨ token.kind = .elseWord := by
  obtain ⟨token, rest, htokens, rfl⟩ := hrow.eq_cons h
  rw [htokens]
  refine ⟨List.cons_ne_nil _ _, ?_⟩
  rintro _ ⟨⟩
  exact h

/-- Behind an inline body that no further clause follows, the line ends. -/
private theorem goOn_inline_end {cx : LineContext} {colon : Token} {inner : Body}
    {scanned : TokenLine}
    (h : ¬ scanned.IsAtClause) :
    Clauses.goOn cx line earlier condition (colon, some (inner, scanned.tokens)) =
      cx.finish scanned.tokens >>= fun _ =>
        .ok (.statement (.branch line (earlier.append (.guarded condition inner .done)))) := by
  rw [TokenLine.IsAtClause, TokenLine.current] at h
  cases htokens : scanned.tokens with
  | nil => rfl
  | cons token tail =>
    rw [htokens, List.headD_cons] at h
    simp only [Clauses.goOn]
    split
    · next hkind => exact absurd (.inl hkind) h
    · next hkind => exact absurd (.inr hkind) h
    · cases cx.finish (token :: tail) <;> rfl

/-- Looking for a further clause on the next line. -/
private theorem andThen_clauseBelow (hlevels : levels.length = level)
    (hroom : level + room = nestingLimit)
    (hopen : clauses.isOpen = true) (c : Cursor) :
    readRest (.branch line clauses :: before) levels c.ahead =
      andThen (clauseBelow level c) (afterClauses room levels before line clauses) := by
  change _ = andThen
    (clauseAt level c.ahead.skipBlank.lines { c with ahead := c.ahead.skipBlank }) _
  rw [← readRest_skipBlank]
  cases hlines : c.ahead.skipBlank.lines with
  | nil => rfl
  | cons next rest =>
    obtain ⟨hnext, -⟩ := Ahead.first?_of_skipBlank hlines
    rw [clauseAt]
    split
    · next hindent =>
      cases hscan : TokenLine.scan c.ahead.skipBlank.row next.toList with
      | error failure =>
        rw [readRest_at _ hlines hnext (hindent.trans hlevels.symm), hscan,
          bind_of_eq_error _ (scan_of_eq_error hlines hscan)]
        rfl
      | ok scanned =>
        rw [bind_of_eq_ok _ (scan_of_eq_ok hlines hscan)]
        by_cases hkind : scanned.IsAtClause
        · -- the line goes on with the branch
          obtain ⟨hne, hkeyword⟩ := keyword_of_isOn (TokenLine.isOn_of_scan hscan) hkind
          have hroom' : nestingLimit - levels.length = room := by omega
          rw [clauseWord_eq_some rfl hkind, readRest_at _ hlines hnext (hindent.trans hlevels.symm),
            hscan, ok_bind, Clauses.read_further hopen before hne hkeyword, bind_assoc, hroom']
          rfl
        · rw [clauseWord_eq_none rfl hkind]
          rfl
    · rfl

/-- Looking for a further clause behind an inline body, or on the next line. -/
private theorem andThen_nextClause {c' : Cursor} {isInline : Bool} (hlevels : levels.length = level)
    (hroom : level + room = nestingLimit) (hopen : earlier.isOpen = true) (hc : c'.IsTrue)
    (h : c.BehindBody level c' isInline) (inner : Body) :
    (if c'.isOnLine then c'.readLeft room fun cx tokens =>
        Clauses.goOn cx line earlier condition (cx.stop, some (inner, tokens)) >>=
          readBelow levels before c.ahead
      else readRest ((Heading.guarded line earlier condition).complete inner :: before) levels
        c'.ahead) =
      andThen (nextClause room level c') (afterClauses room levels before line
        (earlier.append (.guarded condition inner .done))) := by
  change _ = andThen ((if c'.isOnLine then _ else _ : Reading (Option Kind)) c') _
  have hopen' := Clauses.isOpen_append_guarded condition inner hopen
  cases h with
  | inline hstays =>
    obtain ⟨scanned, hscanned, hrow⟩ := hstays.isOn
    rw [hstays.isOn.isOnLine, if_pos rfl, if_pos rfl]
    by_cases hkind : scanned.IsAtClause
    · -- the line goes on with the branch
      have hgoesOn : c'.readLeft room (fun cx tokens =>
          Clauses.goOn cx line earlier condition (cx.stop, some (inner, tokens)) >>=
            readBelow levels before c.ahead) =
          afterClauses room levels before line (earlier.append (.guarded condition inner .done))
            (some scanned.current.kind) c' := by
        rw [afterClauses, Cursor.readLeft, Cursor.readLeft, hscanned, hstays.ahead_eq]
        dsimp only
        rw [Clauses.goOn_inline (keyword_of_isOn hrow hkind).2]
      rw [bind_of_eq_ok _ (clauseWord_eq_some hscanned hkind)]
      exact hgoesOn
    · -- the line ends
      have hends : c'.readLeft room (fun cx tokens =>
          Clauses.goOn cx line earlier condition (cx.stop, some (inner, tokens)) >>=
            readBelow levels before c.ahead) =
          c'.readLeft room fun cx tokens => cx.finish tokens >>= fun _ =>
            readRest (.branch line (earlier.append (.guarded condition inner .done)) :: before)
              levels c'.ahead.next := by
        rw [Cursor.readLeft, Cursor.readLeft, hscanned, hstays.ahead_eq]
        dsimp only
        rw [goOn_inline_end hkind, bind_assoc]
        rfl
      rw [bind_of_eq_ok _ (clauseWord_eq_none hscanned hkind), hends, readLeft_finish hstays.isOn,
        andThen_bind]
      refine (ends_endLine hc hstays.isOn).andThen_congr ?_
      rintro _ c₁ hc₁ -
      exact andThen_clauseBelow hlevels hroom hopen' c₁
  | block hbehind =>
    rw [hbehind.isOnLine, if_neg Bool.false_ne_true, if_neg Bool.false_ne_true]
    exact andThen_clauseBelow hlevels hroom hopen' c'

/-- A further clause is read from behind its keyword. -/
private theorem afterClauses_some {kind : Kind} (h : c.IsAtClause kind) (hon : c.IsOn) :
    afterClauses room levels before line clauses (some kind) c =
      andThen (expect room kind c) fun _ c' => c'.readLeft room fun cx tokens =>
        (if kind = .elseWord then (Heading.otherwise line clauses).readBody cx tokens
          else Clauses.read cx line clauses tokens) >>= readBelow levels before c.ahead := by
  obtain ⟨scanned, hscanned, hclause, hkind⟩ := h
  obtain ⟨scanned', hscanned', hrow⟩ := hon
  cases hscanned.symm.trans hscanned'
  rw [← readLeft_tail hscanned hkind, afterClauses, Cursor.readLeft, Cursor.readLeft, hscanned]
  dsimp only
  obtain ⟨token, rest, htokens, rfl⟩ := hrow.eq_cons hclause
  rw [htokens, Clauses.readFrom, hkind, List.tail_cons]

/-- One round of a branch. -/
private theorem andThen_clause (hblock : KeepsBelow level block) (hagrees : BlockAgrees level block)
    (hlevels : levels.length = level) (hroom : level + room = nestingLimit) (hc : c.IsTrue)
    {behind : Ahead} (h : InBranch level behind earlier c) :
    c.readLeft room (fun cx tokens =>
        Clauses.read cx line earlier tokens >>= readBelow levels before c.ahead) =
      andThen (clause room level block line earlier c) fun result c' => result.elim
        (fun earlier' => c'.readLeft room fun cx tokens =>
          Clauses.read cx line earlier' tokens >>= readBelow levels before c'.ahead)
        fun s => readRest (s :: before) levels c'.ahead := by
  have hread : ∀ cx tokens,
      Clauses.read cx line earlier tokens >>= readBelow levels before c.ahead =
        Condition.read cx tokens >>= fun result =>
          Body.readInline cx result.2 >>= Clauses.goOn cx line earlier result.1 >>=
            readBelow levels before c.ahead := by
    intro cx tokens
    rw [Clauses.read_eq_bind, bind_assoc]
  simp only [hread]
  rw [readLeft_bind Condition.read (fun condition cx tokens =>
    Body.readInline cx tokens >>= Clauses.goOn cx line earlier condition >>=
      readBelow levels before c.ahead), clause, andThen_bind]
  refine (ends_onLine shortens_condition hc h.isOn).andThen_congr ?_
  rintro condition c₁ hc₁ ⟨hstays, -⟩
  rw [← hstays.ahead_eq, andThen_bind, andThen_body (.guarded line earlier condition)
    (fun cx => Clauses.goOn cx line earlier condition) hblock hagrees hlevels hc₁ hstays.isOn
    (fun _ _ => rfl) fun _ _ _ => rfl]
  refine (ends_body hblock hc₁ hstays.isOn).andThen_congr ?_
  rintro inner c₂ hc₂ ⟨-, last, -, hbehind⟩
  rw [andThen_bind, andThen_nextClause hlevels hroom h.isOpen hc₂ hbehind inner]
  refine (ends_nextClause hc₂ hbehind).andThen_congr ?_
  rintro kind? c₃ hc₃ ⟨-, hfinds, -⟩
  cases kind? with
  | none => rfl
  | some kind =>
    obtain ⟨hclause, hon⟩ := hfinds.isAtClause
    rw [afterClauses_some hclause hon]
    rcases hclause.kind_eq with rfl | rfl
    · -- a further guarded clause
      change _ = andThen ((expect room .elifWord >>= _) c₃) _
      rw [andThen_bind]
      refine (ends_onLine (shortens_expect .elifWord) hc₃ hon).andThen_congr ?_
      rintro _ c₄ - ⟨hstays₄, -⟩
      rw [← hstays₄.ahead_eq]
      rfl
    · -- the last clause
      change _ = andThen ((expect room .elseWord >>= _) c₃) _
      rw [andThen_bind]
      refine (ends_onLine (shortens_expect .elseWord) hc₃ hon).andThen_congr ?_
      rintro _ c₄ hc₄ ⟨hstays₄, -⟩
      rw [← hstays₄.ahead_eq, andThen_bind]
      simp only [if_true]
      rw [andThen_lastBody hblock hagrees hlevels hc₄ hstays₄.isOn]
      refine congrArg (andThen _) (funext fun last => funext fun c₅ => ?_)
      rw [andThen_bind]
      rfl

/-! ### Statements -/

private theorem andThen_branchStatement (hblock : KeepsBelow level block)
    (hagrees : BlockAgrees level block) (hlevels : levels.length = level)
    (hroom : level + room = nestingLimit) (hc : c.IsTrue) (hon : c.IsOn) :
    andThen (expect room .ifWord c) (fun _ c' => c'.readLeft room fun cx tokens =>
        Clauses.read cx line .done tokens >>= readBelow levels before c.ahead) =
      andThen (branchStatement room level block line c) fun s c' =>
        readRest (s :: before) levels c'.ahead := by
  rw [branchStatement, andThen_bind]
  refine (ends_onLine (shortens_expect .ifWord) hc hon).andThen_congr ?_
  rintro _ c₁ hc₁ ⟨hstays, -⟩
  rw [← hstays.ahead_eq]
  refine andThen_loop (InBranch level c₁.ahead.next)
    (fun earlier c' => c'.readLeft room fun cx tokens =>
      Clauses.read cx line earlier tokens >>= readBelow levels before c'.ahead)
    (fun _ _ => ends_clause hblock) (fun earlier c' hc' h => ?_) _ hc₁
    ⟨rfl, hstays.isOn, .refl _ _⟩
  exact andThen_clause hblock hagrees hlevels hroom hc' h

private theorem andThen_loopStatement (hblock : KeepsBelow level block)
    (hagrees : BlockAgrees level block)
    (hlevels : levels.length = level) {keyword : Kind}
    {head : LineContext → List Token → Except Failure (Heading × List Token)}
    (hhead : Shortens head) (hc : c.IsTrue) (hon : c.IsOn) :
    andThen (expect room keyword c) (fun _ c' => c'.readLeft room fun cx tokens =>
        head cx tokens >>= fun result =>
          result.1.readBody cx result.2 >>= readBelow levels before c.ahead) =
      andThen (loopStatement room block keyword head c) fun s c' =>
        readRest (s :: before) levels c'.ahead := by
  rw [loopStatement, andThen_bind]
  refine (ends_onLine (shortens_expect keyword) hc hon).andThen_congr ?_
  rintro _ c₁ hc₁ ⟨hstays₁, -⟩
  rw [readLeft_bind head (fun heading cx tokens =>
    heading.readBody cx tokens >>= readBelow levels before c.ahead), andThen_bind]
  refine (ends_onLine hhead hc₁ hstays₁.isOn).andThen_congr ?_
  rintro heading c₂ hc₂ ⟨hstays₂, -⟩
  rw [← hstays₁.ahead_eq, ← hstays₂.ahead_eq, andThen_bind,
    andThen_lastBody hblock hagrees hlevels hc₂ hstays₂.isOn]
  refine congrArg (andThen _) (funext fun inner => funext fun c₃ => ?_)
  rw [andThen_bind]
  rfl

private theorem andThen_simpleStatement (hc : c.IsTrue) (hon : c.IsOn) :
    c.readLeft room (fun cx tokens => Statement.readSimple cx tokens >>= fun result =>
        cx.finish result.2 >>= fun _ => readRest (result.1 :: before) levels c.ahead.next) =
      andThen (simpleStatement room c) fun s c' => readRest (s :: before) levels c'.ahead := by
  rw [readLeft_bind Statement.readSimple (fun simple cx tokens =>
    cx.finish tokens >>= fun _ => readRest (simple :: before) levels c.ahead.next),
    simpleStatement, andThen_bind]
  refine (ends_onLine shortens_simple hc hon).andThen_congr ?_
  rintro simple c₁ hc₁ ⟨hstays, -⟩
  rw [← hstays.ahead_eq, readLeft_finish hstays.isOn (readRest (simple :: before) levels),
    andThen_bind]
  rfl

/-- The content of a line is read from its first token on. -/
private theorem andThen_statementFrom (hblock : KeepsBelow level block)
    (hagrees : BlockAgrees level block)
    (hlevels : levels.length = level) (hroom : level + room = nestingLimit) (hc : c.IsTrue)
    (hon : c.IsOn) {scanned : TokenLine} (hscanned : c.scanned = some scanned) {first : Token}
    (hfirst : scanned.current = first)
    (hstray : first.kind = .elifWord ∨ first.kind = .elseWord → openBranch? before = none) :
    (LineContent.read ⟨scanned.stop, room⟩ before scanned.tokens >>= fun result =>
        readBelow levels result.2 c.ahead result.1) =
      andThen (statementFrom room level block first c) fun s c' =>
        readRest (s :: before) levels c'.ahead := by
  rw [LineContent.read, statementFrom]
  have hcurrent : scanned.tokens.headD scanned.stop = first := hfirst
  simp only [LineContext.current, hcurrent]
  cases hkind : first.kind with
  | ifWord =>
    refine Eq.trans ?_ (andThen_branchStatement hblock hagrees hlevels hroom hc hon)
    rw [← readLeft_tail hscanned (hfirst ▸ hkind), Cursor.readLeft, hscanned]
    simp only [bind_assoc]
    rfl
  | whileWord =>
    refine Eq.trans ?_ (andThen_loopStatement hblock hagrees hlevels (shortens_readWhile _) hc hon)
    rw [← readLeft_tail hscanned (hfirst ▸ hkind), Cursor.readLeft, hscanned]
    simp only [bind_assoc, Heading.readWhile]
    rfl
  | forWord =>
    refine Eq.trans ?_ (andThen_loopStatement hblock hagrees hlevels (shortens_readFor _) hc hon)
    rw [← readLeft_tail hscanned (hfirst ▸ hkind), Cursor.readLeft, hscanned]
    simp only [bind_assoc, Heading.readFor]
    rfl
  | elifWord =>
    dsimp only
    rw [hstray (.inl hkind)]
    rfl
  | elseWord =>
    dsimp only
    rw [hstray (.inr hkind)]
    rfl
  | _ =>
    refine Eq.trans ?_ (andThen_simpleStatement hc hon)
    rw [Cursor.readLeft, hscanned]
    simp only [bind_assoc]
    rfl

/-- A reader of statements **agrees** with reading line by line when it gives the statement that
begins on a line at the level, and the lines behind it are left to be read. -/
def StatementAgrees (level : Nat) (statement : Reading Statement) : Prop :=
  ∀ (c : Cursor) (before : List Statement) (levels : List Level) (line : String)
    (rest : List String), c.IsTrue → levels.length = level → c.ahead.lines = line :: rest →
    Text.isBlankText line.toList = false → Text.indentLevel line.toList = level →
    (∀ s ∈ before.head?, s.isOpen = true → ¬ BeginsClause line) →
    readRest before levels c.ahead =
      andThen (statement c) fun s c' => readRest (s :: before) levels c'.ahead

private theorem openBranch?_eq_none (h : ∀ s ∈ before.head?, s.isOpen = false) :
    openBranch? before = none := by
  refine Option.eq_none_iff_forall_ne_some.mpr ?_
  rintro ⟨line, clauses, rest⟩ hopen
  obtain ⟨rfl, hclauses⟩ := openBranch?_eq_some_iff.mp hopen
  cases (h _ rfl).symm.trans hclauses

private theorem statementAgrees_statementWith (hblock : KeepsBelow level block)
    (hagrees : BlockAgrees level block) (hroom : level + room = nestingLimit) :
    StatementAgrees level (statementWith room level block) := by
  intro c before levels line rest hc hlevels hlines hline hindent hbefore
  rw [readRest_at before hlines hline (hindent.trans hlevels.symm), statementWith, andThen_bind]
  cases hscan : TokenLine.scan c.ahead.row line.toList with
  | error failure =>
    rw [scan_of_eq_error hlines hscan]
    rfl
  | ok scanned =>
    have hroom' : nestingLimit - levels.length = room := by omega
    rw [scan_of_eq_ok hlines hscan, ok_bind, hroom']
    change _ = andThen ((current >>= statementFrom room level block) _) _
    rw [bind_of_eq_ok _ (current_eq rfl)]
    refine andThen_statementFrom (c := { c with scanned := some scanned }) hblock hagrees hlevels
      hroom hc ⟨scanned, rfl, TokenLine.isOn_of_scan hscan⟩ rfl rfl fun hkind => ?_
    have hbegins : BeginsClause line := (beginsClause_iff hline hscan).mpr hkind
    refine openBranch?_eq_none fun s hs => Bool.eq_false_iff.mpr fun hopen => ?_
    exact hbefore s hs hopen hbegins

/-! ### Blocks and programs -/

/-- A round of a block is read as line by line. -/
private theorem andThen_item {statement : Reading Statement}
    (hagrees : StatementAgrees level statement)
    (hlevels : levels.length = level) {next : List Statement → Ahead → Except Failure Program}
    (hnext : ∀ before a, (∀ line ∈ a.lines.head?, Text.isBlankText line.toList = false ∧
      Text.indentLevel line.toList < level) → readRest before levels a = next before a)
    {start : Ahead} (hc : c.IsTrue) (h : InBlock level start before c) :
    readRest before levels c.ahead =
      andThen (item level statement before c) fun result c' =>
        result.elim (readRest · levels c'.ahead) (next · c'.ahead) := by
  change _ = andThen (itemAt level statement before c.ahead.skipBlank.lines
    { c with ahead := c.ahead.skipBlank }) _
  rw [← readRest_skipBlank]
  cases hlines : c.ahead.skipBlank.lines with
  | nil =>
    refine hnext before c.ahead.skipBlank ?_
    rw [hlines]
    nofun
  | cons line rest =>
    obtain ⟨hline, hfirst⟩ := Ahead.first?_of_skipBlank hlines
    rw [itemAt]
    split
    · next hless =>
      refine hnext before c.ahead.skipBlank ?_
      rw [hlines]
      rintro _ ⟨⟩
      exact ⟨hline, hless⟩
    · split
      · next hdeep =>
        rw [readRest_cons before levels hlines hline, Progress.take, if_pos (hlevels ▸ hdeep),
          hlevels]
        rfl
      · next hle hge =>
        have hindent := Nat.le_antisymm (Nat.le_of_not_lt hge) (Nat.le_of_not_lt hle)
        rw [andThen_bind]
        refine hagrees { c with ahead := c.ahead.skipBlank } before levels line rest hc hlevels
          hlines hline hindent fun s hs hopen => ?_
        exact h.ends s hs hopen line hfirst hindent

/-- The statements of a block are read as line by line, up to what follows behind the block. -/
private theorem andThen_items (levels : List Level)
    (next : List Statement → Ahead → Except Failure Program)
    {statement : Reading Statement} (hstatement : KeepsToOwn level statement)
    (hagrees : StatementAgrees level statement) (hlevels : levels.length = level)
    (hnext : ∀ before a, (∀ line ∈ a.lines.head?, Text.isBlankText line.toList = false ∧
      Text.indentLevel line.toList < level) → readRest before levels a = next before a)
    (hc : c.IsTrue) (hbehind : c.IsBehind) :
    readRest [] levels c.ahead =
      andThen (loop (item level statement) [] c) fun before c' => next before c'.ahead :=
  andThen_loop (InBlock level c.ahead) (fun before c' => readRest before levels c'.ahead)
    (fun _ _ => ends_item hstatement)
    (fun _ _ hc' h => andThen_item hagrees hlevels hnext hc' h) _ hc (inBlock_nil hbehind)

end

private theorem blockAgrees_block {room level : Nat} (hroom : level + room = nestingLimit) :
    BlockAgrees level (block room level) := by
  intro c heading colon before levels hc hbehind hlevels
  induction room generalizing level c heading colon before levels with
  | zero =>
    rw [if_neg (by omega)]
    rfl
  | succ room ih =>
    have hagrees : StatementAgrees (level + 1) (statement room (level + 1)) :=
      statementAgrees_statementWith (keepsBelow_block room (level + 1))
        (fun c heading colon before levels hc hbehind hlevels =>
          ih (by omega) c heading colon before levels hc hbehind hlevels) (by omega)
    rw [if_pos (by omega), block, statements_eq]
    refine andThen_items (⟨heading, colon, before⟩ :: levels)
      (closeAndRead ⟨heading, colon, before⟩ levels) (keepsToOwn_statement room (level + 1)) hagrees
      (congrArg Nat.succ hlevels)
      (fun statements a ha => ?_) hc hbehind
    exact readRest_closes statements _ fun line hline =>
      ⟨(ha line hline).1, hlevels ▸ Nat.le_of_lt_succ (ha line hline).2⟩

/-- **Reading statement by statement agrees with reading line by line**: where there is room for
the blocks that the nesting limit allows, a statement is read as from its lines. -/
theorem statementAgrees_statement {room level : Nat} (hroom : level + room = nestingLimit) :
    StatementAgrees level (statement room level) :=
  statementAgrees_statementWith (keepsBelow_block room level) (blockAgrees_block hroom) hroom

/-- **Programs are read statement by statement** as they are line by line, failures included. -/
theorem ofLines_eq_program (lines : List String) :
    Program.ofLines lines = andThen (program (Cursor.ofLines lines 0)) fun p _ => .ok p := by
  rw [Program.ofLines_eq, program, statements_eq, andThen_bind]
  refine andThen_items (c := Cursor.ofLines lines 0) [] (fun before _ => .ok ⟨before.reverse⟩)
    (keepsToOwn_statement nestingLimit 0)
    (statementAgrees_statement (Nat.zero_add _)) rfl (fun before a ha => ?_)
    (List.forall_mem_nil _) nofun
  have hend : a.lines = [] := by
    cases hlines : a.lines with
    | nil => rfl
    | cons line rest =>
      rw [hlines] at ha
      exact absurd (ha line rfl).2 (Nat.not_lt_zero _)
  rw [readRest, hend]
  rfl

end Reading

end Offside

import Offside.Proofs.Source.Blame
import Offside.Proofs.Source.Line
import Offside.Proofs.Tree.Placed

/-!
# The rows of what is read

Reading a line gives the nodes that it makes the rows of the tokens that they are made from, which
is one row for all of them: the words that the line adds to a program are all placed there
(`LineContent.placed_of_read`). What the line goes on with, the clauses of a branch that were read
before, stays where it is placed.
-/

namespace Offside

/-! ### The placed words of headings -/

namespace Heading

/-- The line of the statement that a heading becomes. -/
def line : Heading → Option Int
  | whileLoop line _ | forLoop line .. | guarded line .. | otherwise line _ => line

/-- The placed words of the head of the last clause, or of the loop, up to a colon on the line
`below`. -/
def ownPlaced (below : Option Int) : Heading → List (Word × Option Int)
  | whileLoop line condition =>
    (.fixed .whileWord, line) :: (condition.placed ++ [(.fixed .colon, below)])
  | forLoop line name first last =>
    (.fixed .forWord, line) :: (.name name, line) :: (.fixed .inWord, line) ::
      (first.placed ++ (.fixed .range, line) :: (last.placed ++ [(.fixed .colon, below)]))
  | guarded line earlier condition =>
    (if earlier.isDone then (.fixed .ifWord, line) else (.fixed .elifWord, below)) ::
      (condition.placed ++ [(.fixed .colon, below)])
  | otherwise .. => [(.fixed .elseWord, below), (.fixed .colon, below)]

/-- The placed words of a heading, up to a colon on the line `below`. -/
def placed (below : Option Int) (heading : Heading) : List (Word × Option Int) :=
  heading.earlier.placed heading.line true ++ heading.ownPlaced below

/-- There is room for a clause behind the earlier ones. -/
theorem isOpen_earlier {heading : Heading} (h : heading.isWellFormed = true) :
    heading.earlier.isOpen = true := by
  cases heading with
  | whileLoop | forLoop => rfl
  | guarded line clauses condition =>
    simp only [isWellFormed, Bool.and_eq_true] at h
    exact h.1.1
  | otherwise line clauses =>
    simp only [isWellFormed, Bool.and_eq_true] at h
    exact h.1.2

/-- A heading that gets a body stays where it is placed. -/
theorem placed_complete {heading : Heading} (h : heading.earlier.isOpen = true) (body : Body) :
    (heading.complete body).placed = heading.placed body.line ++ body.placed := by
  cases heading with
  | whileLoop line condition =>
    simp [complete, placed, ownPlaced, earlier, Statement.placed, Clauses.placed]
  | forLoop line name first last =>
    simp [complete, placed, ownPlaced, earlier, Statement.placed, Clauses.placed]
  | guarded line clauses condition =>
    have hopen : clauses.isOpen = true := h
    rw [complete, Statement.placed, Clauses.placed_append hopen, Bool.true_and, placed,
      List.append_assoc]
    simp [ownPlaced, earlier, Clauses.placed, Heading.line]
  | otherwise line clauses =>
    have hopen : clauses.isOpen = true := h
    rw [complete, Statement.placed, Clauses.placed_append hopen, placed, List.append_assoc]
    rfl

end Heading

/-! ### Words on a row -/

/-- All placed words stand **on a row**. -/
def Word.AreOn (row : Nat) (placed : List (Word × Option Int)) : Prop :=
  ∀ entry ∈ placed, entry.2 = some (row : Int)

/-- The tokens of a line and the one that ends it all stand on a row. -/
structure LineContext.IsOn (row : Nat) (line : List Token) (cx : LineContext) : Prop where
  tokens : ∀ token ∈ line, token.row = row
  stop : cx.stop ∈ line

namespace Word.AreOn

variable {row : Nat} {front back : List (Word × Option Int)}

theorem nil : AreOn row [] :=
  List.forall_mem_nil _

theorem cons {word : Word} {placed : List (Word × Option Int)} (h : AreOn row placed) :
    AreOn row ((word, some (row : Int)) :: placed) :=
  List.forall_mem_cons.mpr ⟨rfl, h⟩

theorem append (hfront : AreOn row front) (hback : AreOn row back) :
    AreOn row (front ++ back) :=
  List.forall_mem_append.mpr ⟨hfront, hback⟩

/-- Where there is no expression, none stands elsewhere. -/
theorem none : ∀ value ∈ (Option.none : Option Expr), AreOn row value.placed := by
  rintro _ ⟨⟩

theorem placedOn (words : List Word) :
    AreOn row (Word.placedOn (some (row : Int)) words) := by
  intro entry hentry
  obtain ⟨word, -, rfl⟩ := List.mem_map.mp hentry
  rfl

end Word.AreOn

open Word (AreOn)

variable {row : Nat} {line tokens rest : List Token} {cx : LineContext}

/-- The token that comes next stands on the row. -/
private theorem LineContext.IsOn.row_current (hcx : cx.IsOn row line) (h : tokens ⊆ line) :
    (cx.current tokens).row = row :=
  hcx.tokens _ (current_mem hcx.stop h)

/-! ### Expressions and conditions -/

namespace Frame

/-- Whether a frame was begun on a row, by its mark and by the operand that it holds. -/
def IsOn (row : Nat) : Frame → Prop
  | opened begun | negate begun => begun = row
  | binary begun _ left => begun = row ∧ AreOn row left.placed

private theorem areOn_binary {op : Operator} {left right : Expr} (hleft : AreOn row left.placed)
    (hright : AreOn row right.placed) :
    AreOn row (Expr.binary (some (row : Int)) op left right).placed :=
  hleft.append ((AreOn.placedOn op.words).append hright)

/-- Operators are completed on the row. -/
private theorem areOn_closeOperators (op : Operator) {frames : List Frame} {value : Expr}
    (hframes : ∀ frame ∈ frames, frame.IsOn row) (hvalue : AreOn row value.placed) :
    (∀ frame ∈ (closeOperators op frames value).1, frame.IsOn row) ∧
      AreOn row (closeOperators op frames value).2.placed := by
  fun_induction closeOperators op frames value with
  | case1 value begun pending left rest htight ih =>
    obtain ⟨⟨rfl, hleft⟩, hrest⟩ := List.forall_mem_cons.mp hframes
    exact ih hrest (areOn_binary hleft hvalue)
  | case2 => exact ⟨hframes, hvalue⟩
  | case3 => exact ⟨hframes, hvalue⟩

/-- An expression is completed on the row. -/
private theorem areOn_closeExpression {frames : List Frame} {value : Expr}
    (hframes : ∀ frame ∈ frames, frame.IsOn row) (hvalue : AreOn row value.placed) :
    AreOn row (closeExpression frames value).1.placed ∧
      ∀ outer ∈ (closeExpression frames value).2,
        outer.1 = row ∧ ∀ frame ∈ outer.2, frame.IsOn row := by
  fun_induction closeExpression frames value with
  | case1 value =>
    refine ⟨hvalue, ?_⟩
    rintro _ ⟨⟩
  | case2 value begun rest =>
    obtain ⟨hbegun, hrest⟩ := List.forall_mem_cons.mp hframes
    refine ⟨hvalue, ?_⟩
    rintro _ ⟨⟩
    exact ⟨hbegun, hrest⟩
  | case3 value begun rest ih =>
    obtain ⟨rfl, hrest⟩ := List.forall_mem_cons.mp hframes
    exact ih hrest hvalue.cons
  | case4 value begun op left rest ih =>
    obtain ⟨⟨rfl, hleft⟩, hrest⟩ := List.forall_mem_cons.mp hframes
    exact ih hrest (areOn_binary hleft hvalue)

end Frame

/-- What is read from the tokens of a row, with frames of that row pending, is on the row. -/
private theorem Expr.areOn_of_readOn (hcx : cx.IsOn row line) {frames : List Frame}
    {done : Option Expr}
    (htokens : tokens ⊆ line) (hframes : ∀ frame ∈ frames, frame.IsOn row)
    (hdone : ∀ value ∈ done, AreOn row value.placed) {e : Expr}
    (h : readOn cx frames done tokens = .ok (e, rest)) : AreOn row e.placed := by
  fun_induction readOn cx frames done tokens with
  | case1 => cases h
  | case2 => cases h
  | case3 frames token tail hkind n hread ih =>
    -- a literal
    obtain ⟨htoken, htail⟩ := List.cons_subset.mp htokens
    refine ih htail hframes ?_ h
    rintro _ ⟨⟩
    exact hcx.tokens token htoken ▸ AreOn.nil.cons
  | case4 frames token tail hkind ih =>
    -- a name
    obtain ⟨htoken, htail⟩ := List.cons_subset.mp htokens
    refine ih htail hframes ?_ h
    rintro _ ⟨⟩
    exact hcx.tokens token htoken ▸ AreOn.nil.cons
  | case5 frames token tail hkind hroom ih | case7 frames token tail hkind hroom ih =>
    -- something begins at the token
    obtain ⟨htoken, htail⟩ := List.cons_subset.mp htokens
    exact ih htail (List.forall_mem_cons.mpr ⟨hcx.tokens token htoken, hframes⟩) AreOn.none h
  | case6 => cases h
  | case8 => cases h
  | case9 => cases h
  | case10 frames value whole hclose | case13 frames value token tail hop whole hclose =>
    -- the expression ends here
    cases h
    have hclosed := Frame.areOn_closeExpression hframes (hdone value rfl)
    rw [hclose] at hclosed
    exact hclosed.1
  | case11 => cases h
  | case12 frames value token tail op hop pending left hclose ih =>
    -- an operator behind the operand
    obtain ⟨htoken, htail⟩ := List.cons_subset.mp htokens
    have hclosed := Frame.areOn_closeOperators op hframes (hdone value rfl)
    rw [hclose] at hclosed
    refine ih htail (List.forall_mem_cons.mpr ⟨?_, hclosed.1⟩) AreOn.none h
    exact ⟨hcx.tokens token htoken, hclosed.2⟩
  | case14 frames value token tail hop inner begun outer hclose hkind ih =>
    -- a parenthesis closes
    have hclosed := Frame.areOn_closeExpression hframes (hdone value rfl)
    rw [hclose] at hclosed
    obtain ⟨rfl, houter⟩ := hclosed.2 _ rfl
    refine ih (List.cons_subset.mp htokens).2 houter ?_ h
    rintro _ ⟨⟩
    exact (hclosed.1.append AreOn.nil.cons).cons
  | case15 => cases h

/-- An expression is on the row that it is read from. -/
private theorem Expr.areOn_of_read (hcx : cx.IsOn row line) (htokens : tokens ⊆ line) {e : Expr}
    (h : read cx tokens = .ok (e, rest)) : AreOn row e.placed :=
  areOn_of_readOn hcx htokens (List.forall_mem_nil _) AreOn.none h

/-- A condition is on the row that it is read from. -/
private theorem Condition.areOn_of_read (hcx : cx.IsOn row line) (htokens : tokens ⊆ line)
    {condition : Condition} (h : read cx tokens = .ok (condition, rest)) :
    AreOn row condition.placed := by
  rw [read_eq_bind] at h
  obtain ⟨⟨left, behind⟩, hleft, h⟩ := bind_eq_ok_iff.mp h
  have hbehind : behind ⊆ line := (Expr.blames_read hcx.stop htokens).of_eq_ok hleft
  dsimp only at h
  split at h
  · cases h
  · next relation hrelation =>
    obtain ⟨⟨right, _⟩, hright, hresult⟩ := bind_eq_ok_iff.mp h
    cases hresult
    have htail := List.Subset.trans (List.tail_suffix behind).subset hbehind
    rw [placed, hcx.row_current hbehind]
    exact (Expr.areOn_of_read hcx htokens hleft).append
      ((AreOn.placedOn relation.words).append (Expr.areOn_of_read hcx htail hright))

/-! ### Simple statements and inline bodies -/

/-- A simple statement is on the row that it is read from. -/
private theorem Statement.areOn_of_readSimple (hcx : cx.IsOn row line) (htokens : tokens ⊆ line)
    {statement : Statement} (h : readSimple cx tokens = .ok (statement, rest)) :
    AreOn row statement.placed := by
  have hcurrent := hcx.row_current htokens
  have htail : tokens.tail ⊆ line := List.Subset.trans (List.tail_suffix tokens).subset htokens
  unfold readSimple at h
  dsimp only at h
  split at h
  · -- `let name := value`
    simp only [bind_eq_ok_iff, Prod.exists] at h
    obtain ⟨name, behind, hname, sign, after, hsign, value, _, hvalue, hresult⟩ := h
    cases hresult
    have hbehind := (LineContext.blames_expect hcx.stop htail .identifier).of_eq_ok hname
    have hafter := (LineContext.blames_expect hcx.stop hbehind.2 .assign).of_eq_ok hsign
    rw [hcurrent]
    exact (Expr.areOn_of_read hcx hafter.2 hvalue).cons.cons.cons
  · -- `display value`
    simp only [bind_eq_ok_iff, Prod.exists] at h
    obtain ⟨value, _, hvalue, hresult⟩ := h
    cases hresult
    rw [hcurrent]
    exact (Expr.areOn_of_read hcx htail hvalue).cons
  · -- `input name`
    simp only [bind_eq_ok_iff, Prod.exists] at h
    obtain ⟨name, _, hname, hresult⟩ := h
    cases hresult
    rw [hcurrent]
    exact AreOn.nil.cons.cons
  · cases h
  · cases h
  · cases h
  · cases h

/-- A colon stands on the row, and so does an inline body behind it, with its colon. -/
private theorem Body.areOn_of_readInline (hcx : cx.IsOn row line) (htokens : tokens ⊆ line)
    {colon : Token} {inline : Option (Body × List Token)}
    (h : readInline cx tokens = .ok (colon, inline)) :
    colon.row = row ∧ ∀ result ∈ inline,
      result.1.line = some (row : Int) ∧ AreOn row result.1.placed := by
  simp only [readInline, bind_eq_ok_iff, Prod.exists] at h
  obtain ⟨first, behind, hcolon, h⟩ := h
  have hbehind := (LineContext.blames_expect hcx.stop htokens .colon).of_eq_ok hcolon
  have hfirst : first.row = row := hcx.tokens first hbehind.1
  split at h
  · obtain ⟨_, hfinish, hresult⟩ := bind_eq_ok_iff.mp h
    cases hresult
    refine ⟨hfirst, ?_⟩
    rintro _ ⟨⟩
  · simp only [bind_eq_ok_iff, Prod.exists] at h
    obtain ⟨statement, after, hsimple, hresult⟩ := h
    cases hresult
    refine ⟨hfirst, ?_⟩
    rintro _ ⟨⟩
    exact ⟨congrArg (fun begun : Nat => some (begun : Int)) hfirst,
      (Statement.areOn_of_readSimple hcx hbehind.2 hsimple).append AreOn.nil⟩

/-! ### Whole lines -/

/-- The placed words of a line's content. -/
def LineContent.placed : LineContent → List (Word × Option Int)
  | .statement s => s.placed
  | .heading head colon => head.placed (some (colon.row : Int))

/-- Content **adds** words on a row behind those that are placed in front. -/
def LineContent.Adds (row : Nat) (front : List (Word × Option Int)) (content : LineContent) :
    Prop :=
  ∃ new, content.placed = front ++ new ∧ AreOn row new

/-- Words on the row that are in front of those that are added join them. -/
private theorem LineContent.Adds.behind {front more : List (Word × Option Int)}
    {content : LineContent}
    (h : content.Adds row (front ++ more)) (hmore : AreOn row more) : content.Adds row front := by
  obtain ⟨new, hplaced, hnew⟩ := h
  exact ⟨more ++ new, hplaced.trans (List.append_assoc front more new), hmore.append hnew⟩

/-- Reading the body behind a heading adds the head of the last clause, or of the loop, if that is
on the row. -/
private theorem Heading.adds_of_readBody (hcx : cx.IsOn row line) (htokens : tokens ⊆ line)
    {heading : Heading} {content : LineContent} (hopen : heading.earlier.isOpen = true)
    (hown : AreOn row (heading.ownPlaced (some (row : Int))))
    (h : heading.readBody cx tokens = .ok content) :
    content.Adds row (heading.earlier.placed heading.line true) := by
  rw [readBody_eq_bind] at h
  obtain ⟨⟨colon, inline⟩, hinline, h⟩ := bind_eq_ok_iff.mp h
  obtain ⟨hcolon, hbody⟩ := Body.areOn_of_readInline hcx htokens hinline
  cases inline with
  | none =>
    cases h
    refine ⟨_, rfl, ?_⟩
    rwa [hcolon]
  | some result =>
    obtain ⟨body, rest⟩ := result
    obtain ⟨hline, hbody⟩ := hbody _ rfl
    obtain ⟨_, -, hresult⟩ := bind_eq_ok_iff.mp h
    cases hresult
    refine ⟨heading.ownPlaced body.line ++ body.placed, ?_, (hline ▸ hown).append hbody⟩
    rw [LineContent.placed, placed_complete hopen, placed, List.append_assoc]

/-- The head of a guarded clause is on the row if its condition is and, for the first clause of a
branch, the branch. -/
private theorem Heading.areOn_guarded {begun : Option Int} {earlier : Clauses}
    {condition : Condition}
    (hbegun : earlier.isDone = true → begun = some (row : Int))
    (hcondition : AreOn row condition.placed) :
    AreOn row ((guarded begun earlier condition).ownPlaced (some (row : Int))) := by
  have hrest : AreOn row (condition.placed ++ [(.fixed .colon, some (row : Int))]) :=
    hcondition.append AreOn.nil.cons
  rw [ownPlaced]
  split
  · next hdone =>
    rw [hbegun hdone]
    exact hrest.cons
  · exact hrest.cons

/-- A guarded clause with an inline body is placed on the row, behind the earlier clauses. -/
private theorem Clauses.placed_of_inline (hcx : cx.IsOn row line) (htokens : tokens ⊆ line)
    {begun : Option Int} {earlier : Clauses} (hopen : earlier.isOpen = true)
    (hbegun : earlier.isDone = true → begun = some (row : Int)) {condition : Condition}
    {body : Body} {colon : Token} {behind : List Token}
    (hcondition : Condition.read cx tokens = .ok (condition, behind))
    (hinline : Body.readInline cx behind = .ok (colon, some (body, rest))) :
    rest ⊆ line ∧ ∃ more,
      (earlier.append (.guarded condition body .done)).placed begun true =
        earlier.placed begun true ++ more ∧ AreOn row more := by
  have hbehind : behind ⊆ line := (Condition.blames_read hcx.stop htokens).of_eq_ok hcondition
  have hrest := (Body.blames_readInline hcx.stop hbehind).of_eq_ok hinline
  obtain ⟨hline, hbody⟩ := (Body.areOn_of_readInline hcx hbehind hinline).2 _ rfl
  have hown := Heading.areOn_guarded hbegun (Condition.areOn_of_read hcx htokens hcondition)
  have hearlier : (Heading.guarded begun earlier condition).earlier.isOpen = true := hopen
  have hplaced := Heading.placed_complete hearlier body
  refine ⟨hrest.2 _ rfl, _, hplaced.trans (List.append_assoc _ _ _), ?_⟩
  exact (hline ▸ hown).append hbody

/-- Reading behind the keyword of a guarded clause adds words behind the earlier clauses. -/
theorem Clauses.adds_of_read (hcx : cx.IsOn row line) {begun : Option Int} {earlier : Clauses}
    (htokens : tokens ⊆ line) (hopen : earlier.isOpen = true)
    (hbegun : earlier.isDone = true → begun = some (row : Int)) {content : LineContent}
    (h : read cx begun earlier tokens = .ok content) :
    content.Adds row (earlier.placed begun true) := by
  -- along the clauses of the line; those read so far stay open
  fun_induction read cx begun earlier tokens with
  | case1 => cases h
  | case2 => cases h
  | case3 earlier tokens condition behind hcondition colon hinline =>
    -- the colon ends the line: a heading
    cases h
    have hbehind : behind ⊆ line := (Condition.blames_read hcx.stop htokens).of_eq_ok hcondition
    obtain ⟨hcolon, -⟩ := Body.areOn_of_readInline hcx hbehind hinline
    refine ⟨_, rfl, ?_⟩
    rw [hcolon]
    exact Heading.areOn_guarded hbegun (Condition.areOn_of_read hcx htokens hcondition)
  | case4 earlier tokens condition behind hcondition colon body clauses hinline =>
    -- the inline body ends the line
    cases h
    exact (placed_of_inline hcx htokens hopen hbegun hcondition hinline).2
  | case5 earlier tokens condition behind hcondition colon body clauses token tail hinline hkind =>
    -- a guarded clause follows
    rename_i ih
    obtain ⟨hrest, more, hplaced, hmore⟩ :=
      placed_of_inline hcx htokens hopen hbegun hcondition hinline
    have hguarded : clauses.isGuarded = true := isGuarded_append_guarded condition body hopen
    have hnot : clauses.isDone = true → begun = some (row : Int) := by
      intro hdone
      rw [isDone_eq_false hguarded] at hdone
      cases hdone
    have hadds := ih (List.cons_subset.mp hrest).2 (isOpen_append_guarded condition body hopen)
      hnot h
    rw [hplaced] at hadds
    exact hadds.behind hmore
  | case6 earlier tokens condition behind hcondition colon body clauses token tail hinline hkind =>
    -- the clause without a guard follows
    obtain ⟨hrest, more, hplaced, hmore⟩ :=
      placed_of_inline hcx htokens hopen hbegun hcondition hinline
    have hclauses : (Heading.otherwise begun clauses).earlier.isOpen = true :=
      isOpen_append_guarded condition body hopen
    have hadds := Heading.adds_of_readBody hcx (List.cons_subset.mp hrest).2 hclauses
      AreOn.nil.cons.cons h
    rw [Heading.earlier, Heading.line, hplaced] at hadds
    exact hadds.behind hmore
  | case7 earlier tokens condition behind hcondition colon body clauses token tail hinline _ _ =>
    -- anything else has to end the line
    obtain ⟨-, hadds⟩ := placed_of_inline hcx htokens hopen hbegun hcondition hinline
    obtain ⟨_, -, rfl⟩ := map_eq_ok_iff.mp h
    exact hadds

/-- **Reading a line** adds words on the row of the line. If the line goes on with a branch, the
words of that are taken back from those before it first. -/
theorem LineContent.adds_of_read (hcx : cx.IsOn row line) (htokens : tokens ⊆ line)
    {content : LineContent} {before before' : List Statement}
    (hbefore : ∀ statement ∈ before, statement.isWellFormed = true)
    (h : read cx before tokens = .ok (content, before')) :
    ∃ taken, Statement.placedOf before.reverse = Statement.placedOf before'.reverse ++ taken ∧
      content.Adds row taken := by
  have hcurrent := hcx.row_current htokens
  have htail : tokens.tail ⊆ line := List.Subset.trans (List.tail_suffix tokens).subset htokens
  have hbegun : some ((cx.current tokens).row : Int) = some (row : Int) := by rw [hcurrent]
  -- nothing is taken back where a statement begins
  have hnone : Statement.placedOf before.reverse = Statement.placedOf before.reverse ++ [] :=
    (List.append_nil _).symm
  unfold read at h
  dsimp only at h
  split at h
  · -- the first clause of a branch
    simp only [bind_eq_ok_iff] at h
    obtain ⟨_, hclauses, hresult⟩ := h
    cases hresult
    exact ⟨[], hnone, Clauses.adds_of_read hcx htail rfl (fun _ => hbegun) hclauses⟩
  · -- a guarded clause of the branch in front
    split at h
    · next begun clauses rest hfound =>
      obtain ⟨rfl, hopen⟩ := openBranch?_eq_some_iff.mp hfound
      simp only [bind_eq_ok_iff] at h
      obtain ⟨_, hclauses, hresult⟩ := h
      cases hresult
      obtain ⟨hguarded, -⟩ := Bool.and_eq_true_iff.mp (hbefore _ List.mem_cons_self)
      refine ⟨_, Statement.placedOf_reverse_cons _ before', ?_⟩
      refine Clauses.adds_of_read hcx htail hopen (fun hdone => ?_) hclauses
      rw [Clauses.isDone_eq_false hguarded] at hdone
      cases hdone
    · cases h
  · -- the clause without a guard of the branch in front
    split at h
    · next begun clauses rest hfound =>
      obtain ⟨rfl, hopen⟩ := openBranch?_eq_some_iff.mp hfound
      simp only [bind_eq_ok_iff] at h
      obtain ⟨_, hbody, hresult⟩ := h
      cases hresult
      have hearlier : (Heading.otherwise begun clauses).earlier.isOpen = true := hopen
      refine ⟨_, Statement.placedOf_reverse_cons _ before', ?_⟩
      exact Heading.adds_of_readBody hcx htail hearlier AreOn.nil.cons.cons hbody
    · cases h
  · -- a loop with a condition
    simp only [bind_eq_ok_iff, Prod.exists] at h
    obtain ⟨condition, behind, hcondition, _, hbody, hresult⟩ := h
    cases hresult
    have hbehind : behind ⊆ line := (Condition.blames_read hcx.stop htail).of_eq_ok hcondition
    refine ⟨[], hnone, Heading.adds_of_readBody hcx hbehind rfl ?_ hbody⟩
    rw [Heading.ownPlaced, hbegun]
    exact ((Condition.areOn_of_read hcx htail hcondition).append AreOn.nil.cons).cons
  · -- a counting loop
    simp only [bind_eq_ok_iff, Prod.exists] at h
    obtain ⟨name, afterName, hname, _, afterIn, hin, first, afterFirst, hfirst, _, afterRange,
      hrange, last, afterLast, hlast, _, hbody, hresult⟩ := h
    cases hresult
    have hname := (LineContext.blames_expect hcx.stop htail .identifier).of_eq_ok hname
    have hin := (LineContext.blames_expect hcx.stop hname.2 .inWord).of_eq_ok hin
    have hafterFirst : afterFirst ⊆ line := (Expr.blames_read hcx.stop hin.2).of_eq_ok hfirst
    have hrange := (LineContext.blames_expect hcx.stop hafterFirst .range).of_eq_ok hrange
    have hafterLast : afterLast ⊆ line := (Expr.blames_read hcx.stop hrange.2).of_eq_ok hlast
    refine ⟨[], hnone, Heading.adds_of_readBody hcx hafterLast rfl ?_ hbody⟩
    rw [Heading.ownPlaced, hbegun]
    have hupper : AreOn row (last.placed ++ [(.fixed .colon, some (row : Int))]) :=
      (Expr.areOn_of_read hcx hrange.2 hlast).append AreOn.nil.cons
    exact ((Expr.areOn_of_read hcx hin.2 hfirst).append hupper.cons).cons.cons.cons
  · -- a simple statement
    simp only [bind_eq_ok_iff, Prod.exists] at h
    obtain ⟨statement, rest, hsimple, _, -, hresult⟩ := h
    cases hresult
    exact ⟨[], hnone, _, rfl, Statement.areOn_of_readSimple hcx htokens hsimple⟩

end Offside

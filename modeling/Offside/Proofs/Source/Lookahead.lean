import Offside.Proofs.Source.Cursor
import Offside.Proofs.Source.Program
import Offside.Proofs.Token.FirstWord
import Offside.Proofs.Token.Placed
import Offside.Proofs.Tree.Nodes

/-!
# What is looked at and what is read

A reader that goes statement by statement has to look ahead. Behind the body of a branch it scans
the next line at the level, which may begin with a further clause, and if it does not, then the
tokens of a line that belongs to another statement are at hand. Whether a heading still has its own
line to end is only told by the row of the token at hand (`Cursor.isOnLine`).

Three conditions say where the tokens at hand stand. The cursor **is on** its line (`Cursor.IsOn`),
so that it may be read on; it **is behind** the line at hand (`Cursor.IsBehind`), so that a token
cannot be taken for one of the line ahead; or it **looks at** no more than a line at a certain level
(`Cursor.LooksAt`). Being behind is lost where lines are looked at, and comes back where a line of
another level is met.

For each part of the reader it is shown how it ends (`Reading.Ends`): in which of these places, and
with a record that is true, also when it fails. A body ends on its line if it is inline, and else
behind all lines that are deeper (`Cursor.BehindBody`). The reader of blocks is left open here, up
to its keeping to the lines of the block (`Reading.KeepsBelow`).
-/

namespace Offside

/-! ### Lines that are passed -/

namespace Ahead

variable {p q : String × Nat → Prop} {a a' a'' : Ahead}

/-- The first line ahead that is not blank. -/
def first? (a : Ahead) : Option String :=
  a.lines.find? fun line => !Text.isBlankText line.toList

/-- Blank lines are passed over on the way to the first line that is not blank. -/
theorem first?_skipBlank (a : Ahead) : a.skipBlank.first? = a.first? := by
  obtain ⟨row, lines⟩ := a
  change (lines.dropWhile _).find? _ = lines.find? _
  induction lines with
  | nil => rfl
  | cons line rest ih =>
    cases hline : Text.isBlankText line.toList with
    | true => simpa [hline] using ih
    | false => simp [hline]

/-- Behind blank lines there is the end, or a line that is not blank. -/
theorem first?_of_skipBlank {line : String} {rest : List String}
    (h : a.skipBlank.lines = line :: rest) :
    Text.isBlankText line.toList = false ∧ a.first? = some line := by
  have hline : Text.isBlankText line.toList = false := by
    have hdrop : a.lines.dropWhile (fun line => Text.isBlankText line.toList) = line :: rest := h
    have hhead := List.head_dropWhile_not (fun line : String => Text.isBlankText line.toList)
      (hdrop ▸ List.cons_ne_nil line rest)
    simpa only [hdrop, List.head_cons] using hhead
  refine ⟨hline, ?_⟩
  rw [← first?_skipBlank, first?, h, List.find?_cons_of_pos (by simp [hline])]

/-- Blank lines are only passed over if there are any. -/
theorem skipBlank_eq_self {line : String} {rest : List String} (h : a.lines = line :: rest)
    (hline : Text.isBlankText line.toList = false) : a.skipBlank = a := by
  obtain ⟨row, lines⟩ := a
  cases h
  simp [skipBlank, hline]

/-- From one place to another, all lines in between that are not blank are as `p` says. -/
def Passes (p : String × Nat → Prop) (a a' : Ahead) : Prop :=
  ∃ passed, a.lines = passed ++ a'.lines ∧ a'.row = a.row + passed.length ∧
    ∀ numbered ∈ writtenLines a.row passed, p numbered

namespace Passes

theorem refl (p : String × Nat → Prop) (a : Ahead) : Passes p a a :=
  ⟨[], rfl, rfl, List.forall_mem_nil p⟩

theorem trans (h : Passes p a a') (h' : Passes p a' a'') : Passes p a a'' := by
  obtain ⟨passed, hlines, hrow, hpassed⟩ := h
  obtain ⟨more, hlines', hrow', hmore⟩ := h'
  refine ⟨passed ++ more, ?_, ?_, ?_⟩
  · rw [hlines, hlines', List.append_assoc]
  · rw [hrow', hrow, List.length_append, Nat.add_assoc]
  · rw [writtenLines_append, ← hrow]
    exact List.forall_mem_append.mpr ⟨hpassed, hmore⟩

theorem mono (h : Passes p a a') (hpq : ∀ numbered, p numbered → q numbered) : Passes q a a' := by
  obtain ⟨passed, hlines, hrow, hpassed⟩ := h
  exact ⟨passed, hlines, hrow, fun numbered hmem => hpq numbered (hpassed numbered hmem)⟩

theorem skipBlank (p : String × Nat → Prop) (a : Ahead) : Passes p a a.skipBlank := by
  refine ⟨_, List.takeWhile_append_dropWhile.symm, rfl, fun numbered hmem => ?_⟩
  obtain ⟨hmem, hwritten⟩ := List.mem_filter.mp hmem
  have hblank := List.all_eq_true.mp List.all_takeWhile _ (List.fst_mem_of_mem_zipIdx hmem)
  rw [hblank] at hwritten
  cases hwritten

theorem next {line : String} {rest : List String} (hlines : a.lines = line :: rest)
    (hline : p (line, a.row)) : Passes p a a.next := by
  refine ⟨[line], ?_, rfl, fun numbered hmem => ?_⟩
  · rw [Ahead.next, hlines]
    rfl
  · obtain ⟨hmem, -⟩ := List.mem_filter.mp hmem
    rw [List.zipIdx_singleton, List.mem_singleton] at hmem
    rw [hmem]
    exact hline

theorem length_le (h : Passes p a a') : a'.lines.length ≤ a.lines.length := by
  obtain ⟨passed, hlines, -⟩ := h
  rw [hlines, List.length_append]
  exact Nat.le_add_left _ _

theorem row_le (h : Passes p a a') : a.row ≤ a'.row := by
  obtain ⟨passed, -, hrow, -⟩ := h
  omega

end Passes

end Ahead

/-! ### Where the tokens at hand stand -/

/-- A line of tokens **is on** a row when all its tokens stand there, and the last of them ends the
line. -/
structure TokenLine.IsOn (line : TokenLine) (row : Nat) : Prop where
  row_eq : ∀ token ∈ line.toList, token.row = row
  stop_kind : line.stop.kind = .endOfLine

namespace TokenLine

variable {line : TokenLine} {row : Nat}

theorem isOn_of_scan {text : List Char} (h : scan row text = .ok line) : line.IsOn row :=
  ⟨fun _ => row_of_mem_scan h, kind_stop_of_scan h⟩

/-- The token at hand is on the row of its line. -/
private theorem IsOn.row_current (h : line.IsOn row) : line.current.row = row := by
  rw [current]
  refine h.row_eq _ (List.mem_append.mpr ?_)
  cases line.tokens with
  | nil => exact .inr List.mem_cons_self
  | cons token rest => exact .inl List.mem_cons_self

private theorem IsOn.of_suffix {rest : List Token} (h : line.IsOn row)
    (hrest : rest <:+ line.tokens) :
    IsOn { line with tokens := rest } row := by
  refine ⟨fun token hmem => h.row_eq token (List.mem_append.mpr ?_), h.stop_kind⟩
  exact (List.mem_append.mp hmem).imp_left (hrest.subset ·)

/-- A line of tokens **is at a clause** when the token at hand is a keyword of further clauses. -/
def IsAtClause (line : TokenLine) : Prop :=
  line.current.kind = .elifWord ∨ line.current.kind = .elseWord

/-- A keyword at hand is one of the tokens that are left. -/
theorem IsOn.eq_cons (h : line.IsOn row) (hclause : line.IsAtClause) :
    ∃ token rest, line.tokens = token :: rest ∧ line.current = token := by
  rw [IsAtClause, current] at hclause
  rw [current]
  cases htokens : line.tokens with
  | nil =>
    rw [htokens, List.headD_nil, h.stop_kind] at hclause
    rcases hclause with hkind | hkind <;> cases hkind
  | cons token rest => exact ⟨token, rest, rfl, rfl⟩

end TokenLine

namespace Cursor

variable {c c' : Cursor} {level : Nat}

/-- A cursor **is on** its line when what is left of this line is at hand. -/
def IsOn (c : Cursor) : Prop :=
  ∃ line, c.scanned = some line ∧ line.IsOn c.ahead.row

/-- A cursor **is behind** the line at hand when that comes before the lines ahead. -/
def IsBehind (c : Cursor) : Prop :=
  ∀ line ∈ c.scanned, ∃ row < c.ahead.row, line.IsOn row

/-- A cursor **looks no further** than to a line at a level when it is behind the line at hand, or
this is the first line ahead and stands at that level. -/
def LooksAt (level : Nat) (c : Cursor) : Prop :=
  ∀ line ∈ c.scanned, ∃ row ≤ c.ahead.row, line.IsOn row ∧ (row = c.ahead.row →
    ∃ next ∈ c.ahead.lines.head?, Text.isBlankText next.toList = false ∧
      Text.indentLevel next.toList = level)

/-- A cursor that is on its line finds the token at hand on the first line ahead. -/
theorem IsOn.isOnLine (h : c.IsOn) : c.isOnLine = true := by
  obtain ⟨line, hline, hrow⟩ := h
  rw [Cursor.isOnLine, current?, hline, Option.map_some, Option.any_some, hrow.row_current]
  exact beq_self_eq_true _

/-- A cursor that is behind the line at hand does not. -/
theorem IsBehind.isOnLine (h : c.IsBehind) : c.isOnLine = false := by
  rw [Cursor.isOnLine, current?]
  cases hline : c.scanned with
  | none => rfl
  | some line =>
    obtain ⟨row, hlt, hrow⟩ := h line hline
    rw [Option.map_some, Option.any_some, hrow.row_current]
    exact beq_false_of_ne (Nat.ne_of_lt hlt)

/-- The cursor stays on its line, and no tokens come to those that are left. -/
structure StaysOn (c c' : Cursor) : Prop where
  isOn : c'.IsOn
  ahead_eq : c'.ahead = c.ahead
  left_le : c'.left.length ≤ c.left.length

/-- What stays on a line that is past another cursor is past it as well. -/
theorem StaysOn.isPast {c'' : Cursor} (h : c.StaysOn c') (hpast : c.IsPast c'') :
    c'.IsPast c'' := by
  rw [IsPast, h.ahead_eq]
  exact hpast.imp_right fun ⟨hlines, hleft⟩ => ⟨hlines, Nat.lt_of_le_of_lt h.left_le hleft⟩

private theorem IsBehind.skipBlank (h : c.IsBehind) :
    IsBehind { c with ahead := c.ahead.skipBlank } := by
  intro line hline
  obtain ⟨row, hlt, hrow⟩ := h line hline
  exact ⟨row, Nat.lt_of_lt_of_le hlt (Nat.le_add_right _ _), hrow⟩

theorem LooksAt.skipBlank (h : c.LooksAt level) :
    LooksAt level { c with ahead := c.ahead.skipBlank } := by
  intro line hline
  obtain ⟨row, hle, hrow, hnext⟩ := h line hline
  refine ⟨row, Nat.le_trans hle (Nat.le_add_right _ _), hrow, fun heq => ?_⟩
  -- the line at hand is ahead, so there are no blank lines in front of it
  have hsame : row = c.ahead.row := Nat.le_antisymm hle (heq ▸ Nat.le_add_right _ _)
  obtain ⟨next, hhead, hwritten, hindent⟩ := hnext hsame
  obtain ⟨rest, hlines⟩ := List.head?_eq_some_iff.mp hhead
  refine ⟨next, ?_, hwritten, hindent⟩
  change next ∈ c.ahead.skipBlank.lines.head?
  rw [Ahead.skipBlank_eq_self hlines hwritten]
  exact hhead

/-- Where the line ahead does not stand at the level, the cursor is behind the line at hand. -/
theorem LooksAt.isBehind (h : c.LooksAt level)
    (hne : ∀ next ∈ c.ahead.lines.head?, Text.indentLevel next.toList ≠ level) : c.IsBehind := by
  intro line hline
  obtain ⟨row, hle, hrow, hnext⟩ := h line hline
  refine ⟨row, Nat.lt_of_le_of_ne hle fun heq => ?_, hrow⟩
  obtain ⟨next, hhead, -, hindent⟩ := hnext heq
  exact hne next hhead hindent

/-- A cursor that is behind the line at hand looks at no line ahead, of whatever level. -/
theorem IsBehind.looksAt (h : c.IsBehind) (level : Nat) : c.LooksAt level := by
  intro line hline
  obtain ⟨row, hlt, hrow⟩ := h line hline
  exact ⟨row, Nat.le_of_lt hlt, hrow, fun heq => absurd heq (Nat.ne_of_lt hlt)⟩

end Cursor

/-! ### Outcomes -/

/-- The record of a cursor **is true** when the cursor was on its line behind inline bodies, and
behind no others. -/
def Cursor.IsTrue (c : Cursor) : Prop :=
  ∀ last ∈ c.bodies, last.isOnLine = last.isInline

namespace Reading

variable {σ α β : Type} {c c' : Cursor}

/-- A part of the reader **ends** with a true record, and as `good` says unless it fails. -/
def Ends (good : α → Cursor → Prop) : EStateM.Result Failure Cursor α → Prop
  | .ok a c => c.IsTrue ∧ good a c
  | .error _ c => c.IsTrue

/-- What follows a part of the reader goes on with what that has read. -/
theorem bind_of_eq_ok {first : Reading α} (next : α → Reading β) {a : α}
    (h : first c = .ok a c') : (first >>= next) c = next a c' := by
  change EStateM.bind first next c = _
  rw [EStateM.bind, h]

theorem bind_of_eq_error {first : Reading α} (next : α → Reading β) {failure : Failure}
    (h : first c = .error failure c') : (first >>= next) c = .error failure c' := by
  change EStateM.bind first next c = _
  rw [EStateM.bind, h]

namespace Ends

variable {good better : α → Cursor → Prop} {best : β → Cursor → Prop}

theorem imp {result : EStateM.Result Failure Cursor α} (h : Ends good result)
    (himp : ∀ a c, good a c → better a c) : Ends better result := by
  cases result with
  | ok a c => exact ⟨h.1, himp a c h.2⟩
  | error failure c => exact h

theorem bind {first : Reading α} {next : α → Reading β} (h : Ends good (first c))
    (hnext : ∀ a c', c'.IsTrue → good a c' → Ends best (next a c')) :
    Ends best ((first >>= next) c) := by
  cases hfirst : first c with
  | ok a c' =>
    rw [hfirst] at h
    rw [bind_of_eq_ok next hfirst]
    exact hnext a c' h.1 h.2
  | error failure c' =>
    rw [hfirst] at h
    rw [bind_of_eq_error next hfirst]
    exact h

theorem of_eq_ok {result : EStateM.Result Failure Cursor α} (h : Ends good result) {a : α}
    (hresult : result = .ok a c) : c.IsTrue ∧ good a c := by
  rw [hresult] at h
  exact h

end Ends

/-- What rounds keep up holds when they are done. -/
theorem ends_loop {round : σ → Reading (σ ⊕ α)} (kept : σ → Cursor → Prop)
    {good : α → Cursor → Prop}
    (hround : ∀ s c, c.IsTrue → kept s c →
      Ends (fun result c' => result.elim (fun s' => kept s' c' ∧ c'.IsPast c) fun a => good a c')
        (round s c))
    (s : σ) (hc : c.IsTrue) (h : kept s c) : Ends good (loop round s c) := by
  fun_induction loop round s c with
  | case1 s c failure c' heq =>
    have hends := hround s c hc h
    rw [heq] at hends
    exact hends
  | case2 s c a c' heq => exact (hround s c hc h).of_eq_ok heq
  | case3 s c s' c' heq hpast ih =>
    have hends := (hround s c hc h).of_eq_ok heq
    exact ih hends.1 hends.2.1
  | case4 s c s' c' heq hpast =>
    have hends := (hround s c hc h).of_eq_ok heq
    exact absurd hends.2.2 hpast

/-! ### On one line -/

/-- A way of reading on a line **shortens** the tokens that are left. -/
def Shortens (read : LineContext → List Token → Except Failure (α × List Token)) : Prop :=
  ∀ cx tokens a rest, read cx tokens = .ok (a, rest) → rest <:+ tokens

/-- A token that is expected is taken. -/
theorem shortens_expect (kind : Kind) : Shortens fun cx => cx.expect kind :=
  fun _ _ _ _ h => LineContext.suffix_of_expect h

theorem shortens_condition : Shortens Condition.read :=
  fun _ _ _ _ h => (Condition.suffix_of_read h).1

theorem shortens_simple : Shortens Statement.readSimple :=
  fun _ _ _ _ h => Statement.suffix_of_readSimple h

theorem shortens_readWhile (line : Option Int) : Shortens (Heading.readWhile line) := by
  intro cx tokens heading rest h
  simp only [Heading.readWhile, bind_eq_ok_iff, Prod.exists] at h
  obtain ⟨condition, behind, hcondition, hresult⟩ := h
  cases hresult
  exact (Condition.suffix_of_read hcondition).1

theorem shortens_readFor (line : Option Int) : Shortens (Heading.readFor line) := by
  intro cx tokens heading rest h
  simp only [Heading.readFor, bind_eq_ok_iff, Prod.exists] at h
  obtain ⟨name, behind, hname, _, afterIn, hin, lower, afterLower, hlower, _, afterRange, hrange,
    upper, _, hupper, hresult⟩ := h
  cases hresult
  have hlowerRest : afterLower <:+ tokens := (Expr.suffix_of_read hlower).1.trans
    ((LineContext.suffix_of_expect hin).trans (LineContext.suffix_of_expect hname))
  exact (Expr.suffix_of_read hupper).1.trans
    ((LineContext.suffix_of_expect hrange).trans hlowerRest)

variable {room : Nat} {read : LineContext → List Token → Except Failure (α × List Token)}

/-- What is read on the line is taken from it. -/
theorem onLine_of_eq_ok {line : TokenLine} {a : α} {rest : List Token}
    (hline : c.scanned = some line) (h : read ⟨line.stop, room⟩ line.tokens = .ok (a, rest)) :
    onLine room read c = .ok a { c with scanned := some { line with tokens := rest } } := by
  rw [onLine, hline]
  dsimp only
  rw [h]

theorem onLine_of_eq_error {line : TokenLine} {failure : Failure}
    (hline : c.scanned = some line) (h : read ⟨line.stop, room⟩ line.tokens = .error failure) :
    onLine room read c = .error failure c := by
  rw [onLine, hline]
  dsimp only
  rw [h]

/-- Reading on a line leaves the cursor on it. -/
theorem ends_onLine (hread : Shortens read) (hc : c.IsTrue) (hon : c.IsOn) :
    Ends (fun a c' => c.StaysOn c' ∧ c'.bodies = c.bodies ∧
      ∃ line, c.scanned = some line ∧ read ⟨line.stop, room⟩ line.tokens = .ok (a, c'.left))
      (onLine room read c) := by
  obtain ⟨line, hline, hrow⟩ := hon
  cases hresult : read ⟨line.stop, room⟩ line.tokens with
  | error failure =>
    rw [onLine_of_eq_error hline hresult]
    exact hc
  | ok result =>
    obtain ⟨a, rest⟩ := result
    have hrest := hread _ _ a rest hresult
    rw [onLine_of_eq_ok hline hresult]
    refine ⟨hc, ⟨⟨_, rfl, hrow.of_suffix hrest⟩, rfl, ?_⟩, rfl, line, hline, hresult⟩
    rw [Cursor.left, Cursor.left, hline]
    exact hrest.length_le

/-- The end of a line takes the cursor behind it. -/
theorem ends_endLine (hc : c.IsTrue) (hon : c.IsOn) :
    Ends (fun _ c' => c'.ahead = c.ahead.next ∧ c'.IsBehind ∧ c'.bodies = c.bodies)
      (endLine room c) := by
  have hshortens : Shortens fun (cx : LineContext) tokens =>
      (cx.finish tokens).map fun _ => ((), tokens.tail) := by
    intro cx tokens _ rest h
    obtain ⟨_, -, hresult⟩ := map_eq_ok_iff.mp h
    cases hresult
    exact List.tail_suffix tokens
  refine (ends_onLine hshortens hc hon).bind ?_
  rintro _ c' hc' ⟨hstays, hbodies, -⟩
  refine ⟨hc', congrArg Ahead.next hstays.ahead_eq, fun line hline => ?_, hbodies⟩
  obtain ⟨line', hline', hrow⟩ := hstays.isOn
  obtain rfl : line' = line := Option.some.inj (hline'.symm.trans hline)
  exact ⟨_, Nat.lt_succ_self _, hrow⟩

theorem current_eq {line : TokenLine} (hline : c.scanned = some line) :
    current c = .ok line.current c := by
  rw [current, Cursor.current?, hline]
  rfl

end Reading

/-! ### Bodies -/

/-- A line with its row is **deeper** than a level. -/
def IsDeeper (level : Nat) (numbered : String × Nat) : Prop :=
  level < Text.indentLevel numbered.1.toList

/-- The first line ahead that is not blank is no deeper than a level. -/
def Ahead.StopsAt (level : Nat) (a : Ahead) : Prop :=
  ∀ next ∈ a.first?, Text.indentLevel next.toList ≤ level

/-- Where the cursor is behind a body: still on the line if the body is inline, and else behind all
the lines of the block, which are deeper than the line. -/
inductive Cursor.BehindBody (level : Nat) (c c' : Cursor) : Bool → Prop
  | inline (stays : c.StaysOn c') : BehindBody level c c' true
  | block (behind : c'.IsBehind) (passes : c.ahead.next.Passes (IsDeeper level) c'.ahead)
      (stops : c'.ahead.StopsAt level) : BehindBody level c c' false

namespace Reading

variable {room level : Nat} {block : Reading (List Statement)} {c c' : Cursor}

/-- A reader of blocks **keeps below** a level when it reads all the lines that are deeper, and no
others. -/
def KeepsBelow (level : Nat) (block : Reading (List Statement)) : Prop :=
  ∀ c, c.IsTrue → c.IsBehind →
    Ends (fun _ c' => c'.IsBehind ∧ c.ahead.Passes (IsDeeper level) c'.ahead ∧
      c'.ahead.StopsAt level) (block c)

/-- **Behind a body** the cursor is on its line exactly if the body is inline, and this is what is
recorded. -/
theorem ends_body (hblock : KeepsBelow level block) (hc : c.IsTrue) (hon : c.IsOn) :
    Ends (fun inner c' => inner.line = some (c.ahead.row : Int) ∧
      ∃ last ∈ c'.bodies.head?, c.BehindBody level c' last.isInline) (body room block c) := by
  refine (ends_onLine (shortens_expect .colon) hc hon).bind ?_
  rintro colon c₁ hc₁ ⟨hstays, -, line, hline, hcolon⟩
  have hrow : colon.row = c.ahead.row := by
    obtain ⟨line', hline', hrow⟩ := hon
    cases hline.symm.trans hline'
    rw [(LineContext.expect_eq_ok_iff.mp hcolon).2.1]
    exact hrow.row_current
  obtain ⟨_, hline', -⟩ := hstays.isOn
  rw [bind_of_eq_ok _ (current_eq hline')]
  split
  · -- the body is a block
    refine (ends_endLine hc₁ hstays.isOn).bind ?_
    rintro _ c₂ hc₂ ⟨hahead, hbehind, -⟩
    refine (hblock c₂ hc₂ hbehind).bind ?_
    rintro statements c₃ hc₃ ⟨hbehind, hpasses, hstops⟩
    split
    · exact hc₃
    · rw [hahead, hstays.ahead_eq] at hpasses
      refine ⟨List.forall_mem_cons.mpr ⟨hbehind.isOnLine, hc₃⟩, by rw [← hrow]; rfl, _, rfl, ?_⟩
      exact .block hbehind hpasses hstops
  · -- the body is inline
    refine (ends_onLine shortens_simple hc₁ hstays.isOn).bind ?_
    rintro statement c₂ hc₂ ⟨hstays', -⟩
    refine ⟨List.forall_mem_cons.mpr ⟨hstays'.isOn.isOnLine, hc₂⟩, by rw [← hrow]; rfl, _, rfl, ?_⟩
    exact .inline ⟨hstays'.isOn, hstays'.ahead_eq.trans hstays.ahead_eq,
      Nat.le_trans hstays'.left_le hstays.left_le⟩

/-- Leaving the line of a body takes the cursor behind the line, or leaves it behind the block. -/
theorem ends_leaveLine {isInline : Bool} (hc : c'.IsTrue) (h : c.BehindBody level c' isInline) :
    Ends (fun _ c'' => c''.IsBehind ∧ c''.bodies = c'.bodies ∧
      c.ahead.next.Passes (IsDeeper level) c''.ahead ∧
      (isInline = false → c''.ahead.StopsAt level)) (leaveLine room c') := by
  change Ends _ ((if c'.isOnLine then endLine room else pure ()) c')
  cases h with
  | inline hstays =>
    rw [hstays.isOn.isOnLine, if_pos rfl]
    refine (ends_endLine hc hstays.isOn).imp ?_
    rintro _ c'' ⟨hahead, hbehind, hbodies⟩
    rw [hstays.ahead_eq] at hahead
    exact ⟨hbehind, hbodies, hahead ▸ .refl _ _, nofun⟩
  | block hbehind hpasses hstops =>
    rw [hbehind.isOnLine, if_neg Bool.false_ne_true]
    exact ⟨hc, hbehind, rfl, hpasses, fun _ => hstops⟩

end Reading

/-! ### Further clauses -/

/-- A line **begins with a clause** when its first word is the keyword of a further clause, in any
case. -/
def BeginsClause (line : String) : Prop :=
  Text.firstWord line.toList ∈ ["elif".toList, "else".toList]

/-- A line begins a clause if its first token is the keyword of one. -/
theorem beginsClause_iff {row : Nat} {line : String} {scanned : TokenLine}
    (hline : Text.isBlankText line.toList = false)
    (hscan : TokenLine.scan row line.toList = .ok scanned) :
    BeginsClause line ↔ scanned.IsAtClause := by
  rw [BeginsClause, List.mem_cons, List.mem_singleton]
  constructor
  · have hkind : ∀ word ∈ Kind.keywords, Text.firstWord line.toList = word.toList →
        Kind.classify word = some scanned.current.kind := by
      intro word hkeyword hword
      obtain ⟨token, rest, htokens, -, hkind⟩ :=
        TokenLine.exists_of_firstWord hline hscan hkeyword hword
      rw [TokenLine.current, htokens]
      exact hkind
    rintro (hword | hword)
    · exact .inl (Option.some.inj ((hkind "elif" (by decide) hword).symm.trans (by decide)))
    · exact .inr (Option.some.inj ((hkind "else" (by decide) hword).symm.trans (by decide)))
  · intro hclause
    obtain ⟨token, rest, htokens, rfl⟩ := (TokenLine.isOn_of_scan hscan).eq_cons hclause
    have hsettled := (TokenLine.settled_of_mem_scan hscan (htokens ▸ List.mem_cons_self)).1
    have hword : ∀ word ∈ Kind.keywords, scanned.current.lexeme = word →
        Text.firstWord line.toList = word.toList := by
      rintro _ hkeyword rfl
      exact TokenLine.firstWord_of_scan hline hscan htokens hkeyword
    rcases hclause with hkind | hkind
    · exact .inl (hword "elif" (by decide) (hsettled.lexeme_eq (by rw [hkind]; rfl)))
    · exact .inr (hword "else" (by decide) (hsettled.lexeme_eq (by rw [hkind]; rfl)))

/-- The next line that is not blank does not go on with a branch at the level. -/
def Ahead.EndsBranch (level : Nat) (a : Ahead) : Prop :=
  ∀ next ∈ a.first?, Text.indentLevel next.toList = level → ¬ BeginsClause next

/-- A cursor **is at a clause** when its line is, where the keyword is of a given kind. -/
def Cursor.IsAtClause (c : Cursor) (kind : Kind) : Prop :=
  ∃ line, c.scanned = some line ∧ line.IsAtClause ∧ line.current.kind = kind

theorem Cursor.IsAtClause.kind_eq {c : Cursor} {kind : Kind} (h : c.IsAtClause kind) :
    kind = .elifWord ∨ kind = .elseWord := by
  obtain ⟨line, -, hclause, rfl⟩ := h
  exact hclause

/-- What the search for a further clause comes to: one on the same line, one at the beginning of
the next line at the level, or none. -/
inductive Cursor.FindsClause (level : Nat) (c c' : Cursor) : Option Kind → Prop
  | onLine (kind : Kind) (isAt : c'.IsAtClause kind) (stays : c.StaysOn c') :
      FindsClause level c c' (some kind)
  | below (kind : Kind) (isAt : c'.IsAtClause kind) (isOn : c'.IsOn)
      (passes : c.ahead.next.Passes (IsDeeper level) c'.ahead) (line : String)
      (rest : List String) (lines_eq : c'.ahead.lines = line :: rest)
      (indent_eq : Text.indentLevel line.toList = level) (begins : BeginsClause line) :
      FindsClause level c c' (some kind)
  | none (passes : c.ahead.next.Passes (IsDeeper level) c'.ahead) (looks : c'.LooksAt level)
      (ends : c'.ahead.EndsBranch level) : FindsClause level c c' none

theorem Cursor.FindsClause.isAtClause {level : Nat} {c c' : Cursor} {kind : Kind}
    (h : c.FindsClause level c' (some kind)) : c'.IsAtClause kind ∧ c'.IsOn := by
  cases h with
  | onLine _ hisAt hstays => exact ⟨hisAt, hstays.isOn⟩
  | below _ hisAt hon => exact ⟨hisAt, hon⟩

namespace Reading

variable {room level : Nat} {block : Reading (List Statement)} {c c' : Cursor}

theorem scan_of_eq_ok {line : String} {rest : List String} {scanned : TokenLine}
    (hlines : c.ahead.lines = line :: rest)
    (hscan : TokenLine.scan c.ahead.row line.toList = .ok scanned) :
    scan c = .ok () { c with scanned := some scanned } := by
  rw [scan, hlines]
  dsimp only
  rw [hscan]

theorem scan_of_eq_error {line : String} {rest : List String} {failure : Failure}
    (hlines : c.ahead.lines = line :: rest)
    (hscan : TokenLine.scan c.ahead.row line.toList = .error failure) :
    scan c = .error failure c := by
  rw [scan, hlines]
  dsimp only
  rw [hscan]

/-- When a line has been scanned, the cursor is on it. -/
theorem ends_scan {line : String} {rest : List String} (hc : c.IsTrue)
    (hlines : c.ahead.lines = line :: rest) :
    Ends (fun _ c' => c'.IsOn ∧ ∃ scanned, TokenLine.scan c.ahead.row line.toList = .ok scanned ∧
      c' = { c with scanned := some scanned }) (scan c) := by
  cases hscan : TokenLine.scan c.ahead.row line.toList with
  | error failure =>
    rw [scan_of_eq_error hlines hscan]
    exact hc
  | ok scanned =>
    rw [scan_of_eq_ok hlines hscan]
    exact ⟨hc, ⟨scanned, rfl, TokenLine.isOn_of_scan hscan⟩, scanned, rfl, rfl⟩

section ClauseWord

variable {line : TokenLine} (hline : c.scanned = some line)

include hline

theorem clauseWord_eq_some (h : line.IsAtClause) :
    clauseWord c = .ok (some line.current.kind) c := by
  rw [clauseWord, bind_of_eq_ok _ (current_eq hline), if_pos (show _ ∨ _ from h)]
  rfl

theorem clauseWord_eq_none (h : ¬ line.IsAtClause) : clauseWord c = .ok none c := by
  rw [clauseWord, bind_of_eq_ok _ (current_eq hline), if_neg (show ¬ (_ ∨ _) from h)]
  rfl

end ClauseWord

/-- Looking at the next line that is not blank. -/
private theorem ends_clauseBelow (hc : c'.IsTrue) (hbehind : c'.IsBehind)
    (hpasses : c.ahead.next.Passes (IsDeeper level) c'.ahead) :
    Ends (fun kind? c'' => c''.bodies = c'.bodies ∧ c''.ahead.first? = c'.ahead.first? ∧
      c.FindsClause level c'' kind?) (clauseBelow level c') := by
  have hskip : c.ahead.next.Passes (IsDeeper level) c'.ahead.skipBlank :=
    hpasses.trans (.skipBlank _ _)
  have hfirst := c'.ahead.first?_skipBlank
  change Ends _ (clauseAt level c'.ahead.skipBlank.lines { c' with ahead := c'.ahead.skipBlank })
  have hbehind' := Cursor.IsBehind.skipBlank hbehind
  cases hlines : c'.ahead.skipBlank.lines with
  | nil =>
    refine ⟨hc, rfl, hfirst, .none hskip (hbehind'.looksAt level) fun next hnext => ?_⟩
    rw [Ahead.first?, hlines] at hnext
    cases hnext
  | cons line rest =>
    obtain ⟨hline, hfirstLine⟩ := Ahead.first?_of_skipBlank hlines
    have hnext : ∀ next ∈ c'.ahead.skipBlank.first?, next = line := by
      intro next hnext
      rw [hfirst, hfirstLine] at hnext
      exact (Option.some.inj hnext).symm
    rw [clauseAt]
    split
    · next hindent =>
      refine (ends_scan (c := { c' with ahead := c'.ahead.skipBlank }) hc hlines).bind ?_
      rintro _ _ hc'' ⟨hon, scanned, hscan, rfl⟩
      have hclause := beginsClause_iff hline hscan
      by_cases hkind : scanned.IsAtClause
      · rw [clauseWord_eq_some rfl hkind]
        refine ⟨hc'', rfl, hfirst, .below _ ⟨scanned, rfl, hkind, rfl⟩ hon hskip line rest hlines
          hindent ?_⟩
        exact hclause.mpr hkind
      · rw [clauseWord_eq_none rfl hkind]
        refine ⟨hc'', rfl, hfirst, .none hskip ?_ fun next hmem _ => ?_⟩
        · rintro _ ⟨⟩
          exact ⟨_, Nat.le_refl _, TokenLine.isOn_of_scan hscan, fun _ =>
            ⟨line, by rw [hlines]; rfl, hline, hindent⟩⟩
        · rw [hnext next hmem, hclause]
          exact hkind
    · next hindent =>
      refine ⟨hc, rfl, hfirst, .none hskip (hbehind'.looksAt level) fun next hmem heq => ?_⟩
      rw [hnext next hmem] at heq
      exact absurd heq hindent

/-- **The search for a further clause** goes by whether the body was inline. -/
theorem ends_nextClause {isInline : Bool} (hc : c'.IsTrue) (h : c.BehindBody level c' isInline) :
    Ends (fun kind? c'' => c''.bodies = c'.bodies ∧ c.FindsClause level c'' kind? ∧
      (isInline = false → c''.ahead.StopsAt level)) (nextClause room level c') := by
  cases h with
  | inline hstays =>
    change Ends _ ((if c'.isOnLine then _ else _ : Reading (Option Kind)) c')
    rw [hstays.isOn.isOnLine, if_pos rfl]
    obtain ⟨line, hline, -⟩ := hstays.isOn
    by_cases hkind : line.IsAtClause
    · rw [bind_of_eq_ok _ (clauseWord_eq_some hline hkind)]
      exact ⟨hc, rfl, .onLine _ ⟨line, hline, hkind, rfl⟩ hstays, nofun⟩
    · rw [bind_of_eq_ok _ (clauseWord_eq_none hline hkind)]
      refine (ends_endLine hc hstays.isOn).bind ?_
      rintro _ c₁ hc₁ ⟨hahead, hbehind, hbodies⟩
      have hpasses : c.ahead.next.Passes (IsDeeper level) c₁.ahead := by
        rw [hahead, hstays.ahead_eq]
        exact .refl _ _
      refine (ends_clauseBelow hc₁ hbehind hpasses).imp ?_
      rintro kind? c'' ⟨hbodies', -, hfinds⟩
      exact ⟨hbodies'.trans hbodies, hfinds, nofun⟩
  | block hbehind hpasses hstops =>
    change Ends _ ((if c'.isOnLine then _ else _ : Reading (Option Kind)) c')
    rw [hbehind.isOnLine, if_neg Bool.false_ne_true]
    refine (ends_clauseBelow hc hbehind hpasses).imp ?_
    rintro kind? c'' ⟨hbodies, hfirst, hfinds⟩
    refine ⟨hbodies, hfinds, fun _ next hnext => hstops next ?_⟩
    rwa [hfirst] at hnext

end Reading

end Offside

import Offside.Proofs.Source.Lookahead

/-!
# Whom a line belongs to

A statement **owns** the line that it begins on, all lines of its blocks, which are deeper, and the
lines at its own level that begin with a further clause of it (`OwnedBy`). It is shown along the
rules that the reader of statements passes just such lines, and stops in front of a line that the
statement does not own (`Reading.keepsToOwn_statement`).

What a statement leaves behind has to be known in some detail for the block around it. The line in
front of the cursor may have been scanned already, in search of a further clause at the level of
the statement. Then it stands at that level, so that the block goes on there and has it scanned
again. Where a block ends, the next line is indented less, and was not looked at by any statement
inside: the cursor is behind the line at hand (`Cursor.LooksAt.isBehind`). So the heading of the
block, one level up, finds that its own line is over.

Branches and blocks are rounds, with an invariant each: `InBranch` and `InBlock`.
-/

namespace Offside

/-! ### Ownership -/

/-- A statement at a level with these bodies **owns** a further line that is deeper, or that is at
the level and begins with a clause whose body is one of these. -/
def OwnedBy (level : Nat) (bodies : List Body) (numbered : String × Nat) : Prop :=
  level < Text.indentLevel numbered.1.toList ∨
    Text.indentLevel numbered.1.toList = level ∧ BeginsClause numbered.1 ∧
      ∃ body ∈ bodies, body.line = some (numbered.2 : Int)

/-- With more bodies a statement owns more lines. -/
private theorem OwnedBy.mono {level : Nat} {bodies bodies' : List Body} {numbered : String × Nat}
    (h : OwnedBy level bodies numbered) (hsubset : bodies ⊆ bodies') :
    OwnedBy level bodies' numbered :=
  h.imp_right fun ⟨hindent, hbegins, body, hbody, hline⟩ =>
    ⟨hindent, hbegins, body, hsubset hbody, hline⟩

/-- Whether a statement is a branch that may go on with a further clause. -/
def Statement.isOpen : Statement → Bool
  | branch _ clauses => clauses.isOpen
  | _ => false

/-- Open clauses go on with the bodies of those that are appended. -/
private theorem Clauses.bodies_append {clauses more : Clauses} (h : clauses.isOpen = true) :
    (clauses.append more).bodies = clauses.bodies ++ more.bodies := by
  induction clauses with
  | done => rfl
  | otherwise body => cases h
  | guarded condition body rest ih => exact congrArg (body :: ·) (ih h)

/-- Simple statements do not go on. -/
private theorem Statement.isOpen_of_readSimple {cx : LineContext} {tokens rest : List Token}
    {s : Statement} (h : Statement.readSimple cx tokens = .ok (s, rest)) : s.isOpen = false := by
  unfold Statement.readSimple at h
  simp only at h
  split at h
  · simp only [bind_eq_ok_iff, Prod.exists] at h
    obtain ⟨_, _, -, _, _, -, _, _, -, hresult⟩ := h
    cases hresult
    rfl
  · obtain ⟨_, -, hresult⟩ := bind_eq_ok_iff.mp h
    cases hresult
    rfl
  · obtain ⟨_, -, hresult⟩ := bind_eq_ok_iff.mp h
    cases hresult
    rfl
  all_goals cases h

/-- What a statement that has been read leaves: all lines behind its first that the cursor has
passed are its own, and the next line is no clause that it could go on with. No line is looked at
but one at the level of the statement. -/
structure Statement.Owns (level : Nat) (behind : Ahead) (statement : Statement) (c : Cursor) :
    Prop where
  passes : behind.Passes (OwnedBy level statement.bodies) c.ahead
  looks : c.LooksAt level
  ends : statement.isOpen = true → c.ahead.EndsBranch level

/-- The last body that was read is inline, or the next line is no deeper than the level. -/
def Cursor.StopsBehindBlock (level : Nat) (c : Cursor) : Prop :=
  ∃ last ∈ c.bodies.head?, last.isInline = false → c.ahead.StopsAt level

namespace Reading

variable {room level : Nat} {block : Reading (List Statement)} {c c' : Cursor}

/-! ### Branches -/

/-- Where the reader is in the middle of a branch: on a line that is its own, with some clauses
read. -/
structure InBranch (level : Nat) (behind : Ahead) (earlier : Clauses) (c : Cursor) : Prop where
  isOpen : earlier.isOpen = true
  isOn : c.IsOn
  passes : behind.Passes (fun numbered => OwnedBy level earlier.bodies numbered ∨
    Text.indentLevel numbered.1.toList = level ∧ BeginsClause numbered.1 ∧
      numbered.2 = c.ahead.row) c.ahead.next

/-- All lines of a branch so far are its own when the body of the clause on the last one is. -/
private theorem InBranch.passes_next {behind : Ahead} {earlier : Clauses}
    (h : InBranch level behind earlier c) {bodies : List Body} (hearlier : earlier.bodies ⊆ bodies)
    {body : Body} (hbody : body ∈ bodies) (hline : body.line = some (c.ahead.row : Int)) :
    behind.Passes (OwnedBy level bodies) c.ahead.next := by
  refine h.passes.mono fun numbered howned => ?_
  rcases howned with howned | ⟨hindent, hbegins, hrow⟩
  · exact howned.mono hearlier
  · exact .inr ⟨hindent, hbegins, body, hbody, hrow ▸ hline⟩

private theorem InBranch.of_staysOn {behind : Ahead} {earlier : Clauses}
    (h : InBranch level behind earlier c) (hstays : c.StaysOn c') :
    InBranch level behind earlier c' :=
  ⟨h.isOpen, hstays.isOn, hstays.ahead_eq ▸ h.passes⟩

/-- A further clause that is found is the next one of the branch. -/
private theorem InBranch.of_findsClause {behind : Ahead} {clauses : Clauses} {kind : Kind}
    (hopen : clauses.isOpen = true)
    (hpasses : behind.Passes (OwnedBy level clauses.bodies) c.ahead.next)
    (h : c.FindsClause level c' (some kind)) : InBranch level behind clauses c' := by
  cases h with
  | onLine _ _ hstays =>
    exact ⟨hopen, hstays.isOn, hstays.ahead_eq ▸ hpasses.mono fun _ => .inl⟩
  | below _ _ hon hpasses' line rest hlines hindent hbegins =>
    refine ⟨hopen, hon, (hpasses.mono fun _ => .inl).trans ?_⟩
    exact (hpasses'.mono fun _ hdeeper => .inl (.inl hdeeper)).trans
      (.next hlines (.inr ⟨hindent, hbegins, rfl⟩))

private theorem isPast_of_findsClause {kind : Kind} {c'' : Cursor}
    (h : c.FindsClause level c' (some kind)) (hpast : c.IsPast c'') : c'.IsPast c'' := by
  cases h with
  | onLine _ _ hstays => exact hstays.isPast hpast
  | below _ _ _ hpasses line rest hlines =>
    have hle := hpasses.length_le
    have htail : c.ahead.next.lines.length = c.ahead.lines.length - 1 := List.length_tail
    have hcons : c'.ahead.lines.length = rest.length + 1 := by rw [hlines, List.length_cons]
    left
    rcases hpast with hpast | ⟨hpast, -⟩ <;> omega

/-- One round of a branch. -/
theorem ends_clause (hblock : KeepsBelow level block) {behind : Ahead} {line : Option Int}
    {earlier : Clauses} (hc : c.IsTrue) (h : InBranch level behind earlier c) :
    Ends (fun result c' => result.elim
        (fun earlier' => InBranch level behind earlier' c' ∧ c'.IsPast c)
        fun statement => statement.Owns level behind c' ∧ c'.StopsBehindBlock level)
      (clause room level block line earlier c) := by
  refine (ends_onLine shortens_condition hc h.isOn).bind ?_
  rintro condition c₁ hc₁ ⟨hstays₁, -, scanned, hscanned, hcondition⟩
  have hfewer : c₁.left.length < c.left.length := by
    have hleft : c.left = scanned.tokens := by rw [Cursor.left, hscanned]; rfl
    rw [hleft]
    exact (Condition.suffix_of_read hcondition).2
  have h₁ := h.of_staysOn hstays₁
  refine (ends_body hblock hc₁ hstays₁.isOn).bind ?_
  rintro inner c₂ hc₂ ⟨hinner, last, hlast, hbehind⟩
  have hopen := Clauses.isOpen_append_guarded condition inner h.isOpen
  have hpasses : behind.Passes
      (OwnedBy level (earlier.append (.guarded condition inner .done)).bodies) c₁.ahead.next := by
    rw [Clauses.bodies_append h.isOpen]
    exact h₁.passes_next (List.subset_append_left _ _)
      (List.mem_append_right _ List.mem_cons_self) hinner
  refine (ends_nextClause hc₂ hbehind).bind ?_
  generalize earlier.append (.guarded condition inner .done) = clauses at hopen hpasses ⊢
  rintro kind? c₃ hc₃ ⟨hbodies₃, hfinds, hstops⟩
  split
  · -- the branch ends without a last clause
    cases hfinds with
    | none hpasses' hlooks hends =>
      refine ⟨hc₃, ⟨hpasses.trans (hpasses'.mono fun _ => .inl), hlooks, fun _ => hends⟩, last, ?_,
        hstops⟩
      rwa [hbodies₃]
  · -- a further guarded clause
    have h₃ := InBranch.of_findsClause hopen hpasses hfinds
    refine (ends_onLine (shortens_expect .elifWord) hc₃ h₃.isOn).bind ?_
    rintro _ c₄ hc₄ ⟨hstays₄, -⟩
    have hpast : c₁.IsPast c := .inr ⟨congrArg (·.lines.length) hstays₁.ahead_eq, hfewer⟩
    exact ⟨hc₄, h₃.of_staysOn hstays₄, hstays₄.isPast (isPast_of_findsClause hfinds hpast)⟩
  · -- the last clause
    have h₃ := InBranch.of_findsClause hopen hpasses hfinds
    refine (ends_onLine (shortens_expect .elseWord) hc₃ h₃.isOn).bind ?_
    rintro _ c₄ hc₄ ⟨hstays₄, -⟩
    have h₄ := h₃.of_staysOn hstays₄
    refine (ends_body hblock hc₄ h₄.isOn).bind ?_
    rintro inner' c₅ hc₅ ⟨hinner', last', hlast', hbehind'⟩
    refine (ends_leaveLine hc₅ hbehind').bind ?_
    rintro _ c₆ hc₆ ⟨hbehind₆, hbodies₆, hpasses₆, hstops₆⟩
    refine ⟨hc₆, ⟨?_, hbehind₆.looksAt level, ?_⟩, last', ?_, hstops₆⟩
    · change behind.Passes (OwnedBy level (clauses.append (.otherwise inner')).bodies) c₆.ahead
      rw [Clauses.bodies_append hopen]
      refine (h₄.passes_next (List.subset_append_left _ _)
        (List.mem_append_right _ List.mem_cons_self) hinner').trans ?_
      exact hpasses₆.mono fun _ => .inl
    · intro hopen'
      cases (Clauses.isOpen_append hopen).symm.trans hopen'
    · rwa [hbodies₆]

/-! ### Statements -/

/-- Reading a statement **keeps to its own** lines, of all those behind its first. -/
def KeepsToOwn (level : Nat) (statement : Reading Statement) : Prop :=
  ∀ c line rest, c.IsTrue → c.ahead.lines = line :: rest →
    Ends (fun s c' => s.Owns level c.ahead.next c' ∧
      (c'.bodies = c.bodies ∨ c'.StopsBehindBlock level)) (statement c)

/-- A loop passes its own lines. -/
private theorem ends_loopStatement (hblock : KeepsBelow level block) {keyword : Kind}
    {head : LineContext → List Token → Except Failure (Heading × List Token)}
    (hhead : Shortens head)
    (hcomplete : ∀ cx tokens heading rest, head cx tokens = .ok (heading, rest) →
      ∀ inner, (heading.complete inner).isOpen = false)
    (hc : c.IsTrue) (hon : c.IsOn) :
    Ends (fun s c' => s.Owns level c.ahead.next c' ∧ c'.StopsBehindBlock level)
      (loopStatement room block keyword head c) := by
  refine (ends_onLine (shortens_expect keyword) hc hon).bind ?_
  rintro _ c₁ hc₁ ⟨hstays₁, -⟩
  refine (ends_onLine hhead hc₁ hstays₁.isOn).bind ?_
  rintro heading c₂ hc₂ ⟨hstays₂, -, scanned, -, hheading⟩
  refine (ends_body hblock hc₂ hstays₂.isOn).bind ?_
  rintro inner c₃ hc₃ ⟨-, last, hlast, hbehind⟩
  refine (ends_leaveLine hc₃ hbehind).bind ?_
  rintro _ c₄ hc₄ ⟨hbehind₄, hbodies, hpasses, hstops⟩
  rw [hstays₂.ahead_eq, hstays₁.ahead_eq] at hpasses
  refine ⟨hc₄, ⟨hpasses.mono fun _ => .inl, hbehind₄.looksAt level, ?_⟩, last, ?_, hstops⟩
  · rw [hcomplete _ _ heading _ hheading inner]
    nofun
  · rwa [hbodies]

/-- A simple statement passes its own line. -/
private theorem ends_simpleStatement (hc : c.IsTrue) (hon : c.IsOn) :
    Ends (fun s c' => s.Owns level c.ahead.next c' ∧ c'.bodies = c.bodies)
      (simpleStatement room c) := by
  refine (ends_onLine shortens_simple hc hon).bind ?_
  rintro simple c₁ hc₁ ⟨hstays, hbodies₁, scanned, -, hsimple⟩
  refine (ends_endLine hc₁ hstays.isOn).bind ?_
  rintro _ c₂ hc₂ ⟨hahead, hbehind, hbodies⟩
  rw [hstays.ahead_eq] at hahead
  refine ⟨hc₂, ⟨hahead ▸ .refl _ _, hbehind.looksAt level, ?_⟩, hbodies.trans hbodies₁⟩
  rw [Statement.isOpen_of_readSimple hsimple]
  nofun

/-- A branch passes its own lines, clause after clause. -/
private theorem ends_branchStatement (hblock : KeepsBelow level block) {line : Option Int}
    (hc : c.IsTrue)
    (hon : c.IsOn) :
    Ends (fun s c' => s.Owns level c.ahead.next c' ∧ c'.StopsBehindBlock level)
      (branchStatement room level block line c) := by
  refine (ends_onLine (shortens_expect .ifWord) hc hon).bind ?_
  rintro _ c₁ hc₁ ⟨hstays, -⟩
  exact ends_loop (InBranch level c.ahead.next) (fun _ _ => ends_clause hblock) _ hc₁
    ⟨rfl, hstays.isOn, hstays.ahead_eq ▸ .refl _ _⟩

private theorem keepsToOwn_statementWith (hblock : KeepsBelow level block) :
    KeepsToOwn level (statementWith room level block) := by
  intro c line rest hc hlines
  refine (ends_scan hc hlines).bind ?_
  rintro _ _ hc₁ ⟨hon, scanned, -, rfl⟩
  rw [bind_of_eq_ok _ (current_eq rfl)]
  generalize scanned.current = first
  fun_cases statementFrom room level block first
  · exact (ends_branchStatement hblock hc₁ hon).imp fun _ _ h => h.imp_right .inr
  · refine (ends_loopStatement hblock (shortens_readWhile _) ?_ hc₁ hon).imp
      fun _ _ h => h.imp_right .inr
    intro cx tokens heading rest h inner
    obtain ⟨_, -, hresult⟩ := bind_eq_ok_iff.mp h
    cases hresult
    rfl
  · refine (ends_loopStatement hblock (shortens_readFor _) ?_ hc₁ hon).imp
      fun _ _ h => h.imp_right .inr
    intro cx tokens heading rest h inner
    simp only [Heading.readFor, bind_eq_ok_iff] at h
    obtain ⟨_, -, _, -, _, -, _, -, _, -, hresult⟩ := h
    cases hresult
    rfl
  · exact hc₁
  · exact hc₁
  · exact (ends_simpleStatement hc₁ hon).imp fun _ _ h => h.imp_right .inl

/-! ### Blocks -/

/-- A line with its row is **at** a level or deeper. -/
def IsWithin (level : Nat) (numbered : String × Nat) : Prop :=
  level ≤ Text.indentLevel numbered.1.toList

/-- The lines of a statement at a level are within it. -/
private theorem OwnedBy.isWithin {bodies : List Body} {numbered : String × Nat}
    (h : OwnedBy level bodies numbered) : IsWithin level numbered :=
  h.elim Nat.le_of_lt fun ⟨hindent, _⟩ => Nat.le_of_eq hindent.symm

/-- The end of a block: all its lines are read, and the next one is indented less. -/
structure EndsBlock (level : Nat) (start : Ahead) (c : Cursor) : Prop where
  isBehind : c.IsBehind
  passes : start.Passes (IsWithin level) c.ahead
  stops : ∀ next ∈ c.ahead.first?, Text.indentLevel next.toList < level

/-- Where the reader is in the middle of a block: it has passed lines within the level, and the
branch that was read last, if there is one, does not go on. -/
structure InBlock (level : Nat) (start : Ahead) (before : List Statement) (c : Cursor) : Prop where
  looks : c.LooksAt level
  passes : start.Passes (IsWithin level) c.ahead
  ends : ∀ s ∈ before.head?, s.isOpen = true → c.ahead.EndsBranch level

theorem inBlock_nil (hbehind : c.IsBehind) : InBlock level c.ahead [] c :=
  ⟨hbehind.looksAt level, .refl _ _, nofun⟩

/-- A round of a block reads a statement at its level, or finds a line that is indented less. -/
theorem ends_item {statement : Reading Statement} (hstatement : KeepsToOwn level statement)
    {start : Ahead} {before : List Statement} (hc : c.IsTrue) (h : InBlock level start before c) :
    Ends (fun result c' => result.elim
        (fun before' => InBlock level start before' c' ∧ c'.IsPast c)
        fun _ => EndsBlock level start c')
      (item level statement before c) := by
  have hlooks := h.looks.skipBlank
  have hpasses := h.passes.trans (.skipBlank _ c.ahead)
  change Ends _ (itemAt level statement before c.ahead.skipBlank.lines
    { c with ahead := c.ahead.skipBlank })
  cases hlines : c.ahead.skipBlank.lines with
  | nil =>
    refine ⟨hc, hlooks.isBehind ?_, hpasses, ?_⟩
    · change ∀ next ∈ c.ahead.skipBlank.lines.head?, _
      rw [hlines]
      nofun
    · change ∀ next ∈ c.ahead.skipBlank.lines.find? _, _
      rw [hlines]
      nofun
  | cons line rest =>
    obtain ⟨hline, hfirst⟩ := Ahead.first?_of_skipBlank hlines
    rw [itemAt]
    split
    · next hless =>
      refine ⟨hc, hlooks.isBehind ?_, hpasses, ?_⟩
      · change ∀ next ∈ c.ahead.skipBlank.lines.head?, _
        rw [hlines]
        rintro _ ⟨⟩
        exact Nat.ne_of_lt hless
      · change ∀ next ∈ c.ahead.skipBlank.first?, _
        rw [Ahead.first?_skipBlank, hfirst]
        rintro _ ⟨⟩
        exact hless
    · split
      · exact hc
      · next hle hge =>
        have hindent := Nat.le_antisymm (Nat.le_of_not_lt hge) (Nat.le_of_not_lt hle)
        refine (hstatement { c with ahead := c.ahead.skipBlank } line rest hc hlines).bind ?_
        rintro s c' hc' ⟨howns, -⟩
        have hnext : start.Passes (IsWithin level) c.ahead.skipBlank.next :=
          hpasses.trans (.next hlines (Nat.le_of_eq hindent.symm))
        refine ⟨hc', ⟨howns.looks, hnext.trans (howns.passes.mono fun _ => OwnedBy.isWithin), ?_⟩,
          .inl ?_⟩
        · rintro _ ⟨⟩
          exact howns.ends
        have hle := howns.passes.length_le
        have hskip := (Ahead.Passes.skipBlank (IsWithin level) c.ahead).length_le
        rw [hlines, List.length_cons] at hskip
        rw [Ahead.next, hlines, List.tail_cons] at hle
        exact Nat.lt_of_le_of_lt hle hskip

/-- Statements at a level are read up to the first line that is indented less. -/
private theorem ends_items {statement : Reading Statement} (hstatement : KeepsToOwn level statement)
    (hc : c.IsTrue) (hbehind : c.IsBehind) :
    Ends (fun _ c' => EndsBlock level c.ahead c') (loop (item level statement) [] c) :=
  ends_loop (InBlock level c.ahead) (fun _ _ => ends_item hstatement) _ hc (inBlock_nil hbehind)

/-- Blocks keep to the lines below their heading, whatever room there is for them. -/
theorem keepsBelow_block (room level : Nat) : KeepsBelow level (Reading.block room level) := by
  intro c hc hbehind
  induction room generalizing level c with
  | zero => exact hc
  | succ room ih =>
    have hstatement : KeepsToOwn (level + 1) (statement room (level + 1)) :=
      keepsToOwn_statementWith fun c hc hbehind => ih (level + 1) c hc hbehind
    rw [Reading.block, statements_eq]
    refine (ends_items hstatement hc hbehind).imp fun _ c' h => ⟨h.isBehind, h.passes, ?_⟩
    exact fun next hnext => Nat.le_of_lt_succ (h.stops next hnext)

/-- **Every statement keeps to its own lines.** -/
theorem keepsToOwn_statement (room level : Nat) : KeepsToOwn level (statement room level) :=
  keepsToOwn_statementWith (keepsBelow_block room level)

end Reading

end Offside

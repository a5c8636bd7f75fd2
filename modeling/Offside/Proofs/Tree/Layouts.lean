import Offside.Proofs.Token.Joined
import Offside.Proofs.Tree.Clauses
import Offside.Proofs.Tree.Plain

/-!
# Layouts of trees

A program can be written in more than one way. A body that is one simple statement may stand
behind its colon or on a line of its own, and a clause behind such an **inline** body may go on
with the line or begin a new one. A **layout** of a program says for each of its rows how deep it
is indented and which phrases stand on it; `Program.layouts` lists all of them.

How deeply a row is nested is its depth and, on top of that, the nesting of its deepest
expression. Behind a colon a body does not add to the depth of its row.
-/

namespace Offside

/-! ### The nesting of phrases -/

/-- How deeply a condition is nested. -/
def Condition.nesting : Condition → Nat
  | compare _ _ left right => max (left.nesting true) (right.nesting true)
  | misplaced _ => 0

namespace Phrase

/-- How deeply a phrase is nested: as deeply as the deepest of its expressions. -/
def nesting : Phrase → Nat
  | assign _ value | display value => value.nesting true
  | input _ | elseHead => 0
  | ifHead condition | elifHead condition | whileHead condition => condition.nesting
  | forHead _ first last => max (first.nesting true) (last.nesting true)

/-- How deeply phrases on one row are nested. -/
def nestingOf : List Phrase → Nat
  | [] => 0
  | phrase :: phrases => max phrase.nesting (nestingOf phrases)

theorem nesting_guardHead (isFirst : Bool) (condition : Condition) :
    (guardHead isFirst condition).nesting = condition.nesting := by
  cases isFirst <;> rfl

theorem nestingOf_append (front back : List Phrase) :
    nestingOf (front ++ back) = max (nestingOf front) (nestingOf back) := by
  induction front with
  | nil => exact (Nat.zero_max _).symm
  | cons phrase phrases ih => rw [List.cons_append, nestingOf, ih, nestingOf, Nat.max_assoc]

end Phrase

/-! ### Rows -/

/-- A row of a layout: how deep it is indented, and its phrases. -/
structure Row where
  depth : Nat
  phrases : List Phrase
  deriving DecidableEq, Repr

namespace Row

/-- The words of a row. -/
def words (row : Row) : List Word :=
  row.phrases.flatMap Phrase.words

/-- The text of a row: a tab for each level, and the words with spaces between them. -/
def text (row : Row) : String :=
  String.ofList (Word.tabbed row.depth row.words)

/-- How deeply a row is nested. -/
def nesting (row : Row) : Nat :=
  row.depth + Phrase.nestingOf row.phrases

/-- How deeply rows are nested. -/
def nestingOf : List Row → Nat
  | [] => 0
  | row :: rows => max row.nesting (nestingOf rows)

/-- Whether a row can be written: there are phrases on it, and they are well formed. -/
def isWellFormed (row : Row) : Bool :=
  !row.phrases.isEmpty && row.phrases.all Phrase.isWellFormed

/-- The words of a row that can be written are plain. -/
theorem isPlain_of_mem_words (row : Row) (h : row.isWellFormed = true) :
    ∀ word ∈ row.words, word.IsPlain := by
  intro word hword
  obtain ⟨phrase, hphrase, hword⟩ := List.mem_flatMap.mp hword
  obtain ⟨-, hall⟩ := Bool.and_eq_true_iff.mp h
  exact Phrase.isPlain_of_mem_words (List.all_eq_true.mp hall phrase hphrase) word hword

theorem words_ne_nil (row : Row) (h : row.isWellFormed = true) : row.words ≠ [] := by
  obtain ⟨hne, -⟩ := Bool.and_eq_true_iff.mp h
  rw [words]
  cases hphrases : row.phrases with
  | nil => simp [hphrases] at hne
  | cons phrase phrases => cases phrase <;> exact List.cons_ne_nil _ _

theorem nestingOf_append (front back : List Row) :
    nestingOf (front ++ back) = max (nestingOf front) (nestingOf back) := by
  induction front with
  | nil => exact (Nat.zero_max _).symm
  | cons row rows ih => rw [List.cons_append, nestingOf, ih, nestingOf, Nat.max_assoc]

end Row

/-! ### Layouts -/

/-- The layout of a part of a program that begins in the middle of a row: the phrases that go on
with the row, and the rows below. -/
structure Layout where
  front : List Phrase
  below : List Row
  deriving DecidableEq, Repr

namespace Layout

/-- A layout with a phrase in front. -/
def behind (phrase : Phrase) (layout : Layout) : Layout :=
  ⟨phrase :: layout.front, layout.below⟩

/-- The layouts of a guarded clause and what follows it in its branch: further clauses begin a
row of their own, or go on with the row of an inline body. -/
def join (depth : Nat) (head : Phrase) (body more : Layout) : List Layout :=
  if more.front.isEmpty then [body.behind head]
  else
    ⟨head :: body.front, body.below ++ ⟨depth, more.front⟩ :: more.below⟩ ::
      if body.front.isEmpty then [] else [⟨head :: (body.front ++ more.front), more.below⟩]

theorem mem_join {depth : Nat} {head : Phrase} {body more layout : Layout}
    (h : layout ∈ join depth head body more) :
    (more.front = [] ∧ layout = body.behind head) ∨
      more.front ≠ [] ∧
        (layout = ⟨head :: body.front, body.below ++ ⟨depth, more.front⟩ :: more.below⟩ ∨
          body.front ≠ [] ∧ layout = ⟨head :: (body.front ++ more.front), more.below⟩) := by
  unfold join at h
  split at h
  · next hmore => exact .inl ⟨List.isEmpty_iff.mp hmore, List.mem_singleton.mp h⟩
  · next hmore =>
    refine .inr ⟨fun hnil => hmore (List.isEmpty_iff.mpr hnil), ?_⟩
    rcases List.mem_cons.mp h with h | h
    · exact .inl h
    · split at h
      · cases h
      · next hbody =>
        exact .inr ⟨fun hnil => hbody (List.isEmpty_iff.mpr hnil), List.mem_singleton.mp h⟩

theorem exists_front_of_mem_join {depth : Nat} {head : Phrase} {body more layout : Layout}
    (h : layout ∈ join depth head body more) : ∃ phrases, layout.front = head :: phrases := by
  rcases mem_join h with ⟨-, rfl⟩ | ⟨-, rfl | ⟨-, rfl⟩⟩
  · exact ⟨_, rfl⟩
  · exact ⟨_, rfl⟩
  · exact ⟨_, rfl⟩

end Layout

/-- The phrase of a simple statement. -/
def Statement.simple? : Statement → Option Phrase
  | .assign _ name value => some (.assign name value)
  | .display _ value => some (.display value)
  | .input _ name => some (.input name)
  | _ => none

/-- The layout of statements as an inline body: there is just one, and it is simple. -/
def Statement.inline? : List Statement → Option Layout
  | [statement] => statement.simple?.map fun phrase => ⟨[phrase], []⟩
  | _ => none

mutual

/-- The layouts of a statement on rows of the given depth. -/
def Statement.layouts (depth : Nat) : Statement → List Layout
  | .assign _ name value => [⟨[.assign name value], []⟩]
  | .display _ value => [⟨[.display value], []⟩]
  | .input _ name => [⟨[.input name], []⟩]
  | .branch _ clauses => clauses.layouts depth true
  | .whileLoop _ condition body => (body.layouts depth).map (.behind (.whileHead condition))
  | .forLoop _ name first last body =>
    (body.layouts depth).map (.behind (.forHead name first last))
  | .block _ | .misplaced .. => []

/-- The layouts of clauses, the first of which may be the first of its branch. -/
def Clauses.layouts (depth : Nat) (isFirst : Bool) : Clauses → List Layout
  | .done => [⟨[], []⟩]
  | .otherwise body => (body.layouts depth).map (.behind .elseHead)
  | .guarded condition body rest =>
    (body.layouts depth).flatMap fun first =>
      (rest.layouts depth false).flatMap fun more =>
        Layout.join depth (.guardHead isFirst condition) first more

/-- The layouts of a body behind the colon of a row of the given depth. -/
def Body.layouts (depth : Nat) : Body → List Layout
  | .mk _ statements =>
    (Statement.inline? statements).toList ++
      (Statement.layoutsOf (depth + 1) statements).map fun rows => ⟨[], rows⟩

/-- The layouts of statements on rows of the given depth. -/
def Statement.layoutsOf (depth : Nat) : List Statement → List (List Row)
  | [] => [[]]
  | statement :: rest =>
    (statement.layouts depth).flatMap fun first =>
      (Statement.layoutsOf depth rest).map fun more => ⟨depth, first.front⟩ :: (first.below ++ more)

end

/-- The layouts of a program. -/
def Program.layouts (program : Program) : List (List Row) :=
  Statement.layoutsOf 0 program.statements

/-! ### Layouts of well-formed trees can be written -/

/-- What stands behind a head can be written, on the row and below. -/
structure Layout.Continues (layout : Layout) : Prop where
  front : ∀ phrase ∈ layout.front, phrase.isWellFormed = true
  below : ∀ row ∈ layout.below, row.isWellFormed = true

/-- A layout is well formed when it goes on with the row, and all of it can be written. -/
structure Layout.IsWellFormed (layout : Layout) : Prop extends layout.Continues where
  front_ne : layout.front ≠ []

/-- The row that a well-formed layout begins with is well formed. -/
theorem Layout.IsWellFormed.row {layout : Layout} (h : layout.IsWellFormed) (depth : Nat) :
    Row.isWellFormed ⟨depth, layout.front⟩ = true := by
  rw [Row.isWellFormed, Bool.and_eq_true, Bool.not_eq_true', List.isEmpty_eq_false_iff,
    List.all_eq_true]
  exact ⟨h.front_ne, h.front⟩

private theorem Layout.Continues.behind {layout : Layout} (h : layout.Continues) {phrase : Phrase}
    (hphrase : phrase.isWellFormed = true) : (layout.behind phrase).IsWellFormed :=
  ⟨⟨List.forall_mem_cons.mpr ⟨hphrase, h.front⟩, h.below⟩, List.cons_ne_nil _ _⟩

private theorem Layout.isWellFormed_of_mem_join {depth : Nat} {head : Phrase}
    {body more layout : Layout}
    (hhead : head.isWellFormed = true) (hbody : body.Continues) (hmore : more.Continues)
    (h : layout ∈ join depth head body more) : layout.IsWellFormed := by
  rcases mem_join h with ⟨-, rfl⟩ | ⟨hne, rfl | ⟨-, rfl⟩⟩
  · exact hbody.behind hhead
  · have hrow : Layout.IsWellFormed ⟨more.front, more.below⟩ := ⟨hmore, hne⟩
    exact ⟨⟨List.forall_mem_cons.mpr ⟨hhead, hbody.front⟩, List.forall_mem_append.mpr
      ⟨hbody.below, List.forall_mem_cons.mpr ⟨hrow.row depth, hmore.below⟩⟩⟩, List.cons_ne_nil _ _⟩
  · exact ⟨⟨List.forall_mem_cons.mpr ⟨hhead, List.forall_mem_append.mpr
      ⟨hbody.front, hmore.front⟩⟩, hmore.below⟩, List.cons_ne_nil _ _⟩

/-- The layouts of clauses go on with the row, unless there are no clauses. -/
theorem Clauses.front_ne_of_mem_layouts {clauses : Clauses} {depth : Nat} {isFirst : Bool}
    {layout : Layout} (hclauses : clauses ≠ .done) (h : layout ∈ clauses.layouts depth isFirst) :
    layout.front ≠ [] := by
  cases clauses with
  | done => exact absurd rfl hclauses
  | otherwise body =>
    obtain ⟨inner, -, rfl⟩ := List.mem_map.mp h
    exact List.cons_ne_nil _ _
  | guarded condition body rest =>
    obtain ⟨first, -, h⟩ := List.mem_flatMap.mp h
    obtain ⟨more, -, h⟩ := List.mem_flatMap.mp h
    obtain ⟨phrases, hfront⟩ := Layout.exists_front_of_mem_join h
    rw [hfront]
    exact List.cons_ne_nil _ _

private theorem Statement.isWellFormed_of_simple? {statement : Statement} {phrase : Phrase}
    (hs : statement.isWellFormed = true) (h : statement.simple? = some phrase) :
    phrase.isWellFormed = true := by
  cases statement <;> cases h <;> exact hs

/-- An inline body is one simple statement. -/
theorem Statement.exists_of_inline? {statements : List Statement} {layout : Layout}
    (h : inline? statements = some layout) :
    ∃ statement phrase, statements = [statement] ∧ statement.simple? = some phrase ∧
      layout = ⟨[phrase], []⟩ := by
  unfold inline? at h
  split at h
  · next statement =>
    obtain ⟨phrase, hphrase, rfl⟩ := Option.map_eq_some_iff.mp h
    exact ⟨statement, phrase, rfl, hphrase, rfl⟩
  · cases h

/-- Only an inline body goes on with the row of its colon. -/
theorem Body.exists_of_front_ne {depth : Nat} {body : Body} {layout : Layout}
    (h : layout ∈ body.layouts depth) (hne : layout.front ≠ []) :
    ∃ line statement phrase, body = .mk line [statement] ∧ statement.simple? = some phrase ∧
      layout = ⟨[phrase], []⟩ := by
  obtain ⟨line, statements⟩ := body
  rcases List.mem_append.mp h with hinline | hindented
  · obtain ⟨statement, phrase, rfl, hsimple, rfl⟩ :=
      Statement.exists_of_inline? (Option.mem_toList.mp hinline)
    exact ⟨line, statement, phrase, rfl, hsimple, rfl⟩
  · obtain ⟨rows, -, rfl⟩ := List.mem_map.mp hindented
    exact absurd rfl hne

private theorem Statement.continues_of_inline? {statements : List Statement} {layout : Layout}
    (hs : areWellFormed statements = true) (h : inline? statements = some layout) :
    layout.Continues := by
  obtain ⟨statement, phrase, rfl, hphrase, rfl⟩ := exists_of_inline? h
  have hstatement := areWellFormed_iff.mp hs statement List.mem_cons_self
  exact ⟨List.forall_mem_singleton.mpr (isWellFormed_of_simple? hstatement hphrase), nofun⟩

mutual

theorem Statement.isWellFormed_of_mem_layouts {depth : Nat} {layout : Layout} :
    ∀ {statement : Statement}, statement.isWellFormed = true → layout ∈ statement.layouts depth →
      layout.IsWellFormed
  | .assign _ name value, hs, h => by
    obtain rfl := List.mem_singleton.mp h
    exact ⟨⟨List.forall_mem_singleton.mpr hs, nofun⟩, List.cons_ne_nil _ _⟩
  | .display _ value, hs, h => by
    obtain rfl := List.mem_singleton.mp h
    exact ⟨⟨List.forall_mem_singleton.mpr hs, nofun⟩, List.cons_ne_nil _ _⟩
  | .input _ name, hs, h => by
    obtain rfl := List.mem_singleton.mp h
    exact ⟨⟨List.forall_mem_singleton.mpr hs, nofun⟩, List.cons_ne_nil _ _⟩
  | .branch _ clauses, hs, h => by
    obtain ⟨hguarded, hclauses⟩ := Bool.and_eq_true_iff.mp hs
    exact ⟨Clauses.continues_of_mem_layouts hclauses h,
      Clauses.front_ne_of_mem_layouts (by rintro rfl; cases hguarded) h⟩
  | .whileLoop _ condition body, hs, h => by
    obtain ⟨hcondition, hbody⟩ := Bool.and_eq_true_iff.mp hs
    obtain ⟨inner, hinner, rfl⟩ := List.mem_map.mp h
    exact (Body.continues_of_mem_layouts hbody hinner).behind hcondition
  | .forLoop _ name first last body, hs, h => by
    obtain ⟨hhead, hbody⟩ := Bool.and_eq_true_iff.mp hs
    obtain ⟨inner, hinner, rfl⟩ := List.mem_map.mp h
    exact (Body.continues_of_mem_layouts hbody hinner).behind hhead

theorem Clauses.continues_of_mem_layouts {depth : Nat} {isFirst : Bool} {layout : Layout} :
    ∀ {clauses : Clauses}, clauses.isWellFormed = true → layout ∈ clauses.layouts depth isFirst →
      layout.Continues
  | .done, _, h => by
    obtain rfl := List.mem_singleton.mp h
    exact ⟨nofun, nofun⟩
  | .otherwise body, hs, h => by
    obtain ⟨inner, hinner, rfl⟩ := List.mem_map.mp h
    have hhead : Phrase.elseHead.isWellFormed = true := rfl
    exact ((Body.continues_of_mem_layouts hs hinner).behind hhead).toContinues
  | .guarded condition body rest, hs, h => by
    simp only [Clauses.isWellFormed, Bool.and_eq_true] at hs
    obtain ⟨⟨hcondition, hbody⟩, hrest⟩ := hs
    obtain ⟨first, hfirst, h⟩ := List.mem_flatMap.mp h
    obtain ⟨more, hmore, h⟩ := List.mem_flatMap.mp h
    have hhead : (Phrase.guardHead isFirst condition).isWellFormed = true := by
      cases isFirst <;> exact hcondition
    exact (Layout.isWellFormed_of_mem_join hhead (Body.continues_of_mem_layouts hbody hfirst)
      (Clauses.continues_of_mem_layouts hrest hmore) h).toContinues

theorem Body.continues_of_mem_layouts {depth : Nat} {layout : Layout} :
    ∀ {body : Body}, body.isWellFormed = true → layout ∈ body.layouts depth → layout.Continues
  | .mk _ statements, hs, h => by
    obtain ⟨-, hstatements⟩ := Bool.and_eq_true_iff.mp hs
    rcases List.mem_append.mp h with h | h
    · exact Statement.continues_of_inline? hstatements (Option.mem_toList.mp h)
    · obtain ⟨rows, hrows, rfl⟩ := List.mem_map.mp h
      exact ⟨nofun, Statement.isWellFormed_of_mem_layoutsOf hstatements hrows⟩

theorem Statement.isWellFormed_of_mem_layoutsOf {depth : Nat} {rows : List Row} :
    ∀ {statements : List Statement}, Statement.areWellFormed statements = true →
      rows ∈ Statement.layoutsOf depth statements → ∀ row ∈ rows, row.isWellFormed = true
  | [], _, h => by
    obtain rfl := List.mem_singleton.mp h
    exact nofun
  | statement :: rest, hs, h => by
    obtain ⟨hstatement, hrest⟩ := Bool.and_eq_true_iff.mp hs
    obtain ⟨first, hfirst, h⟩ := List.mem_flatMap.mp h
    obtain ⟨more, hmore, rfl⟩ := List.mem_map.mp h
    have hlayout := Statement.isWellFormed_of_mem_layouts hstatement hfirst
    exact List.forall_mem_cons.mpr ⟨hlayout.row depth, List.forall_mem_append.mpr
      ⟨hlayout.below, Statement.isWellFormed_of_mem_layoutsOf hrest hmore⟩⟩

end

end Offside

import Offside.Proofs.Failing
import Offside.Proofs.Source.Expression
import Offside.Proofs.Tree.Layouts
import Offside.Source.Line

/-!
# Reading what is spelled

The words of a part of a line read as that part, on the row of the line, as far as there is room
for its nesting; where there is not, the line is refused for just that. Both outcomes are stated
at once by `Fits`, which is kept in sequence (`Fits.bind`): what comes first and what follows fit
together when the deeper of the two does.
-/

namespace Offside

/-! ### Computations that need room -/

section Fits

variable {α β : Type}

/-- A computation **fits** with its nesting when it succeeds with a result of the given kind if
there is room for the nesting, and complains about the nesting if there is not. -/
structure Fits (room nesting : Nat) (result : Except Failure α) (post : α → Prop) : Prop where
  granted : nesting ≤ room → ∃ a, result = .ok a ∧ post a
  refused : room < nesting → result = .error (.unplaced .nestedTooDeeplyToRead)

namespace Fits

variable {room n m : Nat} {first : Except Failure α} {next : α → Except Failure β}
  {post : α → Prop} {post' : β → Prop}

theorem ok_of_le {a : α} (hroom : n ≤ room) (h : post a) : Fits room n (.ok a) post where
  granted _ := ⟨a, rfl, h⟩
  refused hdeep := absurd hroom (Nat.not_le.mpr hdeep)

theorem ok {a : α} (h : post a) : Fits room 0 (.ok a) post :=
  ok_of_le (Nat.zero_le room) h

private theorem of_eq_ite {a : α} (h : first =
    if n ≤ room then .ok a else .error (.unplaced .nestedTooDeeplyToRead)) :
    Fits room n first (· = a) where
  granted hn := ⟨a, by rw [h, if_pos hn], rfl⟩
  refused hn := by rw [h, if_neg (Nat.not_le.mpr hn)]

/-- A sequence takes the room of the part that takes most. -/
theorem bind (h : Fits room n first post) (hnext : ∀ a, post a → Fits room m (next a) post') :
    Fits room (max n m) (first >>= next) post' where
  granted hfits := by
    obtain ⟨a, rfl, ha⟩ := h.granted (by omega)
    exact (hnext a ha).granted (by omega)
  refused hdeep := by
    by_cases hn : n ≤ room
    · obtain ⟨a, rfl, ha⟩ := h.granted hn
      exact (hnext a ha).refused (by omega)
    · rw [h.refused (by omega)]
      rfl

/-- A computation that fits, with something behind it that takes no room. -/
theorem bind_ok (h : Fits room n first post)
    (hnext : ∀ a, post a → ∃ b, next a = .ok b ∧ post' b) : Fits room n (first >>= next) post' := by
  rw [← Nat.max_zero n]
  refine h.bind fun a ha => ?_
  obtain ⟨b, hb, hpost⟩ := hnext a ha
  rw [hb]
  exact ok hpost

theorem imp {post'' : α → Prop} (h : Fits room n first post) (himp : ∀ a, post a → post'' a) :
    Fits room n first post'' where
  granted hn := by
    obtain ⟨a, ha, hpost⟩ := h.granted hn
    exact ⟨a, ha, himp a hpost⟩
  refused := h.refused

/-- Only whether there is room matters, not how much. -/
theorem of_iff {room' : Nat} (h : Fits room n first post) (hiff : n ≤ room ↔ m ≤ room') :
    Fits room' m first post where
  granted hm := h.granted (hiff.mpr hm)
  refused hm := h.refused (by omega)

end Fits

end Fits

/-! ### Conditions and simple statements -/

/-- A condition with all its nodes on one row. -/
def Condition.onRow (row : Nat) (c : Condition) : Condition :=
  c.mapLine fun _ => some row

/-- A statement with all its nodes on one row. -/
def Statement.onRow (row : Nat) (s : Statement) : Statement :=
  s.mapLine fun _ => some row

theorem Condition.unlined_onRow (c : Condition) (row : Nat) : (c.onRow row).unlined = c.unlined :=
  Condition.unlined_mapLine _ c

/-- A simple statement is moved to a row by its lines alone. -/
theorem Statement.unlined_onRow {s : Statement} {phrase : Phrase} (h : s.simple? = some phrase)
    (row : Nat) : (s.onRow row).unlined = s.unlined := by
  cases s with
  | assign line name value => exact congrArg (assign none name) (Expr.unlined_mapLine _ value)
  | display line value => exact congrArg (display none) (Expr.unlined_mapLine _ value)
  | input line name => rfl
  | branch | whileLoop | forLoop | block | misplaced => cases h

/-- A relation of the language has a word, and the kinds of tokens with that word stand for it. -/
private theorem Relation.exists_word {relation : Relation} (h : relation.isKnown = true) :
    ∃ word, relation.words = [word] ∧ ∀ found : Word, found.normal = word →
      ofKind? found.kind = some relation ∧ Operator.ofKind? found.kind = none := by
  have hkind : ∀ kind, kind ≠ .eq → ofKind? kind = some relation → Operator.ofKind? kind = none →
      ∀ found : Word, found.normal = .fixed kind →
        ofKind? found.kind = some relation ∧ Operator.ofKind? found.kind = none := by
    intro kind hne hrelation hoperator found hfound
    rw [Word.kind_of_fixed hfound hne]
    exact ⟨hrelation, hoperator⟩
  cases relation with
  | lt => exact ⟨_, rfl, hkind .lt (by decide) rfl rfl⟩
  | le => exact ⟨_, rfl, hkind .le (by decide) rfl rfl⟩
  | gt => exact ⟨_, rfl, hkind .gt (by decide) rfl rfl⟩
  | ge => exact ⟨_, rfl, hkind .ge (by decide) rfl rfl⟩
  | ne => exact ⟨_, rfl, hkind .ne (by decide) rfl rfl⟩
  | eq =>
    refine ⟨_, rfl, fun found hfound => ?_⟩
    -- the one relation with two spellings
    have hnormal : found.normal.kind = .eq := congrArg Word.kind hfound
    rw [Word.kind_normal] at hnormal
    split at hnormal
    · next heq => rw [heq]; exact ⟨rfl, rfl⟩
    · rw [hnormal]; exact ⟨rfl, rfl⟩
  | unknown symbol => cases h

section Simple

variable {cx : LineContext} {row : Nat} {tokens rest : List Token}

theorem LineContext.expect_cons {kind : Kind} {token : Token} (h : token.kind = kind) :
    cx.expect kind (token :: rest) = .ok (token, rest) :=
  if_pos h

/-- Behind an expression there is no operator when the first token there is of another kind. -/
theorem Token.operator_of_kind {token : Token} {kind : Kind} (h : token.kind = kind)
    (hkind : Operator.ofKind? kind = none) :
    ∀ found ∈ (token :: rest).head?, Operator.ofKind? found.kind = none := by
  rintro found ⟨⟩
  rw [h, hkind]

/-- The words of a well-formed expression are read as that expression, on their row. -/
theorem Expr.fits_read {e : Expr} (he : e.isWellFormed = true)
    (hspells : Spells row tokens e.words)
    (hrest : ∀ token ∈ rest.head?, Operator.ofKind? token.kind = none) :
    Fits cx.room (e.nesting true) (Expr.read cx (tokens ++ rest)) (· = (e.onRow row, rest)) :=
  .of_eq_ite (read_spelling he hspells hrest)

/-- A condition is read as an expression, a relation and another expression. -/
theorem Condition.read_eq_bind :
    Condition.read cx tokens = (do
      let (left, behind) ← Expr.read cx tokens
      match Relation.ofKind? (cx.current behind).kind with
      | none =>
        .error (.atToken (.expectedRelation (cx.current behind).toWord) (cx.current behind))
      | some relation => do
        let (right, rest) ← Expr.read cx behind.tail
        return (.compare (some (cx.current behind).row) relation left right, rest)) := by
  rw [Condition.read]
  cases Expr.read cx tokens with
  | error failure => rfl
  | ok result =>
    obtain ⟨left, behind⟩ := result
    cases hrelation : Relation.ofKind? (cx.current behind).kind with
    | none => simp [bind, Except.bind, hrelation]
    | some relation =>
      cases hright : Expr.read cx behind.tail <;>
        simp [bind, Except.bind, pure, Except.pure, hrelation, hright]

/-- The words of a well-formed condition are read as that condition, on their row. -/
theorem Condition.fits_read {c : Condition} (hc : c.isWellFormed = true)
    (hspells : Spells row tokens c.words)
    (hrest : ∀ token ∈ rest.head?, Operator.ofKind? token.kind = none) :
    Fits cx.room c.nesting (Condition.read cx (tokens ++ rest)) (· = (c.onRow row, rest)) := by
  cases c with
  | compare line relation left right =>
    simp only [isWellFormed, Bool.and_eq_true] at hc
    obtain ⟨⟨hknown, hleft⟩, hright⟩ := hc
    obtain ⟨word, hwords, hkinds⟩ := Relation.exists_word hknown
    obtain ⟨front, back, rfl, hfront, hback⟩ := hspells.append
    rw [hwords] at hback
    obtain ⟨sign, back, rfl, hword, hsign, hback⟩ := hback.cons
    obtain ⟨hrelation, hoperator⟩ := hkinds sign.toWord hword
    rw [Condition.read_eq_bind, List.append_assoc, List.cons_append]
    refine (Expr.fits_read hleft hfront ?_).bind ?_
    · rintro token ⟨⟩
      exact hoperator
    · rintro _ rfl
      simp only [LineContext.current, List.headD_cons, List.tail_cons, hrelation, hsign.row_eq]
      refine (Expr.fits_read hright hback hrest).bind_ok ?_
      rintro _ rfl
      exact ⟨_, rfl, rfl⟩
  | misplaced form => cases hc

/-- The words of a simple statement read as the statement. -/
theorem Statement.fits_readSimple {s : Statement} {phrase : Phrase} (hs : s.isWellFormed = true)
    (hsimple : s.simple? = some phrase) (hspells : Spells row tokens phrase.words)
    (hrest : ∀ token ∈ rest.head?, Operator.ofKind? token.kind = none) :
    Fits cx.room phrase.nesting (Statement.readSimple cx (tokens ++ rest))
      (· = (s.onRow row, rest)) := by
  cases s with
  | assign line name value =>
    cases hsimple
    obtain ⟨hname, hvalue⟩ := Bool.and_eq_true_iff.mp hs
    obtain ⟨first, tokens, rfl, hfirst, hrow, hspells⟩ := hspells.cons
    obtain ⟨identifier, tokens, rfl, hidentifier, -, hspells⟩ := hspells.cons
    obtain ⟨sign, tokens, rfl, hsign, -, hspells⟩ := hspells.cons
    obtain ⟨hkind, hlexeme⟩ := Word.of_normal_eq_name hidentifier
    simp only [Statement.readSimple, LineContext.current, List.cons_append, List.headD_cons,
      Word.kind_of_fixed hfirst (by decide), List.tail_cons, LineContext.expect_cons hkind, ok_bind,
      LineContext.expect_cons (Word.kind_of_fixed hsign (by decide)), hrow.row_eq, hlexeme]
    refine (Expr.fits_read hvalue hspells hrest).bind_ok ?_
    rintro _ rfl
    exact ⟨_, rfl, rfl⟩
  | display line value =>
    cases hsimple
    obtain ⟨first, tokens, rfl, hfirst, hrow, hspells⟩ := hspells.cons
    simp only [Statement.readSimple, LineContext.current, List.cons_append, List.headD_cons,
      Word.kind_of_fixed hfirst (by decide), List.tail_cons, hrow.row_eq]
    refine (Expr.fits_read hs hspells hrest).bind_ok ?_
    rintro _ rfl
    exact ⟨_, rfl, rfl⟩
  | input line name =>
    cases hsimple
    obtain ⟨first, tokens, rfl, hfirst, hrow, hspells⟩ := hspells.cons
    obtain ⟨identifier, tokens, rfl, hidentifier, -, hspells⟩ := hspells.cons
    obtain rfl := hspells.nil
    obtain ⟨hkind, hlexeme⟩ := Word.of_normal_eq_name hidentifier
    simp only [Statement.readSimple, LineContext.current, List.cons_append, List.headD_cons,
      Word.kind_of_fixed hfirst (by decide), List.tail_cons, List.nil_append,
      LineContext.expect_cons hkind, ok_bind, hrow.row_eq, hlexeme]
    exact .ok rfl
  | branch | whileLoop | forLoop | block | misplaced => cases hsimple

/-! ### Behind a colon -/

/-- Behind a colon at the end of a line there is no inline body. -/
theorem Body.readInline_colon {colon : Token} (hcolon : colon.kind = .colon)
    (hstop : cx.stop.kind = .endOfLine) : Body.readInline cx [colon] = .ok (colon, none) := by
  simp [Body.readInline, LineContext.expect_cons hcolon, ok_bind, LineContext.current, hstop,
    LineContext.finish, pure, Except.pure]

/-- The words of a simple statement behind a colon read as an inline body. -/
theorem Body.fits_readInline {colon : Token} {s : Statement} {phrase : Phrase}
    (hcolon : colon.kind = .colon) (hs : s.isWellFormed = true)
    (hsimple : s.simple? = some phrase) (hspells : Spells row tokens phrase.words)
    (hrest : ∀ token ∈ rest.head?, Operator.ofKind? token.kind = none) :
    Fits cx.room phrase.nesting (Body.readInline cx (colon :: (tokens ++ rest)))
      (· = (colon, some (.mk (some colon.row) [s.onRow row], rest))) := by
  have hsome : (cx.current (tokens ++ rest)).kind ≠ .endOfLine := by
    cases tokens with
    | nil =>
      have hnil : phrase.words = [] := hspells.words_eq.symm
      cases phrase <;> cases hnil
    | cons token tokens =>
      intro hkind
      have hword : token.toWord.normal ∈ phrase.words := hspells.words_eq ▸ List.mem_cons_self
      refine Phrase.kind_ne_of_mem_words hword ?_
      rw [Word.kind_normal]
      exact (if_neg (by rw [show token.kind = .endOfLine from hkind]; decide)).trans hkind
  simp only [Body.readInline, LineContext.expect_cons hcolon, ok_bind, if_neg hsome]
  refine (Statement.fits_readSimple hs hsimple hspells hrest).bind_ok ?_
  rintro _ rfl
  exact ⟨_, rfl, rfl⟩

end Simple

end Offside

import Offside.Proofs.Source.ReadsBack

/-!
# What reading a line blames

Where a line cannot be read, the fault is one of its tokens: one that the grammar does not allow
there, which may be the token that ends the line, or a literal of too many digits. The only other
reason is nesting (`Blames`). And where a line is read as a heading, the colon of that is a token of
the line, so that it can be blamed later, for a block that is missing (`LineContent.blames_read`).
-/

namespace Offside

/-! ### Results that abide -/

/-- A result **abides** by what may go wrong and by what may come out. -/
def Abides {α : Type} (wrong : Failure → Prop) (right : α → Prop) : Except Failure α → Prop
  | .error failure => wrong failure
  | .ok a => right a

namespace Abides

variable {α β : Type} {wrong : Failure → Prop} {middle : α → Prop} {right : β → Prop}

/-- A sequence abides if its parts do, the second with what the first can make. -/
private theorem bind {first : Except Failure α} {next : α → Except Failure β}
    (hfirst : Abides wrong middle first) (hnext : ∀ a, middle a → Abides wrong right (next a)) :
    Abides wrong right (first >>= next) := by
  cases first with
  | error failure => exact hfirst
  | ok a => exact hnext a hfirst

private theorem map {first : Except Failure α} {f : α → β} (hfirst : Abides wrong middle first)
    (hf : ∀ a, middle a → right (f a)) : Abides wrong right (first.map f) := by
  cases first with
  | error failure => exact hfirst
  | ok a => exact hf a hfirst

theorem of_eq_error {first : Except Failure α} {failure : Failure}
    (h : Abides wrong middle first) (hfirst : first = .error failure) : wrong failure := by
  rw [hfirst] at h
  exact h

theorem of_eq_ok {first : Except Failure α} {a : α} (h : Abides wrong middle first)
    (hfirst : first = .ok a) : middle a := by
  rw [hfirst] at h
  exact h

end Abides

/-! ### Blame -/

/-- The causes of complaints about single tokens. -/
def Cause.isOfToken : Cause → Bool
  | expected .. | expectedOperand _ | expectedRelation _ | expectedStatement _ | strayClause _
  | compoundAfterColon _ | afterEnd _ => true
  | _ => false

/-- What is wrong with a token is wrong by the grammar. -/
theorem Cause.family_of_isOfToken {cause : Cause} (h : cause.isOfToken = true) :
    cause.family = .grammatical := by
  cases cause with
  | expected | expectedOperand | expectedRelation | expectedStatement | strayClause
  | compoundAfterColon | afterEnd => rfl
  | _ => cases h

/-- A failure **blames** a token of the line, or the nesting of it. -/
inductive Blames (line : List Token) : Failure → Prop
  | token {cause : Cause} {token : Token} :
    token ∈ line → cause.isOfToken = true → Blames line (.atToken cause token)
  | numeral {token : Token} :
    token ∈ line → token.kind = .integer → digitLimit < token.lexeme.toList.length →
      Blames line (.broken (.numeralTooLong token.lexeme.toList.length))
  | nesting : Blames line (.unplaced .nestedTooDeeplyToRead)

/-- What is left to be read consists of tokens of the line. -/
def Leaves {α : Type} (line : List Token) (result : α × List Token) : Prop :=
  result.2 ⊆ line

variable {cx : LineContext} {line : List Token} (hstop : cx.stop ∈ line)

include hstop

/-- The token that comes next is one of the line, also where it is the one that ends the line. -/
theorem LineContext.current_mem {tokens : List Token} (h : tokens ⊆ line) :
    cx.current tokens ∈ line := by
  cases tokens with
  | nil => exact hstop
  | cons token rest => exact h List.mem_cons_self

/-- A token that is not of the kind that is expected is to blame. -/
theorem LineContext.blames_expect {tokens : List Token} (h : tokens ⊆ line) (kind : Kind) :
    Abides (Blames line) (fun result => result.1 ∈ line ∧ result.2 ⊆ line)
      (cx.expect kind tokens) := by
  have hcurrent := current_mem hstop h
  unfold expect
  split
  · exact ⟨hcurrent, List.Subset.trans (List.tail_suffix tokens).subset h⟩
  · exact .token hcurrent rfl

/-- A token behind the end of a line is to blame. -/
theorem LineContext.blames_finish {tokens : List Token} (h : tokens ⊆ line) :
    Abides (Blames line) (fun _ => True) (cx.finish tokens) := by
  cases tokens with
  | nil => trivial
  | cons token rest =>
    obtain ⟨htoken, hrest⟩ := List.cons_subset.mp h
    unfold finish
    dsimp only
    split
    · split
      · trivial
      · exact .token (current_mem hstop hrest) rfl
    · exact .token htoken rfl

private theorem Expr.blames_readOn {frames : List Frame} {done : Option Expr} {tokens : List Token}
    (h : tokens ⊆ line) :
    Abides (Blames line) (Leaves line) (readOn cx frames done tokens) := by
  fun_induction readOn cx frames done tokens with
  | case1 frames => exact .token hstop rfl
  | case2 frames token rest hkind b hread =>
    -- a literal of too many digits
    unfold Numeral.read at hread
    split at hread
    · cases hread
    · next hlength =>
      cases hread
      exact .numeral (h List.mem_cons_self) hkind (Nat.not_le.mp hlength)
  | case3 _ _ _ _ _ _ ih | case4 _ _ _ _ ih | case5 _ _ _ _ _ ih | case7 _ _ _ _ _ ih
  | case12 _ _ _ _ _ _ _ _ _ ih | case14 _ _ _ _ _ _ _ _ _ _ ih =>
    exact ih (List.cons_subset.mp h).2
  | case6 | case8 => exact .nesting
  | case9 frames token rest => exact .token (h List.mem_cons_self) rfl
  | case10 | case13 => exact h
  | case11 => exact .token hstop rfl
  | case15 frames value token rest => exact .token (h List.mem_cons_self) rfl

/-- Reading an expression blames a token of the line, or its nesting, or a literal of too many
digits. -/
theorem Expr.blames_read {tokens : List Token} (h : tokens ⊆ line) :
    Abides (Blames line) (Leaves line) (read cx tokens) :=
  blames_readOn hstop h

/-- Reading a condition blames what reading an expression blames, or a token that is no relation. -/
theorem Condition.blames_read {tokens : List Token} (h : tokens ⊆ line) :
    Abides (Blames line) (Leaves line) (read cx tokens) := by
  rw [read_eq_bind]
  refine (Expr.blames_read hstop h).bind fun (left, behind) hbehind => ?_
  have hcurrent := LineContext.current_mem hstop hbehind
  dsimp only
  split
  · exact .token hcurrent rfl
  · refine (Expr.blames_read hstop
      (List.Subset.trans (List.tail_suffix behind).subset hbehind)).bind ?_
    exact fun (right, rest) hrest => hrest

/-- Reading a simple statement blames the line in the same ways. -/
private theorem Statement.blames_readSimple {tokens : List Token} (h : tokens ⊆ line) :
    Abides (Blames line) (Leaves line) (readSimple cx tokens) := by
  have hcurrent := LineContext.current_mem hstop h
  have htail : tokens.tail ⊆ line := List.Subset.trans (List.tail_suffix tokens).subset h
  unfold readSimple
  dsimp only
  split
  · refine (LineContext.blames_expect hstop htail .identifier).bind fun (name, behind) hname => ?_
    refine (LineContext.blames_expect hstop hname.2 .assign).bind fun (_, behind) hassign => ?_
    exact (Expr.blames_read hstop hassign.2).bind fun (value, rest) hrest => hrest
  · exact (Expr.blames_read hstop htail).bind fun (value, rest) hrest => hrest
  · exact (LineContext.blames_expect hstop htail .identifier).bind fun (name, rest) hname => hname.2
  · exact .token hcurrent rfl
  · exact .token hcurrent rfl
  · exact .token hcurrent rfl
  · exact .token hcurrent rfl

/-- Behind a colon of the line, what is left behind the inline body are tokens of the line. -/
theorem Body.blames_readInline {tokens : List Token} (h : tokens ⊆ line) :
    Abides (Blames line)
      (fun (colon, inline) => colon ∈ line ∧ ∀ result ∈ inline, Leaves line result)
      (readInline cx tokens) := by
  unfold readInline
  refine (LineContext.blames_expect hstop h .colon).bind fun (colon, behind) hcolon => ?_
  obtain ⟨hcolon, hbehind⟩ := hcolon
  dsimp only at hcolon hbehind ⊢
  split
  · exact (LineContext.blames_finish hstop hbehind).bind fun _ _ => ⟨hcolon, nofun⟩
  · refine (Statement.blames_readSimple hstop hbehind).bind fun (statement, rest) hrest => ?_
    refine ⟨hcolon, ?_⟩
    rintro _ ⟨⟩
    exact hrest

/-- The colon behind a heading is a token of the line. -/
def LineContent.HasColon (line : List Token) : LineContent → Prop
  | .statement _ => True
  | .heading _ colon => colon ∈ line

/-- Reading the body behind a heading does so, too, and a heading that is left open has a colon on
the line. -/
private theorem Heading.blames_readBody (heading : Heading) {tokens : List Token}
    (h : tokens ⊆ line) :
    Abides (Blames line) (LineContent.HasColon line) (heading.readBody cx tokens) := by
  rw [readBody_eq_bind]
  refine (Body.blames_readInline hstop h).bind fun (colon, inline) hinline => ?_
  cases inline with
  | none => exact hinline.1
  | some result =>
    exact (LineContext.blames_finish hstop (hinline.2 result rfl)).bind fun _ _ => trivial

private theorem Clauses.blames_read (row : Option Int) (earlier : Clauses) {tokens : List Token}
    (h : tokens ⊆ line) :
    Abides (Blames line) (LineContent.HasColon line) (read cx row earlier tokens) := by
  induction hlength : tokens.length using Nat.strongRecOn generalizing earlier tokens with
  | ind length ih =>
    rw [read_eq_bind]
    cases hcondition : Condition.read cx tokens with
    | error failure => exact (Condition.blames_read hstop h).of_eq_error hcondition
    | ok result =>
      obtain ⟨condition, behind⟩ := result
      have hbehind : behind ⊆ line := (Condition.blames_read hstop h).of_eq_ok hcondition
      rw [ok_bind]
      dsimp only
      cases hinline : Body.readInline cx behind with
      | error failure => exact (Body.blames_readInline hstop hbehind).of_eq_error hinline
      | ok result =>
        have hcolon := (Body.blames_readInline hstop hbehind).of_eq_ok hinline
        rw [ok_bind]
        obtain ⟨colon, _ | ⟨body, rest⟩⟩ := result
        · exact hcolon.1
        · -- behind an inline body a further clause may follow, and fewer tokens are left
          have hfewer := (Body.suffix_of_readInline hinline).length_le
          have hfewer' := (Condition.suffix_of_read hcondition).2
          have hrest : rest ⊆ line := hcolon.2 (body, rest) rfl
          cases rest with
          | nil => trivial
          | cons token tail =>
            obtain ⟨htoken, htail⟩ := List.cons_subset.mp hrest
            rw [List.length_cons] at hfewer
            unfold goOn
            dsimp only
            split
            · exact ih tail.length (by omega) _ htail rfl
            · exact Heading.blames_readBody hstop _ htail
            · exact (LineContext.blames_finish hstop hrest).map fun _ _ => trivial

/-- **Reading a line** blames the line for a failure, and a heading's colon is a token of it. -/
theorem LineContent.blames_read (before : List Statement) {tokens : List Token}
    (h : tokens ⊆ line) :
    Abides (Blames line) (fun result => HasColon line result.1) (read cx before tokens) := by
  have hcurrent := LineContext.current_mem hstop h
  have htail : tokens.tail ⊆ line := List.Subset.trans (List.tail_suffix tokens).subset h
  have hcontent : ∀ {first : Except Failure LineContent} (before : List Statement),
      Abides (Blames line) (HasColon line) first →
        Abides (Blames line) (fun result => HasColon line result.1)
          (first >>= fun content => pure (content, before)) :=
    fun before hfirst => hfirst.bind fun _ hcolon => hcolon
  unfold read
  dsimp only
  split
  · exact hcontent before (Clauses.blames_read hstop _ _ htail)
  · split
    · exact hcontent _ (Clauses.blames_read hstop _ _ htail)
    · exact .token hcurrent rfl
  · split
    · exact hcontent _ (Heading.blames_readBody hstop _ htail)
    · exact .token hcurrent rfl
  · refine (Condition.blames_read hstop htail).bind fun (condition, behind) hbehind => ?_
    exact hcontent before (Heading.blames_readBody hstop _ hbehind)
  · refine (LineContext.blames_expect hstop htail .identifier).bind fun (name, behind) hname => ?_
    refine (LineContext.blames_expect hstop hname.2 .inWord).bind fun (_, behind) hin => ?_
    refine (Expr.blames_read hstop hin.2).bind fun (lower, behind) hlower => ?_
    refine (LineContext.blames_expect hstop hlower .range).bind fun (_, behind) hrange => ?_
    refine (Expr.blames_read hstop hrange.2).bind fun (upper, behind) hupper => ?_
    exact hcontent before (Heading.blames_readBody hstop _ hupper)
  · refine (Statement.blames_readSimple hstop h).bind fun (simple, rest) hrest => ?_
    exact (LineContext.blames_finish hstop hrest).bind fun _ _ => trivial

end Offside

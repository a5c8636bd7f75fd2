import Offside.Proofs.Source.Frames
import Offside.Proofs.Token.Spelling

/-!
# What reading an expression reads

Reading an expression takes the words of the expression from the front of the tokens, no more and
no fewer, and what it makes of them is well formed (`Expr.words_of_read`,
`Expr.isWellFormed_of_read`). Conversely the words of a canonical expression read as that
expression (`Expr.read_spelling`), unless there is too little room for its nesting.
-/

namespace Offside

/-- The kind that stands for an operator has the word of the operator. -/
theorem Operator.words_of_ofKind? {kind : Kind} {op : Operator} (h : ofKind? kind = some op) :
    op.words = [.fixed kind] ∧ op.isKnown = true ∧ kind.spelling?.isSome = true ∧
      kind ≠ .eqEq := by
  cases kind <;> cases h <;> decide

/-- An operator of the language has a kind that stands for it. -/
theorem Operator.exists_kind {op : Operator} (h : op.isKnown = true) :
    ∃ kind, op.words = [.fixed kind] ∧ ofKind? kind = some op ∧ kind ≠ .eq := by
  cases op with
  | add => exact ⟨.add, rfl, rfl, by decide⟩
  | subtract => exact ⟨.subtract, rfl, rfl, by decide⟩
  | multiply => exact ⟨.multiply, rfl, rfl, by decide⟩
  | divide => exact ⟨.divide, rfl, rfl, by decide⟩
  | unknown symbol => cases h

namespace Expr

variable {cx : LineContext}

/-! ### The words that are read -/

/-- What `readOn` promises of its result: the tokens up to `rest` are taken, and the words of the
whole are those of the frames, of the operand if it is there, and of the tokens taken. -/
private def Covers (frames : List Frame) (done : Option Expr) (tokens rest : List Token)
    (whole : Expr) : Prop :=
  ∃ consumed, tokens = consumed ++ rest ∧
    whole.words = Frame.words frames ++ (done.elim [] words ++ Token.words consumed)

/-- Taking one token adds its word. -/
private theorem Covers.cons {frames frames' : List Frame} {done done' : Option Expr} {token : Token}
    {tail rest : List Token} {whole : Expr} (h : Covers frames' done' tail rest whole)
    (hwords : Frame.words frames' ++ done'.elim [] words =
      Frame.words frames ++ (done.elim [] words ++ [token.toWord.normal])) :
    Covers frames done (token :: tail) rest whole := by
  obtain ⟨consumed, rfl, hwhole⟩ := h
  refine ⟨token :: consumed, rfl, ?_⟩
  rw [hwhole, ← List.append_assoc, hwords]
  simp only [Token.words_cons, List.append_assoc, List.singleton_append]

/-- Completing the expression takes no more tokens. -/
private theorem covers_of_close {frames : List Frame} {value whole : Expr} (rest : List Token)
    (hclose : Frame.closeExpression frames value = (whole, none)) :
    Covers frames (some value) rest rest whole := by
  refine ⟨[], rfl, ?_⟩
  rw [Frame.words_closeExpression hclose, Option.elim_some, Token.words_nil, List.append_nil]

/-- The words of what is read are those that were pending and those that were taken. -/
private theorem covers_of_readOn {frames : List Frame} {done : Option Expr}
    {tokens rest : List Token} {whole : Expr}
    (hsettled : ∀ token ∈ tokens, token.toWord.IsSettled)
    (h : readOn cx frames done tokens = .ok (whole, rest)) :
    Covers frames done tokens rest whole := by
  fun_induction readOn cx frames done tokens with
  | case1 => cases h
  | case2 => cases h
  | case3 frames token tail hkind n hread ih =>
    -- a literal
    refine (ih (List.forall_mem_cons.mp hsettled).2 h).cons ?_
    unfold Numeral.read at hread
    split at hread
    · cases hread
      rw [Word.normal_of_integer hkind]
      rfl
    · cases hread
  | case4 frames token tail hkind ih =>
    -- a name
    refine (ih (List.forall_mem_cons.mp hsettled).2 h).cons ?_
    rw [Word.normal_of_identifier hkind]
    rfl
  | case5 frames token tail hkind hroom ih =>
    -- a minus sign
    obtain ⟨htoken, htail⟩ := List.forall_mem_cons.mp hsettled
    refine (ih htail h).cons ?_
    rw [htoken.normal_eq_fixed hkind rfl (by decide), Frame.words]
    simp
  | case6 => cases h
  | case7 frames token tail hkind hroom ih =>
    -- a parenthesis opens
    obtain ⟨htoken, htail⟩ := List.forall_mem_cons.mp hsettled
    refine (ih htail h).cons ?_
    rw [htoken.normal_eq_fixed hkind rfl (by decide), Frame.words]
    simp
  | case8 => cases h
  | case9 => cases h
  | case10 frames value whole' hclose =>
    -- the tokens end behind the operand
    cases h
    exact covers_of_close _ hclose
  | case11 => cases h
  | case12 frames value token tail op hop pending left hclose ih =>
    -- an operator behind the operand
    obtain ⟨htoken, htail⟩ := List.forall_mem_cons.mp hsettled
    obtain ⟨hwords, -, hspelling, hne⟩ := Operator.words_of_ofKind? hop
    have hkept := Frame.words_closeOperators op frames value
    rw [hclose] at hkept
    refine (ih htail h).cons ?_
    rw [htoken.normal_eq_fixed rfl hspelling hne, ← hwords, Frame.words, ← List.append_assoc, hkept]
    simp
  | case13 frames value token tail hop whole' hclose =>
    -- the expression ends at a token of another kind
    cases h
    exact covers_of_close _ hclose
  | case14 frames value token tail hop inner row outer hclose hkind ih =>
    -- a parenthesis closes
    obtain ⟨htoken, htail⟩ := List.forall_mem_cons.mp hsettled
    have hwords := Frame.words_closeExpression_opened hclose
    refine (ih htail h).cons ?_
    rw [htoken.normal_eq_fixed hkind rfl (by decide), ← List.append_assoc, Option.elim_some,
      Option.elim_some, ← hwords, Frame.words, words]
    simp
  | case15 => cases h

/-- Reading takes the words of the expression from the front of the tokens. -/
theorem words_of_read {tokens rest : List Token} {e : Expr}
    (hsettled : ∀ token ∈ tokens, token.toWord.IsSettled) (h : read cx tokens = .ok (e, rest)) :
    ∃ consumed, tokens = consumed ++ rest ∧ e.words = Token.words consumed :=
  covers_of_readOn hsettled h

/-! ### What is read is well formed -/

/-- The operands that `readOn` completes: literals, names and groups. -/
private structure Plain (e : Expr) : Prop where
  wellFormed : e.isWellFormed = true
  factor : e.isFactor = true
  closed : e.endsOpen = false

private theorem Plain.closedFor {e : Expr} (h : Plain e) (op : Operator) : Frame.Closed op e where
  wellFormed := h.wellFormed
  closed := h.closed
  term _ := isTerm_of_isFactor h.factor

/-- What an operand completes is well formed, whatever waits for it. -/
private theorem Plain.close {value inner : Expr} (h : Plain value) {frames : List Frame}
    (hframes : Frame.WellFormed frames) {opened : Option (Nat × List Frame)}
    (hclose : Frame.closeExpression frames value = (inner, opened)) :
    inner.isWellFormed = true ∧
      ∀ row outer, opened = some (row, outer) → Frame.WellFormed outer := by
  have hwhole := Frame.wellFormed_closeExpression hframes h.wellFormed
    (Frame.takes_of_isFactor frames h.factor)
  rwa [hclose] at hwhole

private theorem forall_mem_none {p : Expr → Prop} : ∀ value ∈ (none : Option Expr), p value :=
  fun value hvalue => absurd hvalue (Option.not_mem_none value)

/-- Out of well-formed frames a well-formed expression is read. -/
private theorem isWellFormed_of_readOn {frames : List Frame} {done : Option Expr}
    {tokens rest : List Token} {whole : Expr}
    (hsettled : ∀ token ∈ tokens, token.toWord.IsSettled)
    (hframes : Frame.WellFormed frames) (hdone : ∀ value ∈ done, Plain value)
    (h : readOn cx frames done tokens = .ok (whole, rest)) : whole.isWellFormed = true := by
  fun_induction readOn cx frames done tokens with
  | case1 => cases h
  | case2 => cases h
  | case3 frames token tail hkind n hread ih =>
    -- a literal
    obtain ⟨htoken, htail⟩ := List.forall_mem_cons.mp hsettled
    refine ih htail hframes (fun value hvalue => ?_) h
    cases hvalue
    have hnumeral := htoken.isNumeral hkind
    rw [Kind.isNumeral, Bool.and_eq_true, List.all_eq_true] at hnumeral
    have hbound := Numeral.lt_bound_of_read hnumeral.2 hread
    refine ⟨isWellFormed_number_iff.mpr ?_, rfl, rfl⟩
    exact ⟨Int.natCast_nonneg n, Int.ofNat_lt.mpr hbound⟩
  | case4 frames token tail hkind ih =>
    -- a name
    obtain ⟨htoken, htail⟩ := List.forall_mem_cons.mp hsettled
    refine ih htail hframes (fun value hvalue => ?_) h
    cases hvalue
    have hname := htoken.isIdentifier hkind
    refine ⟨?_, rfl, rfl⟩
    simp [isWellFormed, isCanonical, isLegal, hname]
  | case5 frames token tail hkind hroom ih =>
    -- a minus sign
    exact ih (List.forall_mem_cons.mp hsettled).2 hframes forall_mem_none h
  | case6 => cases h
  | case7 frames token tail hkind hroom ih =>
    -- a parenthesis opens
    exact ih (List.forall_mem_cons.mp hsettled).2 hframes forall_mem_none h
  | case8 => cases h
  | case9 => cases h
  | case10 frames value whole' hclose =>
    -- the tokens end behind the operand
    cases h
    exact ((hdone value rfl).close hframes hclose).1
  | case11 => cases h
  | case12 frames value token tail op hop pending left hclose ih =>
    -- an operator behind the operand
    have hvalue := hdone value rfl
    have hleft := Frame.closed_closeOperators hframes (hvalue.closedFor op)
      (Frame.takes_of_isFactor frames hvalue.factor)
    rw [hclose] at hleft
    obtain ⟨hpending, hclosed, hbears⟩ := hleft
    have hknown := (Operator.words_of_ofKind? hop).2.1
    exact ih (List.forall_mem_cons.mp hsettled).2
      ⟨hknown, hclosed.wellFormed, hclosed.closed, hclosed.term, hbears, hpending⟩ forall_mem_none h
  | case13 frames value token tail hop whole' hclose =>
    -- the expression ends at a token of another kind
    cases h
    exact ((hdone value rfl).close hframes hclose).1
  | case14 frames value token tail hop inner row outer hclose hkind ih =>
    -- a parenthesis closes
    obtain ⟨hinner, houter⟩ := (hdone value rfl).close hframes hclose
    refine ih (List.forall_mem_cons.mp hsettled).2 (houter row outer rfl) (fun group hgroup => ?_) h
    cases hgroup
    exact ⟨hinner, rfl, rfl⟩
  | case15 => cases h

/-- What is read is well formed. -/
theorem isWellFormed_of_read {tokens rest : List Token} {e : Expr}
    (hsettled : ∀ token ∈ tokens, token.toWord.IsSettled) (h : read cx tokens = .ok (e, rest)) :
    e.isWellFormed = true := by
  refine isWellFormed_of_readOn hsettled ?_ ?_ h
  · trivial
  · nofun

/-! ### One token at a time -/

section Token

variable {frames : List Frame} {value : Expr} {token : Token} (rest : List Token)

theorem readOn_integer {n : Nat} (hkind : token.kind = .integer)
    (hread : Numeral.read token.lexeme.toList = .ok n) :
    readOn cx frames none (token :: rest) =
      readOn cx frames (some (.number (some token.row) n)) rest := by
  rw [readOn]
  simp only [hkind, hread]

theorem readOn_identifier (hkind : token.kind = .identifier) :
    readOn cx frames none (token :: rest) =
      readOn cx frames (some (.var (some token.row) token.lexeme)) rest := by
  rw [readOn]
  simp only [hkind]

theorem readOn_subtract (hkind : token.kind = .subtract) :
    readOn cx frames none (token :: rest) =
      if cx.admits (.negate token.row :: frames) then
        readOn cx (.negate token.row :: frames) none rest
      else .error (.unplaced .nestedTooDeeplyToRead) := by
  rw [readOn]
  simp only [hkind]

theorem readOn_leftParen (hkind : token.kind = .leftParen) :
    readOn cx frames none (token :: rest) =
      if cx.admits (.opened token.row :: frames) then
        readOn cx (.opened token.row :: frames) none rest
      else .error (.unplaced .nestedTooDeeplyToRead) := by
  rw [readOn]
  simp only [hkind]

theorem readOn_rightParen {inner : Expr} {row : Nat} {outer : List Frame}
    (hkind : token.kind = .rightParen)
    (hclose : Frame.closeExpression frames value = (inner, some (row, outer))) :
    readOn cx frames (some value) (token :: rest) =
      readOn cx outer (some (.paren (some row) inner)) rest := by
  have hnot : Operator.ofKind? token.kind = none := by rw [hkind]; rfl
  rw [readOn]
  simp only [hnot, hclose, if_pos hkind]

theorem readOn_operator {op : Operator} (hkind : Operator.ofKind? token.kind = some op) :
    readOn cx frames (some value) (token :: rest) =
      readOn cx (.binary token.row op (Frame.closeOperators op frames value).2 ::
        (Frame.closeOperators op frames value).1) none rest := by
  rw [readOn]
  simp only [hkind]

end Token

/-! ### The words of an expression read as the expression -/

/-- The pass over the words of an expression comes to the right edge of the expression, or to a
place where there is no room. -/
theorem readOn_spelling {row : Nat} {e : Expr} (he : e.isWellFormed = true)
    {tokens : List Token} (hspells : Spells row tokens e.words) {frames : List Frame}
    (htakes : Frame.Takes frames e) (hroom : Frame.depth frames ≤ cx.room) (rest : List Token) :
    readOn cx frames none (tokens ++ rest) =
      if Frame.depth frames + e.nesting (Frame.isDirect frames) ≤ cx.room then
        readOn cx (Frame.edge row e frames).1 (some (Frame.edge row e frames).2) rest
      else .error (.unplaced .nestedTooDeeplyToRead) := by
  induction e generalizing tokens frames rest with
  | number line value =>
    obtain ⟨token, tail, rfl, hword, htoken, htail⟩ := hspells.cons
    obtain rfl := htail.nil
    obtain ⟨hkind, hvalue⟩ := Word.of_normal_eq_numeral hword (isWellFormed_number_iff.mp he).1
    rw [List.cons_append, readOn_integer _ hkind (htoken.read hkind), htoken.row_eq, hvalue,
      nesting, Nat.add_zero, if_pos hroom]
    rfl
  | var line name =>
    obtain ⟨token, tail, rfl, hword, htoken, htail⟩ := hspells.cons
    obtain rfl := htail.nil
    obtain ⟨hkind, hname⟩ := Word.of_normal_eq_name hword
    rw [List.cons_append, readOn_identifier _ hkind, htoken.row_eq, hname, nesting, Nat.add_zero,
      if_pos hroom]
    rfl
  | negate line operand ih =>
    obtain ⟨token, tail, rfl, hword, htoken, htail⟩ := hspells.cons
    have hkind : token.kind = .subtract := Word.kind_of_fixed hword (by decide)
    have hoperand : operand.isWellFormed = true := he
    rw [List.cons_append, readOn_subtract _ hkind, htoken.row_eq, nesting]
    by_cases hadmits : cx.admits (.negate row :: frames) = true
    · have hdepth := LineContext.admits_iff.mp hadmits
      rw [if_pos hadmits, ih hoperand htail (by trivial) hdepth, Frame.depth_negate, Nat.add_assoc,
        Nat.add_comm 1]
      rfl
    · have hdepth := mt LineContext.admits_iff.mpr hadmits
      rw [Frame.depth_negate] at hdepth
      rw [if_neg hadmits, if_neg (by omega)]
  | paren line inner ih =>
    -- the room that the parenthesis takes is the only thing that depends on what stands before it
    obtain ⟨token, tail, rfl, hword, htoken, htail⟩ := hspells.cons
    have hkind : token.kind = .leftParen := Word.kind_of_fixed hword (by decide)
    obtain ⟨front, back, rfl, hfront, hback⟩ := htail.append
    obtain ⟨closing, tail, rfl, hclosing, -, hnil⟩ := hback.cons
    obtain rfl := hnil.nil
    have hinner : inner.isWellFormed = true := he
    rw [List.cons_append, readOn_leftParen _ hkind, htoken.row_eq, List.append_assoc, nesting]
    by_cases hadmits : cx.admits (.opened row :: frames) = true
    · have hdepth := LineContext.admits_iff.mp hadmits
      have hclose : Frame.closeExpression (Frame.edge row inner (.opened row :: frames)).1
          (Frame.edge row inner (.opened row :: frames)).2 =
            (inner.onRow row, some (row, frames)) :=
        Frame.closeExpression_edge row inner _
      have hsum : Frame.depth (.opened row :: frames) +
          inner.nesting (Frame.isDirect (.opened row :: frames)) =
            Frame.depth frames + (inner.nesting true + if Frame.isDirect frames then 0 else 1) := by
        rw [Frame.depth_opened, Frame.isDirect]
        omega
      rw [if_pos hadmits, ih hinner hfront (by trivial) hdepth, hsum, List.cons_append,
        readOn_rightParen _ (Word.kind_of_fixed hclosing (by decide)) hclose]
      rfl
    · have hdepth := mt LineContext.admits_iff.mpr hadmits
      rw [Frame.depth_opened] at hdepth
      rw [if_neg hadmits, if_neg (by omega)]
  | binary line op left right ihl ihr =>
    obtain ⟨hknown, hleft, hright, hfolded⟩ := isWellFormed_binary_iff.mp he
    obtain ⟨hclosed, hshape⟩ := isFolded_iff.mp hfolded
    obtain ⟨kind, hwords, hkind, hne⟩ := Operator.exists_kind hknown
    obtain ⟨front, back, rfl, hfront, hback⟩ := hspells.append
    rw [hwords] at hback
    obtain ⟨token, tail, rfl, hword, htoken, htail⟩ := hback.cons
    have hop : Operator.ofKind? token.kind = some op := by rwa [Word.kind_of_fixed hword hne]
    have hterm : op.isTight = true → left.isTerm = true := fun htight => by
      rw [if_pos htight] at hshape
      exact hshape.1
    -- the frames take the operation, so the operator behind the left operand leaves them alone
    have hbears : Frame.Bears frames op := Frame.bears_of_takes_binary htakes
    have htakesLeft : Frame.Takes frames left := Frame.takes_of_bears hbears hterm
    have htakesRight : Frame.Takes (.binary row op (left.onRow row) :: frames) right := by
      rw [Frame.Takes]
      split
      · next htight => rw [if_pos htight] at hshape; exact hshape.2
      · next htight => rwa [if_neg htight] at hshape
    have hclose : Frame.closeOperators op (Frame.edge row left frames).1
        (Frame.edge row left frames).2 = (frames, left.onRow row) := by
      rw [Frame.closeOperators_edge row hleft hclosed hterm, Frame.closeOperators_of_bears hbears]
    rw [List.append_assoc, ihl hleft hfront htakesLeft hroom, nesting]
    by_cases hfits : Frame.depth frames + left.nesting (Frame.isDirect frames) ≤ cx.room
    · rw [if_pos hfits, List.cons_append, readOn_operator _ hop, hclose, htoken.row_eq,
        ihr hright htail htakesRight hroom]
      refine ite_congr (propext ?_) (fun _ => rfl) fun _ => rfl
      change Frame.depth frames + right.nesting false ≤ cx.room ↔ _
      omega
    · rw [if_neg hfits, if_neg (by omega)]
  | misplaced form => cases he

/-- The words of an expression that no operator follows read as the expression. -/
theorem read_spelling {row : Nat} {e : Expr} (he : e.isWellFormed = true) {tokens : List Token}
    (hspells : Spells row tokens e.words) {rest : List Token}
    (hrest : ∀ token ∈ rest.head?, Operator.ofKind? token.kind = none) :
    read cx (tokens ++ rest) =
      if e.nesting true ≤ cx.room then .ok (e.onRow row, rest)
      else .error (.unplaced .nestedTooDeeplyToRead) := by
  have hclose : Frame.closeExpression (Frame.edge row e []).1 (Frame.edge row e []).2 =
      (e.onRow row, none) :=
    Frame.closeExpression_edge row e []
  rw [read, readOn_spelling he hspells (by trivial) (Nat.zero_le _)]
  refine ite_congr (by rw [Frame.depth, Nat.zero_add]; rfl) (fun _ => ?_) fun _ => rfl
  cases rest with
  | nil => rw [readOn, hclose]
  | cons token rest => rw [readOn, hrest token rfl, hclose]

end Expr

end Offside

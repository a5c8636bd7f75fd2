import Offside.Proofs.Failing
import Offside.Proofs.Source.Expression
import Offside.Proofs.Tree.Clauses
import Offside.Source.Line

/-!
# What reading a line reads

Reading a line takes the words of the line's pieces from the front of the tokens, and leaves
something over that the line may end with. The pieces are those that the line adds to the block
it stands in: where the line goes on with a branch, the pieces of the branch so far are in front
of them (`LineContent.reads`).

What is read is well formed if the statements in front of it were.
-/

namespace Offside

/-- Tokens **hold** words in front of the tokens `rest`. -/
def Token.Holds (tokens : List Token) (words : List Word) (rest : List Token) : Prop :=
  ∃ front, tokens = front ++ rest ∧ Token.words front = words

namespace Token.Holds

variable {tokens middle rest : List Token} {words front back : List Word}

/-- Words are held one after another. -/
private theorem trans (h : Holds tokens front middle) (h' : Holds middle back rest) :
    Holds tokens (front ++ back) rest := by
  obtain ⟨first, rfl, rfl⟩ := h
  obtain ⟨second, rfl, rfl⟩ := h'
  exact ⟨first ++ second, (List.append_assoc first second rest).symm, words_append first second⟩

private theorem settled (h : Holds tokens words rest)
    (hsettled : ∀ token ∈ tokens, token.toWord.IsSettled) :
    ∀ token ∈ rest, token.toWord.IsSettled := by
  obtain ⟨front, rfl, -⟩ := h
  exact (List.forall_mem_append.mp hsettled).2

end Token.Holds

/-! ### Single tokens -/

namespace LineContext

variable {cx : LineContext} {tokens rest : List Token} {token : Token} {kind : Kind}

/-- A token of a kind that ends no line is one of the tokens of the line. -/
private theorem eq_cons_of_current (hstop : cx.stop.kind = .endOfLine)
    (h : (cx.current tokens).kind ≠ .endOfLine) : tokens = cx.current tokens :: tokens.tail := by
  cases tokens with
  | nil => exact absurd hstop h
  | cons token rest => rfl

/-- A line that begins with a kind of one spelling begins with the word of that kind. -/
private theorem holds_of_current (hsettled : ∀ token ∈ tokens, token.toWord.IsSettled)
    (hstop : cx.stop.kind = .endOfLine) (h : (cx.current tokens).kind = kind)
    (hspelling : kind.spelling?.isSome = true := by rfl) (hend : kind ≠ .endOfLine := by decide)
    (hne : kind ≠ .eqEq := by decide) : Token.Holds tokens [.fixed kind] tokens.tail := by
  have htokens := eq_cons_of_current hstop (h ▸ hend)
  have hmem : cx.current tokens ∈ tokens := htokens ▸ List.mem_cons_self
  refine ⟨[cx.current tokens], htokens, ?_⟩
  rw [Token.words_cons, (hsettled _ hmem).normal_eq_fixed h hspelling hne]
  rfl

theorem expect_eq_ok_iff :
    cx.expect kind tokens = .ok (token, rest) ↔
      (cx.current tokens).kind = kind ∧ token = cx.current tokens ∧ rest = tokens.tail := by
  rw [expect]
  split
  · next h => simp [h, eq_comm]
  · next h => simp [h]

/-- A token of a kind with one spelling holds the word of that kind. -/
private theorem holds_of_expect (hsettled : ∀ token ∈ tokens, token.toWord.IsSettled)
    (hstop : cx.stop.kind = .endOfLine) (h : cx.expect kind tokens = .ok (token, rest))
    (hspelling : kind.spelling?.isSome = true := by rfl) (hend : kind ≠ .endOfLine := by decide)
    (hne : kind ≠ .eqEq := by decide) : Token.Holds tokens [.fixed kind] rest := by
  obtain ⟨hkind, -, rfl⟩ := expect_eq_ok_iff.mp h
  exact holds_of_current hsettled hstop hkind hspelling hend hne

/-- An identifier holds a name. -/
private theorem holds_of_expect_identifier (hsettled : ∀ token ∈ tokens, token.toWord.IsSettled)
    (hstop : cx.stop.kind = .endOfLine) (h : cx.expect .identifier tokens = .ok (token, rest)) :
    Token.Holds tokens [.name token.lexeme] rest ∧ Kind.IsIdentifier token.lexeme := by
  obtain ⟨hkind, rfl, rfl⟩ := expect_eq_ok_iff.mp h
  have htokens := eq_cons_of_current hstop (by rw [hkind]; decide)
  have hmem : cx.current tokens ∈ tokens := htokens ▸ List.mem_cons_self
  refine ⟨⟨[cx.current tokens], htokens, ?_⟩, (hsettled _ hmem).isIdentifier hkind⟩
  rw [Token.words_cons, Word.normal_of_identifier hkind]
  rfl

end LineContext

/-! ### Conditions and simple statements -/

section Simple

variable {cx : LineContext} {tokens rest : List Token}

/-- The kind that stands for a relation has the word of the relation, in normal form. -/
private theorem Relation.words_of_ofKind? {word : Word} (hsettled : word.IsSettled)
    {relation : Relation}
    (h : ofKind? word.kind = some relation) :
    relation.words = [word.normal] ∧ relation.isKnown = true := by
  have htable : ∀ kind : Kind, ofKind? kind = some relation → relation.isKnown = true ∧
      relation.words = [.fixed (if kind = .eqEq then .eq else kind)] ∧
        kind.spelling?.isSome = true := by
    rintro kind hkind
    cases kind <;> cases hkind <;> exact ⟨rfl, rfl, rfl⟩
  obtain ⟨hknown, hwords, hspelling⟩ := htable word.kind h
  refine ⟨?_, hknown⟩
  rw [hwords]
  split
  · next heq => rw [Word.normal_of_eqEq heq]
  · next hne => rw [hsettled.normal_eq_fixed rfl hspelling hne]

/-- What is read as an expression holds the words of a well-formed one. -/
private theorem Expr.holds_of_read (hsettled : ∀ token ∈ tokens, token.toWord.IsSettled) {e : Expr}
    (h : Expr.read cx tokens = .ok (e, rest)) :
    Token.Holds tokens e.words rest ∧ e.isWellFormed = true := by
  obtain ⟨consumed, htokens, hwords⟩ := Expr.words_of_read hsettled h
  exact ⟨⟨consumed, htokens, hwords.symm⟩, Expr.isWellFormed_of_read hsettled h⟩

/-- What is read as a condition holds the words of a well-formed one. -/
private theorem Condition.holds_of_read (hsettled : ∀ token ∈ tokens, token.toWord.IsSettled)
    (hstop : cx.stop.kind = .endOfLine) {c : Condition}
    (h : Condition.read cx tokens = .ok (c, rest)) :
    Token.Holds tokens c.words rest ∧ c.isWellFormed = true := by
  unfold Condition.read at h
  split at h
  · cases h
  next left middle hread =>
  obtain ⟨hleft, hleftShape⟩ := Expr.holds_of_read hsettled hread
  split at h
  · cases h
  next relation hrelation =>
  have htokens : middle = cx.current middle :: middle.tail := by
    refine cx.eq_cons_of_current hstop fun hend => ?_
    rw [hend] at hrelation
    cases hrelation
  rw [htokens] at hleft
  have hmiddle := hleft.settled hsettled
  obtain ⟨hword, htail⟩ := List.forall_mem_cons.mp hmiddle
  obtain ⟨hwords, hknown⟩ := Relation.words_of_ofKind? hword hrelation
  split at h
  · cases h
  next right _ hread =>
  cases h
  obtain ⟨hright, hrightShape⟩ := Expr.holds_of_read htail hread
  refine ⟨?_, by simp [isWellFormed, hknown, hleftShape, hrightShape]⟩
  rw [Condition.words, hwords]
  exact hleft.trans (.trans ⟨[_], rfl, rfl⟩ hright)

/-- Reading a simple statement takes the words of its one phrase. -/
theorem Statement.holds_of_readSimple (hsettled : ∀ token ∈ tokens, token.toWord.IsSettled)
    (hstop : cx.stop.kind = .endOfLine) {s : Statement}
    (h : Statement.readSimple cx tokens = .ok (s, rest)) :
    ∃ phrase, (∀ depth, s.pieces depth = [⟨depth, phrase⟩]) ∧
      Token.Holds tokens phrase.words rest ∧ s.isWellFormed = true := by
  unfold Statement.readSimple at h
  simp only at h
  split at h
  · next hkind =>
    -- `let name := value`
    have hword := cx.holds_of_current hsettled hstop hkind
    have htail := hword.settled hsettled
    simp only [bind_eq_ok_iff, Prod.exists] at h
    obtain ⟨name, behind, hname, sign, after, hsign, value, _, hvalue, hresult⟩ := h
    cases hresult
    obtain ⟨hname, hlegal⟩ := cx.holds_of_expect_identifier htail hstop hname
    have hbehind := hname.settled htail
    have hsign := cx.holds_of_expect hbehind hstop hsign
    obtain ⟨hvalue, hshape⟩ := Expr.holds_of_read (hsign.settled hbehind) hvalue
    refine ⟨.assign name.lexeme value, fun depth => rfl, ?_, by simp [isWellFormed, hlegal, hshape]⟩
    exact hword.trans (hname.trans (hsign.trans hvalue))
  · next hkind =>
    -- `display value`
    have hword := cx.holds_of_current hsettled hstop hkind
    simp only [bind_eq_ok_iff, Prod.exists] at h
    obtain ⟨value, _, hvalue, hresult⟩ := h
    cases hresult
    obtain ⟨hvalue, hshape⟩ := Expr.holds_of_read (hword.settled hsettled) hvalue
    exact ⟨.display value, fun depth => rfl, hword.trans hvalue, hshape⟩
  · next hkind =>
    -- `input name`
    have hword := cx.holds_of_current hsettled hstop hkind
    simp only [bind_eq_ok_iff, Prod.exists] at h
    obtain ⟨name, _, hname, hresult⟩ := h
    cases hresult
    obtain ⟨hname, hlegal⟩ := cx.holds_of_expect_identifier (hword.settled hsettled) hstop hname
    exact ⟨.input name.lexeme, fun depth => rfl, hword.trans hname, by simp [isWellFormed, hlegal]⟩
  · cases h
  · cases h
  · cases h
  · cases h

/-- Reading behind a colon takes the colon, and the words of an inline body if there is one. -/
theorem Body.holds_of_readInline (hsettled : ∀ token ∈ tokens, token.toWord.IsSettled)
    (hstop : cx.stop.kind = .endOfLine) {colon : Token} {result : Option (Body × List Token)}
    (h : Body.readInline cx tokens = .ok (colon, result)) :
    match result with
    | none => ∃ tail, Token.Holds tokens [.fixed .colon] tail ∧ cx.finish tail = .ok ()
    | some (body, rest) => ∃ phrase, (∀ depth, body.pieces depth = [⟨depth, phrase⟩]) ∧
        Token.Holds tokens (.fixed .colon :: phrase.words) rest ∧ body.isWellFormed = true := by
  simp only [Body.readInline, bind_eq_ok_iff, Prod.exists] at h
  obtain ⟨first, tail, hcolon, h⟩ := h
  have hword := cx.holds_of_expect hsettled hstop hcolon
  split at h
  · obtain ⟨_, hfinish, hresult⟩ := bind_eq_ok_iff.mp h
    cases hresult
    exact ⟨tail, hword, hfinish⟩
  · simp only [bind_eq_ok_iff, Prod.exists] at h
    obtain ⟨statement, after, hsimple, hresult⟩ := h
    cases hresult
    obtain ⟨phrase, hpieces, hwords, hshape⟩ :=
      Statement.holds_of_readSimple (hword.settled hsettled) hstop hsimple
    refine ⟨phrase, fun depth => ?_, hword.trans hwords, ?_⟩
    · rw [Body.pieces, Statement.piecesOf, hpieces, Statement.piecesOf, List.append_nil]
    · simp [isWellFormed, Statement.areWellFormed, hshape]

end Simple

/-! ### Headings -/

namespace Heading

/-- The clauses in front of the last one. -/
def earlier : Heading → Clauses
  | whileLoop .. | forLoop .. => .done
  | guarded _ earlier _ | otherwise _ earlier => earlier

/-- The head of the last clause, or of the loop. -/
def phrase : Heading → Phrase
  | whileLoop _ condition => .whileHead condition
  | forLoop _ name first last => .forHead name first last
  | guarded _ earlier condition => .guardHead earlier.isDone condition
  | otherwise .. => .elseHead

/-- The pieces of a heading that has `depth` bodies around it. -/
def pieces (depth : Nat) (heading : Heading) : List Piece :=
  heading.earlier.pieces depth true ++ [⟨depth, heading.phrase⟩]

/-- Whether a heading becomes a well-formed statement with a well-formed body. -/
def isWellFormed : Heading → Bool
  | whileLoop _ condition => condition.isWellFormed
  | forLoop _ name first last =>
    Kind.IsIdentifier name && first.isWellFormed && last.isWellFormed
  | guarded _ earlier condition =>
    earlier.isOpen && earlier.isWellFormed && condition.isWellFormed
  | otherwise _ earlier => earlier.isGuarded && earlier.isOpen && earlier.isWellFormed

variable {heading : Heading}

/-- A heading is completed with the pieces of its body. -/
theorem pieces_complete (h : heading.isWellFormed = true) (depth : Nat) (body : Body) :
    (heading.complete body).pieces depth = heading.pieces depth ++ body.pieces (depth + 1) := by
  cases heading with
  | whileLoop line condition => rfl
  | forLoop line name first last => rfl
  | guarded line earlier condition =>
    simp only [isWellFormed, Bool.and_eq_true] at h
    rw [complete, Statement.pieces, Clauses.pieces_append_guarded _ _ h.1.1, pieces,
      List.append_assoc]
    rfl
  | otherwise line earlier =>
    simp only [isWellFormed, Bool.and_eq_true] at h
    rw [complete, Statement.pieces, Clauses.pieces_append h.1.2, pieces, List.append_assoc]
    rfl

/-- A well-formed heading is completed to a well-formed statement by a well-formed body. -/
theorem isWellFormed_complete (h : heading.isWellFormed = true) {body : Body}
    (hbody : body.isWellFormed = true) : (heading.complete body).isWellFormed = true := by
  cases heading with
  | whileLoop line condition =>
    exact Bool.and_eq_true_iff.mpr ⟨h, hbody⟩
  | forLoop line name first last =>
    exact Bool.and_eq_true_iff.mpr ⟨h, hbody⟩
  | guarded line earlier condition =>
    simp only [isWellFormed, Bool.and_eq_true] at h
    obtain ⟨⟨hopen, hearlier⟩, hcondition⟩ := h
    exact Bool.and_eq_true_iff.mpr ⟨Clauses.isGuarded_append_guarded condition body hopen,
      Clauses.isWellFormed_append_guarded condition body hopen hearlier hcondition hbody⟩
  | otherwise line earlier =>
    simp only [isWellFormed, Bool.and_eq_true] at h
    obtain ⟨⟨hguarded, hopen⟩, hearlier⟩ := h
    refine Bool.and_eq_true_iff.mpr ⟨Clauses.isGuarded_append hguarded, ?_⟩
    rw [Clauses.isWellFormed_append hopen, hearlier]
    exact hbody

end Heading

/-! ### Whole lines -/

/-- A branch can go on if it comes last and its clauses are open. -/
theorem openBranch?_eq_some_iff {before rest : List Statement} {line : Option Int}
    {clauses : Clauses} :
    openBranch? before = some (line, clauses, rest) ↔
      before = .branch line clauses :: rest ∧ clauses.isOpen = true := by
  unfold openBranch?
  split
  · next line' clauses' rest' =>
    split
    · next hopen =>
      simp only [Option.some.injEq, Prod.mk.injEq, List.cons.injEq, Statement.branch.injEq]
      constructor
      · rintro ⟨rfl, rfl, rfl⟩
        exact ⟨⟨⟨rfl, rfl⟩, rfl⟩, hopen⟩
      · rintro ⟨⟨⟨rfl, rfl⟩, rfl⟩, -⟩
        exact ⟨rfl, rfl, rfl⟩
    · next hopen =>
      simp only [reduceCtorEq, List.cons.injEq, Statement.branch.injEq, false_iff]
      rintro ⟨⟨⟨rfl, rfl⟩, rfl⟩, h⟩
      exact hopen h
  · next hne =>
    simp only [reduceCtorEq, false_iff, not_and]
    rintro rfl
    exact absurd rfl (hne _ _ _)

/-- The branch that is taken back is well formed, and so are the statements in front of it. -/
private theorem branch_of_openBranch? {before rest : List Statement} {line : Option Int}
    {clauses : Clauses} (hbefore : ∀ statement ∈ before, statement.isWellFormed = true)
    (h : openBranch? before = some (line, clauses, rest)) :
    before = .branch line clauses :: rest ∧ clauses.isOpen = true ∧ clauses.isGuarded = true ∧
      clauses.isWellFormed = true ∧ ∀ statement ∈ rest, statement.isWellFormed = true := by
  obtain ⟨rfl, hopen⟩ := openBranch?_eq_some_iff.mp h
  obtain ⟨hbranch, hrest⟩ := List.forall_mem_cons.mp hbefore
  obtain ⟨hguarded, hshape⟩ := Bool.and_eq_true_iff.mp hbranch
  exact ⟨rfl, hopen, hguarded, hshape, hrest⟩

namespace LineContent

/-- The pieces of a line's content that has `depth` bodies around it. -/
def pieces (depth : Nat) : LineContent → List Piece
  | .statement s => s.pieces depth
  | .heading head _ => head.pieces depth

/-- Whether a line's content is well formed. -/
def isWellFormed : LineContent → Bool
  | .statement s => s.isWellFormed
  | .heading head _ => head.isWellFormed

/-- What reading a line promises: the tokens are the words of a group of pieces, with something
behind them that may end a line, and the content is that group behind the pieces `front`. -/
structure Reads (cx : LineContext) (depth : Nat) (tokens : List Token) (front : List Piece)
    (content : LineContent) (group : List Piece) : Prop where
  holds : ∃ tail, Token.Holds tokens (group.flatMap Piece.words) tail ∧ cx.finish tail = .ok ()
  pieces_eq : content.pieces depth = front ++ group
  wellFormed : content.isWellFormed = true

variable {cx : LineContext} (depth : Nat) {tokens rest : List Token} {content : LineContent}

variable {depth} in
/-- Pieces that are read in front of the others join them. -/
private theorem Reads.prepend {front group more : List Piece}
    (h : Reads cx depth rest (front ++ group) content more)
    (hholds : Token.Holds tokens (group.flatMap Piece.words) rest) :
    Reads cx depth tokens front content (group ++ more) := by
  obtain ⟨tail, hmore, hfinish⟩ := h.holds
  refine ⟨⟨tail, ?_, hfinish⟩, ?_, h.wellFormed⟩
  · rw [List.flatMap_append]
    exact hholds.trans hmore
  · rw [h.pieces_eq, List.append_assoc]

/-- Reading goes on behind the head of a loop or of a last clause. -/
private theorem reads_of_readBody {heading : Heading} {words : List Word}
    (hsettled : ∀ token ∈ tokens, token.toWord.IsSettled) (hstop : cx.stop.kind = .endOfLine)
    (hheading : heading.isWellFormed = true) (hhead : Token.Holds tokens words rest)
    (hwords : heading.phrase.words = words ++ [.fixed .colon])
    (h : heading.readBody cx rest = .ok content) :
    ∃ more, Reads cx depth tokens (heading.earlier.pieces depth true) content
      (⟨depth, heading.phrase⟩ :: more) := by
  simp only [Heading.readBody, bind_eq_ok_iff, Prod.exists] at h
  obtain ⟨colon, result, hinline, h⟩ := h
  have hbody := Body.holds_of_readInline (hhead.settled hsettled) hstop hinline
  cases result with
  | none =>
    cases h
    obtain ⟨tail, hcolon, hfinish⟩ := hbody
    refine ⟨[], ⟨tail, ?_, hfinish⟩, rfl, hheading⟩
    rw [List.flatMap_singleton, Piece.words, hwords]
    exact hhead.trans hcolon
  | some result =>
    obtain ⟨body, after⟩ := result
    obtain ⟨phrase, hpieces, hcolon, hshape⟩ := hbody
    obtain ⟨_, hfinish, hresult⟩ := bind_eq_ok_iff.mp h
    cases hresult
    refine ⟨[⟨depth + 1, phrase⟩], ⟨after, ?_, hfinish⟩, ?_,
      Heading.isWellFormed_complete hheading hshape⟩
    · rw [List.flatMap_cons, Piece.words, hwords, List.flatMap_singleton, Piece.words,
        List.append_assoc]
      exact hhead.trans hcolon
    · rw [pieces, Heading.pieces_complete hheading, hpieces, Heading.pieces, List.append_assoc]
      rfl

/-- What reading promises of a guarded clause with an inline body: it takes the words of two
pieces, and the clause can be appended to the earlier ones. -/
private structure Clause (depth : Nat) (tokens : List Token) (earlier : Clauses)
    (condition : Condition) (body : Body) (phrase : Phrase) (rest : List Token) : Prop where
  holds : Token.Holds tokens ([⟨depth, .guardHead earlier.isDone condition⟩,
    ⟨depth + 1, phrase⟩].flatMap Piece.words) rest
  pieces_eq : (earlier.append (.guarded condition body .done)).pieces depth true =
    earlier.pieces depth true ++ [⟨depth, .guardHead earlier.isDone condition⟩, ⟨depth + 1, phrase⟩]
  wellFormed : (earlier.append (.guarded condition body .done)).isWellFormed = true
  isOpen : (earlier.append (.guarded condition body .done)).isOpen = true
  isGuarded : (earlier.append (.guarded condition body .done)).isGuarded = true

private theorem clause_of_read {earlier : Clauses} {condition : Condition} {body : Body}
    {behind after : List Token} {colon : Token}
    (hsettled : ∀ token ∈ tokens, token.toWord.IsSettled) (hstop : cx.stop.kind = .endOfLine)
    (hopen : earlier.isOpen = true) (hearlier : earlier.isWellFormed = true)
    (hkeyword : Token.Holds tokens [.fixed (if earlier.isDone then .ifWord else .elifWord)] rest)
    (hcondition : Condition.read cx rest = .ok (condition, behind))
    (hinline : Body.readInline cx behind = .ok (colon, some (body, after))) :
    ∃ phrase, Clause depth tokens earlier condition body phrase after := by
  obtain ⟨hwords, hshape⟩ := Condition.holds_of_read (hkeyword.settled hsettled) hstop hcondition
  have hhead := hkeyword.trans hwords
  obtain ⟨phrase, hpieces, hinline, hbody⟩ :=
    Body.holds_of_readInline (hhead.settled hsettled) hstop hinline
  refine ⟨phrase, ?_, ?_, Clauses.isWellFormed_append_guarded _ _ hopen hearlier hshape hbody,
    Clauses.isOpen_append_guarded _ _ hopen, Clauses.isGuarded_append_guarded _ _ hopen⟩
  · have hall := hhead.trans hinline
    simpa [Piece.words, Phrase.words_guardHead] using hall
  · rw [Clauses.pieces_append_guarded _ _ hopen, hpieces]

/-- Reading goes on behind the keyword of a guarded clause. -/
private theorem reads_of_clauses {line : Option Int} {earlier : Clauses}
    (hsettled : ∀ token ∈ tokens, token.toWord.IsSettled) (hstop : cx.stop.kind = .endOfLine)
    (hopen : earlier.isOpen = true) (hearlier : earlier.isWellFormed = true)
    (hkeyword : Token.Holds tokens
      [.fixed (if earlier.isDone then .ifWord else .elifWord)] rest)
    (h : Clauses.read cx line earlier rest = .ok content) :
    ∃ phrase more, Reads cx depth tokens (earlier.pieces depth true) content
      (⟨depth, phrase⟩ :: more) := by
  -- along the clauses of the line; those read so far stay open
  fun_induction Clauses.read cx line earlier rest generalizing tokens with
  | case1 => cases h
  | case2 => cases h
  | case3 earlier rest condition behind hcondition colon hinline =>
    -- the colon ends the line: a heading
    cases h
    obtain ⟨hwords, hshape⟩ := Condition.holds_of_read (hkeyword.settled hsettled) hstop hcondition
    have hhead := hkeyword.trans hwords
    obtain ⟨tail, hcolon, hfinish⟩ :=
      Body.holds_of_readInline (hhead.settled hsettled) hstop hinline
    refine ⟨_, [], ⟨tail, ?_, hfinish⟩, rfl, ?_⟩
    · rw [List.flatMap_singleton, Piece.words, Heading.phrase, Phrase.words_guardHead]
      exact hhead.trans hcolon
    · simp [isWellFormed, Heading.isWellFormed, hopen, hearlier, hshape]
  | case4 earlier rest condition behind hcondition colon body clauses hinline =>
    -- the inline body ends the line
    cases h
    obtain ⟨phrase, hclause⟩ :=
      clause_of_read depth hsettled hstop hopen hearlier hkeyword hcondition hinline
    exact ⟨_, _, ⟨[], hclause.holds, rfl⟩, hclause.pieces_eq,
      Bool.and_eq_true_iff.mpr ⟨hclause.isGuarded, hclause.wellFormed⟩⟩
  | case5 earlier rest condition behind hcondition colon body clauses token tail hinline hkind =>
    -- a guarded clause follows: its keyword is the one for further clauses
    rename_i ih
    obtain ⟨phrase, hclause⟩ :=
      clause_of_read depth hsettled hstop hopen hearlier hkeyword hcondition hinline
    have hmore := hclause.holds.settled hsettled
    have hnext : Token.Holds (token :: tail)
        [.fixed (if clauses.isDone then .ifWord else .elifWord)] tail := by
      rw [Clauses.isDone_eq_false hclause.isGuarded]
      exact cx.holds_of_current hmore hstop hkind
    obtain ⟨_, _, hreads⟩ := ih hmore hclause.isOpen hclause.wellFormed hnext h
    rw [hclause.pieces_eq] at hreads
    exact ⟨_, _, hreads.prepend hclause.holds⟩
  | case6 earlier rest condition behind hcondition colon body clauses token tail hinline hkind =>
    -- the clause without a guard follows
    obtain ⟨phrase, hclause⟩ :=
      clause_of_read depth hsettled hstop hopen hearlier hkeyword hcondition hinline
    have hmore := hclause.holds.settled hsettled
    have hnext : Token.Holds (token :: tail) [.fixed .elseWord] tail :=
      cx.holds_of_current hmore hstop hkind
    have hheading : (Heading.otherwise line
        (earlier.append (.guarded condition body .done))).isWellFormed = true := by
      simp [Heading.isWellFormed, hclause.isGuarded, hclause.isOpen, hclause.wellFormed]
    obtain ⟨_, hreads⟩ := reads_of_readBody depth hmore hstop hheading hnext rfl h
    rw [Heading.earlier, hclause.pieces_eq] at hreads
    exact ⟨_, _, hreads.prepend hclause.holds⟩
  | case7 earlier rest condition behind hcondition colon body clauses token tail hinline _ _ =>
    -- anything else has to end the line
    obtain ⟨phrase, hclause⟩ :=
      clause_of_read depth hsettled hstop hopen hearlier hkeyword hcondition hinline
    cases hfinish : cx.finish (token :: tail) with
    | error failure =>
      rw [hfinish] at h
      cases h
    | ok =>
      rw [hfinish] at h
      cases h
      exact ⟨_, _, ⟨token :: tail, hclause.holds, hfinish⟩, hclause.pieces_eq,
        Bool.and_eq_true_iff.mpr ⟨hclause.isGuarded, hclause.wellFormed⟩⟩

/-- Reading goes on behind the keyword of a counting loop. -/
private theorem reads_of_for {name inWord range : Token} {first last : Expr}
    {line : Option Int} {behind afterIn afterFirst afterRange afterLast : List Token}
    (hsettled : ∀ token ∈ tokens, token.toWord.IsSettled) (hstop : cx.stop.kind = .endOfLine)
    (hkeyword : Token.Holds tokens [.fixed .forWord] rest)
    (hname : cx.expect .identifier rest = .ok (name, behind))
    (hin : cx.expect .inWord behind = .ok (inWord, afterIn))
    (hfirst : Expr.read cx afterIn = .ok (first, afterFirst))
    (hrange : cx.expect .range afterFirst = .ok (range, afterRange))
    (hlast : Expr.read cx afterRange = .ok (last, afterLast))
    (hbody : (Heading.forLoop line name.lexeme first last).readBody cx afterLast = .ok content) :
    ∃ more,
      Reads cx depth tokens [] content (⟨depth, .forHead name.lexeme first last⟩ :: more) := by
  have hrest := hkeyword.settled hsettled
  obtain ⟨hname, hlegal⟩ := cx.holds_of_expect_identifier hrest hstop hname
  have hbehind := hname.settled hrest
  have hin := cx.holds_of_expect hbehind hstop hin
  have hafterIn := hin.settled hbehind
  obtain ⟨hfirst, hfirstShape⟩ := Expr.holds_of_read hafterIn hfirst
  have hafterFirst := hfirst.settled hafterIn
  have hrange := cx.holds_of_expect hafterFirst hstop hrange
  obtain ⟨hlast, hlastShape⟩ := Expr.holds_of_read (hrange.settled hafterFirst) hlast
  have hheading : (Heading.forLoop line name.lexeme first last).isWellFormed = true := by
    simp [Heading.isWellFormed, hlegal, hfirstShape, hlastShape]
  have hhead := hkeyword.trans (hname.trans (hin.trans (hfirst.trans (hrange.trans hlast))))
  exact reads_of_readBody depth hsettled hstop hheading hhead
    (by simp [Heading.phrase, Phrase.words]) hbody

/-- **Reading a line** adds a group of pieces that begins at the depth of the line. If the line
goes on with a branch, the branch's pieces are taken back from the statements before it first. -/
theorem reads_of_read {before before' : List Statement}
    (hsettled : ∀ token ∈ tokens, token.toWord.IsSettled) (hstop : cx.stop.kind = .endOfLine)
    (hbefore : ∀ statement ∈ before, statement.isWellFormed = true)
    (h : read cx before tokens = .ok (content, before')) :
    ∃ taken phrase more,
      Statement.piecesOf depth before.reverse = Statement.piecesOf depth before'.reverse ++ taken ∧
      Reads cx depth tokens taken content (⟨depth, phrase⟩ :: more) ∧
      ∀ statement ∈ before', statement.isWellFormed = true := by
  unfold read at h
  simp only at h
  split at h
  · next hkind =>
    -- the first clause of a branch
    have hword := cx.holds_of_current hsettled hstop hkind
    simp only [bind_eq_ok_iff] at h
    obtain ⟨_, hclauses, hresult⟩ := h
    cases hresult
    have hopen : Clauses.done.isOpen = true := rfl
    obtain ⟨phrase, more, hreads⟩ := reads_of_clauses depth hsettled hstop hopen
      rfl hword hclauses
    exact ⟨[], phrase, more, (List.append_nil _).symm, hreads, hbefore⟩
  · next hkind =>
    -- a guarded clause of the branch in front
    have hword := cx.holds_of_current hsettled hstop hkind
    split at h
    · next line clauses rest hfound =>
      obtain ⟨rfl, hopen, hguarded, hshape, hrest⟩ := branch_of_openBranch? hbefore hfound
      simp only [bind_eq_ok_iff] at h
      obtain ⟨_, hclauses, hresult⟩ := h
      cases hresult
      have hkeyword : Token.Holds tokens
          [.fixed (if clauses.isDone then .ifWord else .elifWord)] tokens.tail := by
        rw [Clauses.isDone_eq_false hguarded]
        exact hword
      obtain ⟨phrase, more, hreads⟩ := reads_of_clauses depth hsettled hstop hopen hshape
        hkeyword hclauses
      exact ⟨_, phrase, more, Statement.piecesOf_reverse_cons depth _ before', hreads, hrest⟩
    · cases h
  · next hkind =>
    -- the clause without a guard of the branch in front
    have hword := cx.holds_of_current hsettled hstop hkind
    split at h
    · next line clauses rest hfound =>
      obtain ⟨rfl, hopen, hguarded, hshape, hrest⟩ := branch_of_openBranch? hbefore hfound
      simp only [bind_eq_ok_iff] at h
      obtain ⟨_, hbody, hresult⟩ := h
      cases hresult
      have hheading : (Heading.otherwise line clauses).isWellFormed = true := by
        simp [Heading.isWellFormed, hguarded, hopen, hshape]
      obtain ⟨more, hreads⟩ := reads_of_readBody depth hsettled hstop hheading hword rfl hbody
      exact ⟨_, _, more, Statement.piecesOf_reverse_cons depth _ before', hreads, hrest⟩
    · cases h
  · next hkind =>
    -- a loop with a condition
    have hword := cx.holds_of_current hsettled hstop hkind
    simp only [bind_eq_ok_iff, Prod.exists] at h
    obtain ⟨condition, behind, hcondition, _, hbody, hresult⟩ := h
    cases hresult
    obtain ⟨hcondition, hshape⟩ := Condition.holds_of_read (hword.settled hsettled) hstop hcondition
    have hheading :
        (Heading.whileLoop (some (cx.current tokens).row) condition).isWellFormed = true := hshape
    obtain ⟨more, hreads⟩ := reads_of_readBody depth hsettled hstop hheading
      (hword.trans hcondition) rfl hbody
    exact ⟨[], _, more, (List.append_nil _).symm, hreads, hbefore⟩
  · next hkind =>
    -- a counting loop
    have hword := cx.holds_of_current hsettled hstop hkind
    simp only [bind_eq_ok_iff, Prod.exists] at h
    obtain ⟨name, behind, hname, _, _, hin, first, _, hfirst, _, _, hrange, last, _, hlast, _,
      hbody, hresult⟩ := h
    cases hresult
    obtain ⟨more, hreads⟩ :=
      reads_of_for depth hsettled hstop hword hname hin hfirst hrange hlast hbody
    exact ⟨[], _, more, (List.append_nil _).symm, hreads, hbefore⟩
  · -- a simple statement
    simp only [bind_eq_ok_iff, Prod.exists] at h
    obtain ⟨statement, rest, hsimple, _, hfinish, hresult⟩ := h
    cases hresult
    obtain ⟨phrase, hpieces, hwords, hshape⟩ := Statement.holds_of_readSimple hsettled hstop hsimple
    refine ⟨[], phrase, [], (List.append_nil _).symm, ⟨⟨rest, ?_, hfinish⟩, hpieces depth, hshape⟩,
      hbefore⟩
    rw [List.flatMap_singleton]
    exact hwords

end LineContent

end Offside

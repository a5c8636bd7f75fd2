import Offside.Proofs.Source.Grammar
import Offside.Source.Layout

/-!
# Reading recognises the grammar

`Expr.ofLine` reads a line without a semicolon exactly when its words can be derived from the
grammar, as far as its literals are within the limit and its nesting has room; and the tree that
it reads is the one derivation in which every minus sign takes the longest expression
(`Expr.ofLine_recognises_grammar`).

One direction is what the frames keep: words are taken one by one and make a well-formed tree. For
the other, reading is followed along any derivation. Wherever it comes to, the derived words leave
as many parentheses open as there were before, so the next word that the grammar allows finds a
parenthesis to close, or an operand to go on with.
-/

namespace Offside

/-! ### Open parentheses -/

namespace Frame

/-- The number of parentheses that are open in a stack of frames. -/
def openings : List Frame → Nat
  | [] => 0
  | .opened _ :: outer => openings outer + 1
  | .negate _ :: outer => openings outer
  | .binary .. :: outer => openings outer

private theorem openings_closeOperators (op : Operator) (frames : List Frame) (value : Expr) :
    openings (closeOperators op frames value).1 = openings frames := by
  fun_induction closeOperators op frames value with
  | case1 row pending left outer value hcloses ih => exact ih
  | case2 => rfl
  | case3 => rfl

/-- An expression ends where no parenthesis is open. -/
private theorem exists_closeExpression {frames : List Frame} (h : openings frames = 0)
    (value : Expr) :
    ∃ whole, closeExpression frames value = (whole, none) := by
  fun_induction closeExpression frames value with
  | case1 value => exact ⟨value, rfl⟩
  | case2 row outer value => cases h
  | case3 row outer value ih => exact ih h
  | case4 row op left outer value ih => exact ih h

/-- A parenthesis can be closed where one is open. -/
private theorem exists_closeExpression_opened {frames : List Frame} {n : Nat}
    (h : openings frames = n + 1) (value : Expr) :
    ∃ inner row outer, closeExpression frames value = (inner, some (row, outer)) ∧
      openings outer = n := by
  fun_induction closeExpression frames value with
  | case1 value => cases h
  | case2 row outer value => exact ⟨value, row, outer, rfl, Nat.succ_inj.mp h⟩
  | case3 row outer value ih => exact ih h
  | case4 row op left outer value ih => exact ih h

end Frame

/-! ### Reading along a derivation -/

namespace Derives

variable {cx : LineContext}

/-- What reading promises behind an operand: either there was no room, or the pass is behind the
operand with as many parentheses open as before. -/
private def Passes (cx : LineContext) (frames : List Frame) (tokens rest : List Token) : Prop :=
  Expr.readOn cx frames none (tokens ++ rest) = .error (.unplaced .nestedTooDeeplyToRead) ∨
    ∃ frames' value, Frame.openings frames' = Frame.openings frames ∧
      Expr.readOn cx frames none (tokens ++ rest) = Expr.readOn cx frames' (some value) rest

/-- Behind an operand, an operator and another operand there is an operand again. -/
private theorem Passes.operation {frames : List Frame} {sign : Token} {op : Operator}
    {front back : List Token} (hsign : Operator.ofKind? sign.kind = some op)
    (hfront : ∀ frames rest, Passes cx frames front rest)
    (hback : ∀ frames rest, Passes cx frames back rest) (rest : List Token) :
    Passes cx frames (front ++ sign :: back) rest := by
  rw [Passes, List.append_assoc, List.cons_append]
  rcases hfront frames (sign :: (back ++ rest)) with hdeep | ⟨frames', value, hopen, heq⟩
  · exact .inl hdeep
  · -- the operator completes operators alone, so it closes no parenthesis
    rw [heq, Expr.readOn_operator _ hsign, ← hopen,
      ← Frame.openings_closeOperators op frames' value]
    exact hback _ rest

private theorem passes {category : Category} {words : List Word} {e : Expr}
    (h : Derives category words e) {tokens : List Token} (htokens : tokens.map Token.toWord = words)
    (hreadable : ∀ word ∈ words, word.IsReadable) (frames : List Frame) (rest : List Token) :
    Passes cx frames tokens rest := by
  induction h generalizing tokens frames rest with
  | integer line hword =>
    obtain ⟨token, rfl, rfl⟩ := List.map_eq_singleton_iff.mp htokens
    have hread := (List.forall_mem_singleton.mp hreadable).read hword
    exact .inr ⟨frames, _, rfl, Expr.readOn_integer rest hword hread⟩
  | identifier line hword =>
    obtain ⟨token, rfl, rfl⟩ := List.map_eq_singleton_iff.mp htokens
    exact .inr ⟨frames, _, rfl, Expr.readOn_identifier rest hword⟩
  | paren line hopening hclosing h ih =>
    obtain ⟨opening, tail, rfl, rfl, htail⟩ := List.map_eq_cons_iff.mp htokens
    obtain ⟨middle, last, rfl, hmiddle, hlast⟩ := List.map_eq_append_iff.mp htail
    obtain ⟨closing, rfl, rfl⟩ := List.map_eq_singleton_iff.mp hlast
    have hinner := (List.forall_mem_append.mp (List.forall_mem_cons.mp hreadable).2).1
    rw [Passes, List.cons_append, List.append_assoc, Expr.readOn_leftParen _ hopening]
    split
    · -- behind the words inside, the parenthesis that opened is still there to be closed
      rcases ih hmiddle hinner (.opened opening.row :: frames) (closing :: rest) with
        hdeep | ⟨frames', value, hopen, heq⟩
      · exact .inl hdeep
      · obtain ⟨inner, row, outer, hclose, houter⟩ :=
          Frame.exists_closeExpression_opened hopen value
        exact .inr ⟨outer, _, houter, heq.trans (Expr.readOn_rightParen rest hclosing hclose)⟩
    · exact .inl rfl
  | negate line hsign h ih =>
    obtain ⟨sign, tail, rfl, rfl, htail⟩ := List.map_eq_cons_iff.mp htokens
    rw [Passes, List.cons_append, Expr.readOn_subtract _ hsign]
    split
    · exact ih htail (List.forall_mem_cons.mp hreadable).2 (.negate sign.row :: frames) rest
    · exact .inl rfl
  | factor h ih => exact ih htokens hreadable frames rest
  | product line hop hleft hright ihl ihr =>
    obtain ⟨front, tail, rfl, hfront, htail⟩ := List.map_eq_append_iff.mp htokens
    obtain ⟨sign, back, rfl, rfl, hback⟩ := List.map_eq_cons_iff.mp htail
    obtain ⟨hreadFront, hreadTail⟩ := List.forall_mem_append.mp hreadable
    exact Passes.operation (Operator.product_iff.mp hop).1 (ihl hfront hreadFront)
      (ihr hback (List.forall_mem_cons.mp hreadTail).2) rest
  | term h ih => exact ih htokens hreadable frames rest
  | sum line hop hleft hright ihl ihr =>
    obtain ⟨front, tail, rfl, hfront, htail⟩ := List.map_eq_append_iff.mp htokens
    obtain ⟨sign, back, rfl, rfl, hback⟩ := List.map_eq_cons_iff.mp htail
    obtain ⟨hreadFront, hreadTail⟩ := List.forall_mem_append.mp hreadable
    exact Passes.operation (Operator.sum_iff.mp hop).1 (ihl hfront hreadFront)
      (ihr hback (List.forall_mem_cons.mp hreadTail).2) rest

/-- Words that can be derived are read to the end, unless there is no room for them. -/
private theorem read_eq_ok_or {category : Category} {tokens : List Token} {e : Expr}
    (h : Derives category (tokens.map Token.toWord) e)
    (hreadable : ∀ token ∈ tokens, token.toWord.IsReadable) :
    (∃ whole, Expr.read cx tokens = .ok (whole, [])) ∨
      Expr.read cx tokens = .error (.unplaced .nestedTooDeeplyToRead) := by
  have hpasses : Passes cx [] tokens [] := h.passes rfl (by simpa using hreadable) [] []
  rw [Passes, List.append_nil] at hpasses
  rcases hpasses with hdeep | ⟨frames, value, hopen, heq⟩
  · exact .inr hdeep
  · obtain ⟨whole, hclose⟩ := Frame.exists_closeExpression hopen value
    refine .inl ⟨whole, ?_⟩
    rw [Expr.read, heq, Expr.readOn, hclose]

end Derives

/-! ### Whole lines -/

namespace Expr

variable {line : String} {scanned : TokenLine}

private theorem exists_scan_of_ofLine {e : Expr} (h : ofLine line = .ok e) :
    ∃ scanned, TokenLine.scan 0 line.toList = .ok scanned := by
  simp only [ofLine, bind, Except.bind] at h
  split at h
  · cases h
  · next scanned hscan => exact ⟨scanned, hscan⟩

private theorem ofLine_of_read_eq_error (hscan : TokenLine.scan 0 line.toList = .ok scanned)
    {failure : Failure}
    (h : read ⟨scanned.stop, nestingLimit⟩ scanned.tokens = .error failure) :
    ofLine line = .error failure := by
  simp only [ofLine, hscan, h, bind, Except.bind]

/-- On a line without a semicolon an expression is read when it takes all tokens. -/
private theorem ofLine_eq_ok_iff (hscan : TokenLine.scan 0 line.toList = .ok scanned)
    (hend : ';' ∉ line.toList) {e : Expr} :
    ofLine line = .ok e ↔ read ⟨scanned.stop, nestingLimit⟩ scanned.tokens = .ok (e, []) := by
  simp only [ofLine, hscan, bind, Except.bind, pure, Except.pure]
  cases hread : read ⟨scanned.stop, nestingLimit⟩ scanned.tokens with
  | error failure => simp
  | ok result =>
    obtain ⟨whole, rest⟩ := result
    cases rest with
    | nil => simp [LineContext.finish]
    | cons token rest =>
      -- only a semicolon could end the line here
      have hmem := (suffix_of_read hread).1.subset List.mem_cons_self
      have hkind : token.kind ≠ .endOfLine := fun hkind =>
        hend (TokenLine.semicolon_mem_of_scan hscan hmem hkind)
      simp [LineContext.finish, hkind]

/-- The derivation that reading picks reads as its tree, on the first row. -/
private theorem ofLine_of_derives (hscan : TokenLine.scan 0 line.toList = .ok scanned)
    (hend : ';' ∉ line.toList) (hshort : scanned.IsShort) {e : Expr}
    (hderives : Derives .expr scanned.words e) (hlongest : e.TakesLongest scanned.words) :
    ofLine line =
      if e.nesting true ≤ nestingLimit then .ok (e.onRow 0)
      else .error (.unplaced .nestedTooDeeplyToRead) := by
  have hspells := TokenLine.spells_of_scan hscan hshort
  have hreadable : ∀ word ∈ scanned.words, word.IsReadable := by
    simpa [TokenLine.words] using fun token hmem => (hspells.readable token hmem).toIsReadable
  have hwhole : e.TakesLongest (scanned.words ++ []) := by rwa [List.append_nil]
  have he := hderives.isWellFormed hwhole hreadable
  have hwords : Token.words scanned.tokens = e.words := by
    rw [hderives.words_eq fun word hmem => (hreadable word hmem).toIsSettled, TokenLine.words,
      List.map_map]
    rfl
  have hread : read ⟨scanned.stop, nestingLimit⟩ (scanned.tokens ++ []) = _ :=
    read_spelling he (hwords ▸ hspells) nofun
  rw [List.append_nil] at hread
  split
  · next hfits => rw [ofLine_eq_ok_iff hscan hend, hread, if_pos hfits]
  · next hdeep => exact ofLine_of_read_eq_error hscan (hread.trans (if_neg hdeep))

/-- What is read is a derivation in which every minus sign takes the longest expression. -/
private theorem derives_of_ofLine (hscan : TokenLine.scan 0 line.toList = .ok scanned)
    (hend : ';' ∉ line.toList) {e : Expr} (h : ofLine line = .ok e) :
    Derives .expr scanned.words e ∧ e.TakesLongest scanned.words := by
  have hsettled : ∀ token ∈ scanned.tokens, token.toWord.IsSettled := fun token hmem =>
    (TokenLine.settled_of_mem_scan hscan hmem).1
  have hread := (ofLine_eq_ok_iff hscan hend).mp h
  have he := isWellFormed_of_read hsettled hread
  obtain ⟨consumed, htokens, hwords⟩ := words_of_read hsettled hread
  rw [List.append_nil] at htokens
  have hnormal : scanned.words.map Word.normal = e.words := by
    rw [hwords, ← htokens, TokenLine.words, List.map_map]
    rfl
  have hderives := (Derives.of_isWellFormed he hnormal (by simpa [TokenLine.words])).1
  have hlongest : e.TakesLongest (scanned.words ++ []) := hderives.takesLongest he fun _ => nofun
  rw [List.append_nil] at hlongest
  exact ⟨hderives, hlongest⟩

/-- **The grammar of expressions.** A line without a semicolon whose literals are within the limit
on digits is read as an expression exactly when it scans and its words are derived from the
grammar, unless its nesting exceeds the limit. The tree that is read is the one derivation in
which every minus sign takes the longest expression, and what exceeds the limit is the nesting of
that tree. -/
theorem ofLine_recognises_grammar (hend : ';' ∉ line.toList)
    (hshort : ∀ scanned, TokenLine.scan 0 line.toList = .ok scanned → scanned.IsShort) :
    (ofLine line ≠ .error (.unplaced .nestedTooDeeplyToRead) →
      ((∃ e, ofLine line = .ok e) ↔
        ∃ scanned e, TokenLine.scan 0 line.toList = .ok scanned ∧
          Derives .expr scanned.words e)) ∧
    (∀ e, ofLine line = .ok e → ∃ scanned, TokenLine.scan 0 line.toList = .ok scanned ∧
      Derives .expr scanned.words e ∧ e.TakesLongest scanned.words ∧
      ∀ e', Derives .expr scanned.words e' → e'.TakesLongest scanned.words →
        e'.unlined = e.unlined) ∧
    ∀ scanned e, TokenLine.scan 0 line.toList = .ok scanned → Derives .expr scanned.words e →
      e.TakesLongest scanned.words →
      (ofLine line = .error (.unplaced .nestedTooDeeplyToRead) ↔
        nestingLimit < e.nesting true) := by
  refine ⟨fun hroom => ⟨?_, ?_⟩, ?_, ?_⟩
  · rintro ⟨e, he⟩
    obtain ⟨scanned, hscan⟩ := exists_scan_of_ofLine he
    exact ⟨scanned, e, hscan, (derives_of_ofLine hscan hend he).1⟩
  · -- nothing but the nesting can be in the way
    rintro ⟨scanned, e, hscan, hderives⟩
    have hspells := TokenLine.spells_of_scan hscan (hshort scanned hscan)
    rcases hderives.read_eq_ok_or fun token hmem => (hspells.readable token hmem).toIsReadable with
      ⟨whole, hread⟩ | hdeep
    · exact ⟨whole, (ofLine_eq_ok_iff hscan hend).mpr hread⟩
    · exact absurd (ofLine_of_read_eq_error hscan hdeep) hroom
  · intro e he
    obtain ⟨scanned, hscan⟩ := exists_scan_of_ofLine he
    obtain ⟨hderives, hlongest⟩ := derives_of_ofLine hscan hend he
    refine ⟨scanned, hscan, hderives, hlongest, fun e' hderives' hlongest' => ?_⟩
    -- both trees read as themselves from the same line
    have hread := ofLine_of_derives hscan hend (hshort scanned hscan) hderives hlongest
    have hread' := ofLine_of_derives hscan hend (hshort scanned hscan) hderives' hlongest'
    rw [he] at hread hread'
    split at hread
    · split at hread'
      · rw [← e'.unlined_mapLine fun _ => some 0, ← e.unlined_mapLine fun _ => some 0]
        exact congrArg unlined (Except.ok.inj (hread'.symm.trans hread))
      · cases hread'
    · cases hread
  · intro scanned e hscan hderives hlongest
    rw [ofLine_of_derives hscan hend (hshort scanned hscan) hderives hlongest, ← Nat.not_le]
    split
    · next hfits => simp [hfits]
    · next hdeep => simp [hdeep]

/-- In `1 + 2 * -x - 3` the product is inside the sum, and the minus sign in front of `x` takes
what is behind it, although that is not multiplied. -/
theorem ofLine_recognises_product_in_sum :
    ∃ scanned, TokenLine.scan 0 "1 + 2 * -x - 3".toList = .ok scanned ∧
      Derives .expr scanned.words (.binary (some 0) .add (.number (some 0) 1)
        (.binary (some 0) .multiply (.number (some 0) 2)
          (.negate (some 0) (.binary (some 0) .subtract (.var (some 0) "x")
            (.number (some 0) 3))))) ∧
      ∀ e', Derives .expr scanned.words e' → e'.TakesLongest scanned.words →
        e'.unlined = .binary none .add (.number none 1) (.binary none .multiply (.number none 2)
          (.negate none (.binary none .subtract (.var none "x") (.number none 3)))) := by
  have hshort : ∀ scanned ∈ (TokenLine.scan 0 "1 + 2 * -x - 3".toList).toOption,
      scanned.IsShort := by decide +kernel
  have hread : ofLine "1 + 2 * -x - 3" = .ok (.binary (some 0) .add (.number (some 0) 1)
      (.binary (some 0) .multiply (.number (some 0) 2)
        (.negate (some 0) (.binary (some 0) .subtract (.var (some 0) "x")
          (.number (some 0) 3))))) := by
    decide +kernel
  obtain ⟨scanned, hscan, hderives, -, hunique⟩ :=
    (ofLine_recognises_grammar (by decide)
      fun scanned hscan => hshort scanned (by rw [hscan]; rfl)).2.1 _ hread
  exact ⟨scanned, hscan, hderives, hunique⟩

end Expr

end Offside

import Offside.Proofs.Source.RoundTrip

/-!
# Simple statements on lines of their own

A line at the top level that holds a simple statement, written with single spaces, is read as that
statement, and a literal in it as its value. A literal of too many digits is not read
(`Progress.feed_let`).
-/

namespace Offside

/-- Reading a literal that nothing follows. -/
theorem Expr.read_literal (cx : LineContext) {token : Token} (hkind : token.kind = .integer) :
    read cx [token] =
      match Numeral.read token.lexeme.toList with
      | .error b => .error (.broken b)
      | .ok n => .ok (.number (some token.row) n, []) := by
  rw [read, readOn]
  simp only [hkind]
  cases Numeral.read token.lexeme.toList <;> rfl

private theorem Word.isSettled_fixed {kind : Kind}
    (h : (fixed kind).kind.spelling?.isSome = true := by rfl) (hne : kind ≠ .eqEq := by decide) :
    (fixed kind).IsSettled :=
  (isPlain_fixed h hne).toIsSettled

namespace Progress

variable {row : Nat} {statements : List Statement} {name : String}

/-- A line that holds the words of a simple statement is read as one. -/
private theorem feed_simple {first : Word} {words : List Word}
    (hfirst : first.kind = .letWord ∨ first.kind = .displayWord ∨ first.kind = .inputWord)
    (hwords : ∀ word ∈ first :: words, word.IsSettled) {line : String}
    (hline : line.toList = Word.spaced (first :: words)) :
    ∃ cx : LineContext, feed ⟨row, statements, []⟩ line =
      Statement.readSimple cx (Token.spaced row 0 (first :: words)) >>= fun simple =>
        cx.finish simple.2 >>= fun _ => .ok ⟨row + 1, simple.1 :: statements, []⟩ := by
  have hne : first :: words ≠ [] := List.cons_ne_nil first words
  have htabbed : line.toList = Word.tabbed 0 (first :: words) := hline
  have hblank : Text.isBlankText line.toList = false := by
    rw [htabbed, Word.isBlankText_tabbed 0 hne hwords]
  have hlevel : Text.indentLevel line.toList = 0 := by
    rw [htabbed, Word.indentLevel_tabbed 0 hne hwords]
  let cx : LineContext := ⟨.closing row (Word.spaced (first :: words)).length, nestingLimit⟩
  have hread : LineContent.read cx statements (Token.spaced row 0 (first :: words)) = _ :=
    LineContent.read_simple hfirst
  refine ⟨cx, ?_⟩
  rw [feed_of_settlesAt (settlesAt_self row statements []) hblank hlevel, htabbed,
    TokenLine.scan_tabbed row 0 hwords, ok_bind]
  change LineContent.read cx statements _ >>= add row [] = _
  rw [hread, bind_assoc]
  simp only [bind_assoc]
  rfl

/-- A line that sets a variable to a literal. -/
theorem feed_let (hname : Kind.IsIdentifier name) {digits : String}
    (hdigits : Kind.isNumeral digits.toList = true) :
    feed ⟨row, statements, []⟩ ("let " ++ name ++ " := " ++ digits) =
      match Numeral.read digits.toList with
      | .error b => .error (.broken b)
      | .ok n =>
        .ok ⟨row + 1, .assign (some row) name (.number (some row) n) :: statements, []⟩ := by
  let literal : Word := ⟨digits, .integer⟩
  have hline : ("let " ++ name ++ " := " ++ digits).toList =
      Word.spaced [.fixed .letWord, .name name, .fixed .assign, literal] := by
    simp [literal, Word.spaced, Word.fixed, Kind.spelling?, Word.name, String.toList_append]
  have hliteral : literal.IsSettled :=
    Word.isSettled_of_classify (Kind.classify_eq_integer_iff.mpr hdigits)
      fun hkind => by cases hkind
  have hwords : ∀ word ∈ [.fixed .letWord, .name name, .fixed .assign, literal],
      word.IsSettled := by
    simp only [List.forall_mem_cons]
    exact ⟨Word.isSettled_fixed, (Word.isPlain_name hname).toIsSettled, Word.isSettled_fixed,
      hliteral, List.forall_mem_nil _⟩
  obtain ⟨cx, hfeed⟩ := feed_simple (.inl rfl) hwords hline
  have hread : ∃ column, Statement.readSimple cx
      (Token.spaced row 0 [.fixed .letWord, .name name, .fixed .assign, literal]) =
        Expr.read cx [⟨literal, row, column⟩] >>= fun value =>
          .ok (.assign (some row) name value.1, value.2) := ⟨_, rfl⟩
  obtain ⟨column, hread⟩ := hread
  rw [hfeed, hread, Expr.read_literal cx rfl]
  dsimp only [literal]
  cases Numeral.read digits.toList <;> rfl

/-- A line that holds a keyword and a name is read as a simple statement that begins with it. -/
private theorem feed_keyword {kind : Kind} (hkind : kind = .displayWord ∨ kind = .inputWord)
    (hname : Kind.IsIdentifier name) {line : String}
    (hline : line.toList = (Word.fixed kind).lexeme.toList ++ ' ' :: name.toList) :
    ∃ cx : LineContext, feed ⟨row, statements, []⟩ line =
      Statement.readSimple cx (Token.spaced row 0 [.fixed kind, .name name]) >>= fun simple =>
        cx.finish simple.2 >>= fun _ => .ok ⟨row + 1, simple.1 :: statements, []⟩ := by
  have hsettled : (Word.fixed kind).IsSettled := by
    rcases hkind with rfl | rfl <;> exact Word.isSettled_fixed
  have hspaced : line.toList = Word.spaced [.fixed kind, .name name] := by
    rw [hline]
    simp [Word.spaced, Word.name]
  refine feed_simple (.inr hkind) (fun word hmem => ?_) hspaced
  rcases List.mem_cons.mp hmem with rfl | hmem
  · exact hsettled
  · rw [List.mem_singleton.mp hmem]
    exact (Word.isPlain_name hname).toIsSettled

/-- A line that displays a variable. -/
theorem feed_display (hname : Kind.IsIdentifier name) :
    feed ⟨row, statements, []⟩ ("display " ++ name) =
      .ok ⟨row + 1, .display (some row) (.var (some row) name) :: statements, []⟩ := by
  have hline : ("display " ++ name).toList = "display".toList ++ ' ' :: name.toList := by simp
  obtain ⟨cx, hfeed⟩ := feed_keyword (.inl rfl) hname hline
  rw [hfeed]
  rfl

/-- A line that asks for a variable. -/
theorem feed_input (hname : Kind.IsIdentifier name) :
    feed ⟨row, statements, []⟩ ("input " ++ name) =
      .ok ⟨row + 1, .input (some row) name :: statements, []⟩ := by
  have hline : ("input " ++ name).toList = "input".toList ++ ' ' :: name.toList := by simp
  obtain ⟨cx, hfeed⟩ := feed_keyword (.inr rfl) hname hline
  rw [hfeed]
  rfl

end Progress

namespace Program

theorem ofLines_pair (first second : String) :
    ofLines [first, second] =
      Progress.start.feed first >>= fun p => p.feed second >>= Progress.finish := by
  rw [ofLines, List.foldlM_cons, bind_assoc]
  simp only [List.foldlM_cons, List.foldlM_nil, bind_pure]

end Program

end Offside

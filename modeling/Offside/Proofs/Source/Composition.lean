import Offside.Proofs.Relabeling.Program
import Offside.Proofs.Token.FirstWord

/-!
# Programs one behind the other

A line that is not indented and continues no branch closes all blocks above it, and is read as if it
were the first. So the lines of two programs together, where those of the second begin with such a
line, are read as the two programs, one behind the other (`Program.ofLines_append_eq_ok_iff`).

What carries this over the blocks that the second program opens is that progress may be put **onto**
statements that are then below its outermost block: reading goes on as before and leaves them where
they are (`Progress.take_onto`, `Progress.readOn_onto`).
-/

namespace Offside

/-! ### Blocks on top of statements -/

/-- Statements and open blocks on top of further statements, which come below those of the outermost
block. Statements are listed last first. -/
def Level.onto (bottom statements : List Statement) : List Level → List Statement × List Level
  | [] => (statements ++ bottom, [])
  | level :: outer =>
    let (before, outer) := onto bottom level.before outer
    (statements, ⟨level.heading, level.colon, before⟩ :: outer)

namespace Progress

variable {p p' : Progress} {bottom statements statements' : List Statement}
  {levels levels' : List Level} {next : Option Nat} {depth : Nat}

/-- Progress on top of further statements. -/
def onto (bottom : List Statement) (p : Progress) : Progress where
  row := p.row
  statements := (Level.onto bottom p.statements p.levels).1
  levels := (Level.onto bottom p.statements p.levels).2

private theorem onto_cons (statement : Statement) :
    Level.onto bottom (statement :: statements) levels =
      (statement :: (Level.onto bottom statements levels).1,
        (Level.onto bottom statements levels).2) := by
  cases levels <;> rfl

private theorem onto_levels (statements statements' : List Statement) (levels : List Level) :
    (Level.onto bottom statements levels).2 = (Level.onto bottom statements' levels).2 := by
  cases levels <;> rfl

@[simp]
theorem length_onto (levels : List Level) :
    (Level.onto bottom statements levels).2.length = levels.length := by
  induction levels generalizing statements with
  | nil => rfl
  | cons level outer ih => exact congrArg (· + 1) ih

/-! ### Closing blocks -/

/-- Whether blocks can be closed does not go by what comes next. -/
private theorem close_eq_ok_of_next (next' : Option Nat)
    (h : close next depth levels statements = .ok (statements', levels')) :
    close next' depth levels statements = .ok (statements', levels') := by
  fun_induction close next depth levels statements with
  | case1 => exact h
  | case2 level outer statements houter => rwa [close, if_pos houter]
  | case3 => cases h
  | case4 level outer statements houter hempty body ih =>
    rw [close, if_neg houter, if_neg hempty]
    exact ih h

/-- No block is open inside none. -/
private theorem levels_eq_nil_of_close
    (h : close next 0 levels statements = .ok (statements', levels')) :
    levels' = [] := by
  fun_induction close next 0 levels statements with
  | case1 => cases h; rfl
  | case2 level outer statements houter => cases houter
  | case3 => cases h
  | case4 level outer statements houter hempty body ih => exact ih h

/-- Blocks are closed alike on top of further statements. -/
private theorem close_onto :
    close next depth (Level.onto bottom statements levels).2
        (Level.onto bottom statements levels).1 =
      (close next depth levels statements).map fun (statements, levels) =>
        Level.onto bottom statements levels := by
  fun_induction close next depth levels statements with
  | case1 statements => rfl
  | case2 level outer statements houter =>
    rw [Level.onto, close, length_onto, if_pos houter]
    rfl
  | case3 level outer statements houter hempty =>
    rw [Level.onto, close, length_onto, if_neg houter, if_pos hempty]
    rfl
  | case4 level outer statements houter hempty body ih =>
    rw [onto_cons] at ih
    rw [Level.onto, close, length_onto, if_neg houter, if_neg hempty]
    exact ih

/-- Progress is **occupied** when a statement or a heading was read in its outermost block. -/
def IsOccupied (statements : List Statement) (levels : List Level) : Prop :=
  statements ≠ [] ∨ levels ≠ []

/-- Closing blocks leaves statements where there were some. -/
private theorem isOccupied_of_close (hp : IsOccupied statements levels)
    (h : close next depth levels statements = .ok (statements', levels')) :
    IsOccupied statements' levels' := by
  fun_induction close next depth levels statements with
  | case1 => cases h; exact hp
  | case2 => cases h; exact hp
  | case3 => cases h
  | case4 level outer statements houter hempty body ih => exact ih (.inl (List.cons_ne_nil _ _)) h

private theorem isOccupied_of_take {line : SourceLine} (h : p.take line = .ok p') :
    IsOccupied p'.statements p'.levels := by
  obtain ⟨_, levels, _, content, before, -, -, -, hadd⟩ := exists_of_take h
  obtain ⟨_, -, rfl⟩ | ⟨_, _, -, rfl⟩ := cases_of_add hadd
  · exact .inl (List.cons_ne_nil _ before)
  · exact .inr (List.cons_ne_nil _ levels)

end Progress

/-! ### Reading a line -/

/-- A token begins a **further clause** of a branch. -/
def Token.IsFurther (token : Token) : Prop :=
  token.kind = .elifWord ∨ token.kind = .elseWord

section Results

variable {ε α α' β γ : Type} {first : Except ε α} {next : α → Except ε β}

/-- What is made of a result is made of it at its end. -/
private theorem map_bind (f : β → γ) :
    (first >>= next).map f = first >>= fun a => (next a).map f := by
  cases first <;> rfl

private theorem map_bind_congr {f : α → α'} {next' : α' → Except ε γ} {g : β → γ}
    (h : ∀ a, first = .ok a → next' (f a) = (next a).map g) :
    first.map f >>= next' = (first >>= next).map g := by
  cases first with
  | error failure => rfl
  | ok a => exact h a rfl

private theorem bind_congr_map {next' : α → Except ε γ} {g : β → γ}
    (h : ∀ a, first = .ok a → next' a = (next a).map g) :
    first >>= next' = (first >>= next).map g := by
  cases first with
  | error failure => rfl
  | ok a => exact h a rfl

end Results

private theorem openBranch?_append {before : List Statement} (h : before ≠ [])
    (bottom : List Statement) :
    openBranch? (before ++ bottom) =
      (openBranch? before).map fun (line, clauses, before) =>
        (line, clauses, before ++ bottom) := by
  cases before with
  | nil => exact absurd rfl h
  | cons statement before =>
    cases statement with
    | branch line clauses =>
      change (if clauses.isOpen then _ else _) = Option.map _ (if clauses.isOpen then _ else _)
      split <;> rfl
    | assign | display | input | whileLoop | forLoop | block | misplaced => rfl

/-- A line goes by the last statement in front of it at most, and only if it is a further
clause. -/
private theorem LineContent.read_append {cx : LineContext} {before : List Statement}
    {tokens : List Token}
    (h : before ≠ [] ∨ ¬ (cx.current tokens).IsFurther) (bottom : List Statement) :
    read cx (before ++ bottom) tokens =
      (read cx before tokens).map fun (content, before) => (content, before ++ bottom) := by
  have hopen : (cx.current tokens).IsFurther → openBranch? (before ++ bottom) =
      (openBranch? before).map fun (line, clauses, before) => (line, clauses, before ++ bottom) :=
    fun hfurther => openBranch?_append (h.resolve_right (not_not_intro hfurther)) bottom
  unfold read
  dsimp only
  split
  · rw [map_bind]
    rfl
  · next hkind =>
    rw [hopen (.inl hkind)]
    cases openBranch? before with
    | none => rfl
    | some found =>
      rw [map_bind]
      rfl
  · next hkind =>
    rw [hopen (.inr hkind)]
    cases openBranch? before with
    | none => rfl
    | some found =>
      rw [map_bind]
      rfl
  all_goals
    simp only [map_bind]
    rfl

/-- A source line **starts afresh** when it is not indented and is no further clause. -/
structure SourceLine.StartsAfresh (line : SourceLine) : Prop where
  depth : line.depth = 0
  first : ∀ scanned, line.scanned = .ok scanned →
    ¬ (scanned.tokens.headD scanned.stop).IsFurther

/-- Such a line is indented too far nowhere. -/
private theorem SourceLine.StartsAfresh.not_lt_depth {line : SourceLine} (h : line.StartsAfresh)
    (depth : Nat) : ¬ depth < line.depth := by
  rw [h.depth]
  exact Nat.not_lt_zero depth

namespace Progress

variable {p p' : Progress} {bottom : List Statement}

/-! ### Taking lines -/

/-- A line is read alike on top of further statements, if it cannot continue these. -/
private theorem read_onto {cx : LineContext} {statements : List Statement} {levels : List Level}
    {tokens : List Token}
    (h : IsOccupied statements levels ∨ ¬ (cx.current tokens).IsFurther) :
    LineContent.read cx (Level.onto bottom statements levels).1 tokens =
      (LineContent.read cx statements tokens).map fun (content, before) =>
        (content, (Level.onto bottom before levels).1) := by
  cases levels with
  | nil =>
    refine LineContent.read_append (h.imp_left fun h => ?_) bottom
    exact h.resolve_right (not_not_intro rfl)
  | cons level outer =>
    change LineContent.read cx statements tokens = (LineContent.read cx statements tokens).map id
    cases LineContent.read cx statements tokens <;> rfl

/-- What a line holds is added alike on top of further statements. -/
private theorem add_onto (row : Nat) (statements : List Statement) (levels : List Level)
    (content : LineContent) (before : List Statement) :
    add row (Level.onto bottom statements levels).2 (content, (Level.onto bottom before levels).1) =
      (add row levels (content, before)).map (onto bottom) := by
  rw [onto_levels statements before]
  cases content with
  | statement statement =>
    change Except.ok _ = Except.ok _
    rw [onto, onto_cons]
  | heading heading colon =>
    rw [add, add, length_onto]
    split <;> rfl

/-- **Taking a line** leaves what is below the outermost block where it is. -/
private theorem take_onto {line : SourceLine}
    (h : IsOccupied p.statements p.levels ∨ line.StartsAfresh) :
    (p.onto bottom).take line = (p.take line).map (onto bottom) := by
  have hlength : (p.onto bottom).levels.length = p.levels.length := length_onto p.levels
  rw [take, take, hlength]
  split
  · rfl
  · refine Eq.trans (congrArg (· >>= _) close_onto) ?_
    refine map_bind_congr ?_
    rintro ⟨statements, levels⟩ hclose
    refine bind_congr_map fun scanned hscanned => ?_
    have hoccupied : IsOccupied statements levels ∨
        ¬ (LineContext.current ⟨scanned.stop, nestingLimit - line.depth⟩
          scanned.tokens).IsFurther :=
      h.imp (isOccupied_of_close · hclose) fun hline => hline.first scanned hscanned
    rw [read_onto hoccupied]
    refine map_bind_congr ?_
    rintro ⟨content, before⟩ -
    exact add_onto line.row statements levels content before

/-- **Reading on** leaves it there, and it comes first in the program. -/
private theorem readOn_onto (h : IsOccupied p.statements p.levels) (lines : List SourceLine) :
    (p.onto bottom).readOn lines =
      (p.readOn lines).map fun program => ⟨bottom.reverse ++ program.statements⟩ := by
  induction lines generalizing p with
  | nil =>
    change (p.onto bottom).finish = p.finish.map _
    refine Eq.trans (congrArg (· >>= _) close_onto) ?_
    refine map_bind_congr ?_
    rintro ⟨statements, levels⟩ hclose
    obtain rfl := levels_eq_nil_of_close hclose
    exact congrArg (fun statements => Except.ok (Program.mk statements)) List.reverse_append
  | cons line lines ih =>
    rw [readOn_cons, readOn_cons, take_onto (.inl h)]
    exact map_bind_congr fun p' htake => ih (isOccupied_of_take htake)

/-! ### One program behind the other -/

/-- Behind a program, a line that starts afresh is taken on top of the statements of the program. -/
private theorem take_of_startsAfresh {line : SourceLine} (hline : line.StartsAfresh)
    {statements : List Statement} {levels : List Level}
    (hclose : close none 0 p.levels p.statements = .ok (statements, levels)) :
    p.take line = (start.onto statements).take line := by
  obtain rfl := levels_eq_nil_of_close hclose
  rw [take, take, if_neg (hline.not_lt_depth _), if_neg (hline.not_lt_depth _), hline.depth,
    close_eq_ok_of_next (some line.row) hclose]
  rfl

/-- Source lines are read one after another. -/
private theorem readOn_append (p : Progress) (front back : List SourceLine) :
    p.readOn (front ++ back) = front.foldlM take p >>= fun p' => p'.readOn back := by
  rw [readOn, List.foldlM_append, bind_assoc]
  rfl

/-- Behind a program, lines that start afresh are read as they are read alone. -/
private theorem readOn_of_startsAfresh {line : SourceLine} (hline : line.StartsAfresh)
    {statements : List Statement} {levels : List Level}
    (hclose : close none 0 p.levels p.statements = .ok (statements, levels))
    (back : List SourceLine) :
    p.readOn (line :: back) = (start.readOn (line :: back)).map fun second =>
      ⟨statements.reverse ++ second.statements⟩ := by
  rw [readOn_cons, readOn_cons, take_of_startsAfresh hline hclose, take_onto (.inr hline)]
  exact map_bind_congr fun p' htake => readOn_onto (isOccupied_of_take htake) back

/-- **Two programs together** are read just when each of them is, if the second starts afresh. -/
theorem readOn_append_eq_ok_iff {front back : List SourceLine}
    (hback : ∀ line ∈ back.head?, line.StartsAfresh) {whole : Program} :
    start.readOn (front ++ back) = .ok whole ↔
      ∃ first second, start.readOn front = .ok first ∧ start.readOn back = .ok second ∧
        whole = ⟨first.statements ++ second.statements⟩ := by
  cases back with
  | nil =>
    rw [List.append_nil]
    constructor
    · exact fun h => ⟨whole, ⟨[]⟩, h, rfl, congrArg Program.mk (List.append_nil _).symm⟩
    · rintro ⟨first, second, hfirst, hsecond, rfl⟩
      cases hsecond
      rw [hfirst]
      exact congrArg (fun statements => Except.ok (Program.mk statements))
        (List.append_nil first.statements).symm
  | cons line back =>
  have hline : line.StartsAfresh := hback line rfl
  rw [readOn_append]
  constructor
  · intro h
    obtain ⟨p, hfront, h⟩ := bind_eq_ok_iff.mp h
    obtain ⟨statements, levels, hclose⟩ : ∃ statements levels,
        close none 0 p.levels p.statements = .ok (statements, levels) := by
      -- the line closes all blocks before anything of it is read
      rw [readOn_cons] at h
      obtain ⟨p', htake, -⟩ := bind_eq_ok_iff.mp h
      obtain ⟨statements, levels, _, _, _, hclose, -⟩ := exists_of_take htake
      rw [hline.depth] at hclose
      exact ⟨statements, levels, close_eq_ok_of_next none hclose⟩
    rw [readOn_of_startsAfresh hline hclose] at h
    obtain ⟨second, hsecond, rfl⟩ := map_eq_ok_iff.mp h
    refine ⟨⟨statements.reverse⟩, second, ?_, hsecond, rfl⟩
    rw [readOn, hfront, ok_bind, finish, hclose]
    rfl
  · rintro ⟨first, second, hfirst, hsecond, rfl⟩
    obtain ⟨p, hfront, hfinish⟩ := bind_eq_ok_iff.mp hfirst
    obtain ⟨⟨statements, levels⟩, hclose, hfirst⟩ := bind_eq_ok_iff.mp hfinish
    cases hfirst
    rw [hfront, ok_bind, readOn_of_startsAfresh hline hclose, hsecond]
    rfl

end Progress

/-! ### Programs -/

/-- Lines **begin afresh** when the first of them that is not blank is not indented and does not
begin with the keyword of a further clause, in any case. -/
def BeginsAfresh (lines : List String) : Prop :=
  ∀ line ∈ lines.find? (fun line => !Text.isBlankText line.toList),
    Text.indentLevel line.toList = 0 ∧ Text.firstWord line.toList ∉ ["elif".toList, "else".toList]

instance (lines : List String) : Decidable (BeginsAfresh lines) :=
  inferInstanceAs (Decidable (∀ line ∈ lines.find? _, _))

namespace SourceLine

private theorem startsAfresh_ofNumbered {line : String}
    (hline : Text.isBlankText line.toList = false)
    (hdepth : Text.indentLevel line.toList = 0)
    (hword : Text.firstWord line.toList ∉ ["elif".toList, "else".toList]) (row : Nat) :
    (ofNumbered (line, row)).StartsAfresh := by
  refine ⟨hdepth, fun scanned hscan hfurther => hword ?_⟩
  cases htokens : scanned.tokens with
  | nil =>
    rw [htokens, List.headD_nil, Token.IsFurther, TokenLine.kind_stop_of_scan hscan] at hfurther
    rcases hfurther with h | h <;> cases h
  | cons token rest =>
    rw [htokens, List.headD_cons] at hfurther
    have hsettled := (TokenLine.settled_of_mem_scan hscan (htokens ▸ List.mem_cons_self)).1
    have hlexeme : token.lexeme = "elif" ∨ token.lexeme = "else" :=
      hfurther.imp (fun hkind => hsettled.lexeme_eq (by rw [hkind]; rfl))
        fun hkind => hsettled.lexeme_eq (by rw [hkind]; rfl)
    rcases hlexeme with hlexeme | hlexeme
    · rw [TokenLine.firstWord_of_scan hline hscan htokens (by rw [hlexeme]; decide), hlexeme]
      decide
    · rw [TokenLine.firstWord_of_scan hline hscan htokens (by rw [hlexeme]; decide), hlexeme]
      decide

/-- Of lines that begin afresh, the first source line starts afresh, if there is one. -/
private theorem startsAfresh_of_ofLines {lines : List String} (h : BeginsAfresh lines)
    (first : Nat) :
    ∀ line ∈ (ofLines first lines).head?, line.StartsAfresh := by
  induction lines generalizing first with
  | nil => exact fun line hline => absurd hline (Option.not_mem_none line)
  | cons text lines ih =>
    cases htext : Text.isBlankText text.toList with
    | true =>
      rw [BeginsAfresh, List.find?_cons_of_neg (by simp [htext])] at h
      rw [ofLines_cons_of_isBlankText htext]
      exact ih h (first + 1)
    | false =>
      rw [BeginsAfresh, List.find?_cons_of_pos (by simp [htext])] at h
      obtain ⟨hdepth, hword⟩ := h text rfl
      rw [ofLines_cons htext]
      rintro _ ⟨⟩
      exact startsAfresh_ofNumbered htext hdepth hword first

end SourceLine

/-- The relabeling that moves rows down. -/
def Relabeling.down (rows : Nat) : Relabeling :=
  ofRows (· + rows) (· + rows) fun _ => rfl

open Relabeling (down)

private theorem SourceLine.ofLines_down (rows first : Nat) (lines : List String) :
    ofLines (first + rows) lines = (ofLines first lines).map (SourceLine.relabel (down rows)) := by
  induction lines generalizing first with
  | nil => rfl
  | cons line lines ih =>
    cases hline : Text.isBlankText line.toList with
    | true =>
      rw [ofLines_cons_of_isBlankText hline, ofLines_cons_of_isBlankText hline, Nat.add_right_comm,
        ih]
    | false =>
      rw [ofLines_cons hline, ofLines_cons hline, Nat.add_right_comm, ih, List.map_cons]
      exact congrArg (· :: _) (ofNumbered_relabel (r := down rows) rfl rfl line first)

namespace Program

variable {front back : List String}

/-- Lines that stand further down are read as a program that stands further down. -/
private theorem readOn_down (rows : Nat) (lines : List String) :
    Progress.start.readOn (SourceLine.ofLines rows lines) =
      (down rows).result (mapLine (Option.map (· + rows))) (ofLines lines) := by
  have hdown : relabel (down rows) = mapLine (Option.map (· + rows)) :=
    funext (relabel_of_name_eq_id rfl)
  rw [← hdown, ofLines_eq, ← Progress.readOn_relabel 0, ← SourceLine.ofLines_down, Nat.zero_add]
  rfl

/-- **Two programs together** are read just when each of them is, if the second begins afresh, and
then as the first with the second behind it, further down. -/
theorem ofLines_append_eq_ok_iff (h : BeginsAfresh back) {whole : Program} :
    ofLines (front ++ back) = .ok whole ↔
      ∃ first second, ofLines front = .ok first ∧ ofLines back = .ok second ∧
        whole =
          ⟨first.statements ++ (second.mapLine (Option.map (· + front.length))).statements⟩ := by
  rw [ofLines_eq, SourceLine.ofLines_append, Nat.zero_add,
    Progress.readOn_append_eq_ok_iff (SourceLine.startsAfresh_of_ofLines h _), ← ofLines_eq,
    readOn_down]
  constructor
  · rintro ⟨first, _, hfirst, hback, rfl⟩
    obtain ⟨second, hsecond, rfl⟩ := (down _).result_eq_ok_iff.mp hback
    exact ⟨first, second, hfirst, hsecond, rfl⟩
  · rintro ⟨first, second, hfirst, hsecond, rfl⟩
    exact ⟨first, _, hfirst, (down _).result_eq_ok_iff.mpr ⟨second, hsecond, rfl⟩, rfl⟩

end Program

end Offside

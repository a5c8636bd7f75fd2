import Offside.Proofs.Source.Lookahead
import Offside.Proofs.Source.Settling
import Offside.Proofs.Source.Written

/-!
# What is left to read

Reading statement by statement is compared with reading line by line from any place on. What reading
line by line comes to from there is a value: of the lines ahead, with the statements and the open
blocks so far (`readRest`), or of what is left of the line at hand (`Cursor.readLeft`). A part of
the reader agrees with it when the value comes apart into the result of the part and the value at
the cursor behind it (`Reading.andThen`), and fails as the part does. So values are taken apart one
part of the reader after another, along the binds and the rounds that it is made of.
-/

namespace Offside

/-! ### The lines that are left -/

/-- Reads the lines ahead and the end of the program, line by line. -/
def readRest (before : List Statement) (levels : List Level) (a : Ahead) : Except Failure Program :=
  Progress.readOn ⟨a.row, before, levels⟩ (SourceLine.ofLines a.row a.lines)

/-- Adds the first line ahead, whose content is given, and reads the others. -/
def readBelow (levels : List Level) (before : List Statement) (a : Ahead) (content : LineContent) :
    Except Failure Program :=
  Progress.add a.row levels (content, before) >>= fun p =>
    p.readOn (SourceLine.ofLines a.next.row a.next.lines)

/-- Closes the innermost block in front of the lines ahead, and reads these. -/
def closeAndRead (level : Level) (levels : List Level) (statements : List Statement) (a : Ahead) :
    Except Failure Program :=
  if statements.isEmpty then .error (.atToken (.missingBlock a.firstRow?) level.colon)
  else
    let body := Body.mk (some level.colon.row) statements.reverse
    readRest (level.heading.complete body :: level.before) levels a

section

variable {before : List Statement} {levels : List Level} {a : Ahead} {line : String}
  {rest : List String}

theorem readRest_skipBlank (before : List Statement) (levels : List Level) (a : Ahead) :
    readRest before levels a.skipBlank = readRest before levels a := by
  obtain ⟨row, lines⟩ := a
  have hlines : ∀ row lines, SourceLine.ofLines (Ahead.skipBlank ⟨row, lines⟩).row
      (Ahead.skipBlank ⟨row, lines⟩).lines = SourceLine.ofLines row lines := by
    intro row lines
    induction lines generalizing row with
    | nil => rfl
    | cons line lines ih =>
      cases hline : Text.isBlankText line.toList with
      | true =>
        rw [SourceLine.ofLines_cons_of_isBlankText hline, ← ih (row + 1)]
        simp only [Ahead.skipBlank, List.dropWhile_cons, List.takeWhile_cons, hline, if_true,
          List.length_cons, Nat.add_assoc, Nat.add_comm 1]
      | false => rw [Ahead.skipBlank_eq_self rfl hline]
  rw [readRest, readRest, hlines]
  exact (Progress.readOn_row ⟨0, before, levels⟩ _ _).trans
    (Progress.readOn_row ⟨0, before, levels⟩ _ _).symm

theorem readRest_cons (before : List Statement) (levels : List Level)
    (hlines : a.lines = line :: rest) (hline : Text.isBlankText line.toList = false) :
    readRest before levels a =
      Progress.take ⟨a.row, before, levels⟩ (.ofNumbered (line, a.row)) >>= fun p =>
        p.readOn (SourceLine.ofLines a.next.row a.next.lines) := by
  rw [readRest, hlines, SourceLine.ofLines_cons hline, Progress.readOn_cons, Ahead.next, hlines]
  rfl

/-- A line at the level of the innermost block is read and added to it. -/
theorem readRest_at (before : List Statement) (hlines : a.lines = line :: rest)
    (hline : Text.isBlankText line.toList = false)
    (hindent : Text.indentLevel line.toList = levels.length) :
    readRest before levels a =
      TokenLine.scan a.row line.toList >>= fun scanned =>
        LineContent.read ⟨scanned.stop, nestingLimit - levels.length⟩ before scanned.tokens >>=
          fun result => readBelow levels result.2 a result.1 := by
  rw [readRest_cons before levels hlines hline, Progress.take, SourceLine.ofNumbered]
  simp only [hindent, Nat.lt_irrefl, if_false, Progress.close_of_length_le (Nat.le_refl _), ok_bind,
    bind_assoc]
  rfl

/-- A block is closed in front of a line that is indented less, if there is a statement in it. -/
private theorem close_cons (next : Option Nat) {depth : Nat} (h : depth ≤ levels.length)
    (level : Level)
    (statements : List Statement) :
    Progress.close next depth (level :: levels) statements =
      if statements.isEmpty then .error (.atToken (.missingBlock next) level.colon)
      else Progress.close next depth levels
        (level.heading.complete (.mk (some level.colon.row) statements.reverse) :: level.before) :=
  if_neg (Nat.not_lt.mpr h)

/-- The innermost block is closed by a line that is indented less, and by the end. -/
theorem readRest_closes (before : List Statement) (level : Level)
    (h : ∀ line ∈ a.lines.head?, Text.isBlankText line.toList = false ∧
      Text.indentLevel line.toList ≤ levels.length) :
    readRest before (level :: levels) a = closeAndRead level levels before a := by
  cases hlines : a.lines with
  | nil =>
    have hend : ∀ before levels, readRest before levels a =
        Progress.finish ⟨a.row, before, levels⟩ := by
      intro before levels
      rw [readRest, hlines]
      rfl
    rw [hend, closeAndRead, hend, Ahead.firstRow?, hlines, Progress.finish,
      close_cons none (Nat.zero_le _)]
    split <;> rfl
  | cons line rest =>
    rw [hlines] at h
    obtain ⟨hline, hindent⟩ := h line rfl
    have htake : ∀ before levels', levels.length ≤ levels'.length →
        Progress.take ⟨a.row, before, levels'⟩ (.ofNumbered (line, a.row)) =
          Progress.close (some a.row) (Text.indentLevel line.toList) levels' before >>=
            fun closed => TokenLine.scan a.row line.toList >>= fun scanned =>
              LineContent.read ⟨scanned.stop, nestingLimit - Text.indentLevel line.toList⟩
                closed.1 scanned.tokens >>= Progress.add a.row closed.2 :=
      fun before levels' hle => if_neg (Nat.not_lt.mpr (Nat.le_trans hindent hle))
    rw [closeAndRead, readRest_cons _ _ hlines hline, readRest_cons _ _ hlines hline,
      Ahead.firstRow?, hlines, htake before _ (Nat.le_succ _), htake _ levels (Nat.le_refl _),
      close_cons _ hindent]
    split <;> rfl

theorem readBelow_heading (heading : Heading) (colon : Token) :
    readBelow levels before a (.heading heading colon) =
      if levels.length < nestingLimit then readRest [] (⟨heading, colon, before⟩ :: levels) a.next
      else .error (.unplaced .nestedTooDeeplyToRead) := by
  rw [readBelow, Progress.add]
  split <;> rfl

end

/-! ### What follows a result -/

/-- Reads all the rest of the line at hand. -/
def Cursor.readLeft {α : Type} (room : Nat) (read : LineContext → List Token → Except Failure α)
    (c : Cursor) : Except Failure α :=
  match c.scanned with
  | none => .error (.broken .noTokens)
  | some line => read ⟨line.stop, room⟩ line.tokens

/-- What follows behind the colon of a body, by whether there is something on the line. -/
theorem Body.readInline_bind {β : Type} (cx : LineContext) (tokens : List Token)
    (goOn : Token × Option (Body × List Token) → Except Failure β) :
    Body.readInline cx tokens >>= goOn = cx.expect .colon tokens >>= fun colon =>
      if (cx.current colon.2).kind = .endOfLine then
        cx.finish colon.2 >>= fun _ => goOn (colon.1, none)
      else Statement.readSimple cx colon.2 >>= fun statement =>
        goOn (colon.1, some (.mk (some colon.1.row) [statement.1], statement.2)) := by
  rw [Body.readInline, bind_assoc]
  refine congrArg _ (funext fun result => ?_)
  obtain ⟨colon, tokens⟩ := result
  dsimp only
  split
  · rw [bind_assoc]
    rfl
  · rw [bind_assoc]
    rfl

namespace Reading

variable {σ α β γ : Type} {c : Cursor}

/-- What a result goes on to, unless it is a failure. -/
def andThen (result : EStateM.Result Failure Cursor α) (next : α → Cursor → Except Failure β) :
    Except Failure β :=
  match result with
  | .ok a c => next a c
  | .error failure _ => .error failure

theorem andThen_bind (first : Reading α) (second : α → Reading β)
    (next : β → Cursor → Except Failure γ) (c : Cursor) :
    andThen ((first >>= second) c) next =
      andThen (first c) fun a c' => andThen (second a c') next := by
  cases h : first c with
  | ok a c' => rw [bind_of_eq_ok second h, andThen]
  | error failure c' => rw [bind_of_eq_error second h, andThen, andThen]

/-- What follows a result only matters where that is as it ends. -/
theorem Ends.andThen_congr {result : EStateM.Result Failure Cursor α} {good : α → Cursor → Prop}
    (h : Ends good result) {next next' : α → Cursor → Except Failure β}
    (hnext : ∀ a c, c.IsTrue → good a c → next a c = next' a c) :
    andThen result next = andThen result next' := by
  cases result with
  | ok a c => exact hnext a c h.1 h.2
  | error failure c => rfl

/-- Rounds come to what each of them keeps up. -/
theorem andThen_loop {round : σ → Reading (σ ⊕ α)} (kept : σ → Cursor → Prop)
    {good : α → Cursor → Prop} (value : σ → Cursor → Except Failure β)
    {next : α → Cursor → Except Failure β}
    (hround : ∀ s c, c.IsTrue → kept s c →
      Ends (fun result c' => result.elim (fun s' => kept s' c' ∧ c'.IsPast c) fun a => good a c')
        (round s c))
    (hvalue : ∀ s c, c.IsTrue → kept s c →
      value s c = andThen (round s c) fun result c' => result.elim (value · c') (next · c'))
    (s : σ) (hc : c.IsTrue) (h : kept s c) : value s c = andThen (loop round s c) next := by
  fun_induction loop round s c with
  | case1 s c failure c' heq =>
    rw [hvalue s c hc h, heq]
    rfl
  | case2 s c a c' heq =>
    rw [hvalue s c hc h, heq]
    rfl
  | case3 s c s' c' heq hpast ih =>
    have hends := (hround s c hc h).of_eq_ok heq
    rw [hvalue s c hc h, heq]
    exact ih hends.1 hends.2.1
  | case4 s c s' c' heq hpast =>
    have hends := (hround s c hc h).of_eq_ok heq
    exact absurd hends.2.2 hpast

variable {room : Nat}

/-- The line at hand is read one thing after another. -/
theorem readLeft_bind (read : LineContext → List Token → Except Failure (α × List Token))
    (next : α → LineContext → List Token → Except Failure β) (c : Cursor) :
    c.readLeft room (fun cx tokens => read cx tokens >>= fun result => next result.1 cx result.2) =
      andThen (onLine room read c) fun a c' => c'.readLeft room (next a) := by
  cases hline : c.scanned with
  | none =>
    rw [Cursor.readLeft, onLine, hline]
    rfl
  | some line =>
    rw [Cursor.readLeft, hline]
    cases hread : read ⟨line.stop, room⟩ line.tokens with
    | error failure =>
      rw [onLine_of_eq_error hline hread]
      exact congrArg (· >>= _) hread
    | ok result =>
      rw [onLine_of_eq_ok hline hread]
      exact congrArg (· >>= _) hread

/-- The end of the line at hand is read. -/
theorem readLeft_finish (hon : c.IsOn) (next : Ahead → Except Failure β) :
    c.readLeft room (fun cx tokens => cx.finish tokens >>= fun _ => next c.ahead.next) =
      andThen (endLine room c) fun _ c' => next c'.ahead := by
  obtain ⟨line, hline, -⟩ := hon
  rw [Cursor.readLeft, hline, endLine, andThen_bind]
  cases hfinish : LineContext.finish ⟨line.stop, room⟩ line.tokens with
  | error failure =>
    rw [onLine_of_eq_error hline (congrArg (Except.map _) hfinish)]
    exact congrArg (· >>= _) hfinish
  | ok _ =>
    rw [onLine_of_eq_ok hline (congrArg (Except.map _) hfinish)]
    exact congrArg (· >>= _) hfinish

/-- The token at hand is taken. -/
theorem readLeft_tail {line : TokenLine} (hline : c.scanned = some line)
    {kind : Kind} (hkind : line.current.kind = kind)
    (next : LineContext → List Token → Except Failure β) :
    c.readLeft room (fun cx tokens => next cx tokens.tail) =
      andThen (expect room kind c) fun _ c' => c'.readLeft room next := by
  have hexpect : LineContext.expect ⟨line.stop, room⟩ kind line.tokens =
      .ok (line.current, line.tokens.tail) :=
    LineContext.expect_eq_ok_iff.mpr ⟨hkind, rfl, rfl⟩
  rw [expect, onLine_of_eq_ok hline hexpect, Cursor.readLeft, hline]
  rfl

end Reading

end Offside

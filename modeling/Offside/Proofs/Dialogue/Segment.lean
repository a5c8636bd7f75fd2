import Offside.Dialogue

/-!
# The segments of a dialogue

The lines that a dialogue takes come apart into **segments**: a command, a blank line outside of
snippets, a snippet of one line, or a snippet that opens with a line ending in a colon and goes on
up to the next blank line. If there is no such line, that snippet stays pending. How lines come
apart does not depend on what has been done with those before them, so `Segment.ofLines` is told
from the lines alone. No line is lost or taken twice (`Segment.flatMap_lines_ofLines`), and all
segments but a pending one are complete: they are split off, whatever comes behind them
(`Segment.IsComplete`).
-/

namespace Offside

namespace Text

/-- A line without the white space at its ends. -/
def stripped (line : String) : String :=
  String.ofList (trim line.toList)

/-- Whether nothing is written on a line. -/
def isBlankLine (line : String) : Bool :=
  (stripped line).isEmpty

/-- Whether a line opens a snippet of more lines. -/
def opensBlock (line : String) : Bool :=
  (stripped line).toList.getLast? = some ':'

end Text

/-- A segment of the lines of a dialogue. -/
inductive Segment
  /-- A command to quit. -/
  | quit (line : String)
  /-- A command to list the variables. -/
  | list (line : String)
  /-- A blank line outside of snippets. -/
  | blank (line : String)
  /-- A snippet of one line. -/
  | single (line : String)
  /-- A snippet that was opened, and the blank line that completes it. -/
  | block (lines : List String) (closing : String)
  /-- A snippet that was opened and is never completed. -/
  | pending (lines : List String)
  deriving DecidableEq, Repr

namespace Segment

open Text (stripped isBlankLine opensBlock)

/-- The lines of a segment. -/
def lines : Segment → List String
  | quit line | list line | blank line | single line => [line]
  | block lines closing => lines ++ [closing]
  | pending lines => lines

/-- The lines that a segment submits. -/
def snippet? : Segment → Option (List String)
  | single line => some [line]
  | block lines _ => some lines
  | _ => none

/-- The segments of lines. Inside of a snippet of more lines there are no commands. -/
def ofLines : List String → List Segment
  | [] => []
  | line :: rest =>
    if stripped line ∈ Role.quitCommands then quit line :: ofLines rest
    else if stripped line = ":vars" then list line :: ofLines rest
    else if isBlankLine line then blank line :: ofLines rest
    else if opensBlock line then
      match _hrest : rest.dropWhile fun next => !isBlankLine next with
      | [] => [pending (line :: rest)]
      | closing :: more =>
        block (line :: rest.takeWhile fun next => !isBlankLine next) closing :: ofLines more
    else single line :: ofLines rest
termination_by lines => lines.length
decreasing_by
  any_goals simp only [List.length_cons, Nat.lt_succ_self]
  have hlen := (List.dropWhile_suffix (l := rest) fun next => !isBlankLine next).length_le
  simp only [_hrest, List.length_cons] at hlen
  exact Nat.lt_succ_of_lt hlen

/-! ### Complete segments -/

/-- A segment is **complete** when it is split off, whatever comes behind it. -/
def IsComplete (segment : Segment) : Prop :=
  ∀ more, ofLines (segment.lines ++ more) = segment :: ofLines more

theorem IsComplete.lines_ne_nil {segment : Segment} (h : segment.IsComplete) :
    segment.lines ≠ [] := by
  intro hlines
  have hmore := h []
  rw [hlines, List.append_nil, ofLines] at hmore
  cases hmore

section

variable {line closing : String} {body : List String}

theorem isComplete_quit (h : stripped line ∈ Role.quitCommands) : (quit line).IsComplete := by
  intro more
  rw [lines, List.singleton_append, ofLines, if_pos h]

theorem isComplete_list (hquit : stripped line ∉ Role.quitCommands)
    (h : stripped line = ":vars") : (list line).IsComplete := by
  intro more
  rw [lines, List.singleton_append, ofLines, if_neg hquit, if_pos h]

theorem isComplete_blank (hquit : stripped line ∉ Role.quitCommands)
    (hlist : stripped line ≠ ":vars") (h : isBlankLine line = true) :
    (blank line).IsComplete := by
  intro more
  rw [lines, List.singleton_append, ofLines, if_neg hquit, if_neg hlist, if_pos h]

theorem isComplete_single (hquit : stripped line ∉ Role.quitCommands)
    (hlist : stripped line ≠ ":vars") (hblank : ¬ isBlankLine line = true)
    (hopens : ¬ opensBlock line = true) : (single line).IsComplete := by
  intro more
  rw [lines, List.singleton_append, ofLines, if_neg hquit, if_neg hlist, if_neg hblank,
    if_neg hopens]

/-- No command ends in a colon. -/
private theorem getLast?_ne_of_mem_commands {text : String}
    (h : text ∈ ":vars" :: Role.quitCommands) :
    text.toList.getLast? ≠ some ':' := by
  revert text
  decide

/-- A line that opens a snippet is no command, and it is not blank. -/
theorem not_command_of_opensBlock (h : opensBlock line = true) :
    stripped line ∉ Role.quitCommands ∧ stripped line ≠ ":vars" ∧ ¬ isBlankLine line = true := by
  have hlast : (stripped line).toList.getLast? = some ':' := of_decide_eq_true h
  refine ⟨fun hquit => ?_, fun hlist => ?_, fun hempty => ?_⟩
  · exact getLast?_ne_of_mem_commands (List.mem_cons_of_mem _ hquit) hlast
  · exact getLast?_ne_of_mem_commands (hlist ▸ List.mem_cons_self) hlast
  · rw [String.isEmpty_iff.mp hempty] at hlast
    cases hlast

private theorem ofLines_of_opensBlock (h : opensBlock line = true) (rest : List String) :
    ofLines (line :: rest) =
      match rest.dropWhile fun next => !isBlankLine next with
      | [] => [pending (line :: rest)]
      | closing :: more =>
        block (line :: rest.takeWhile fun next => !isBlankLine next) closing :: ofLines more := by
  obtain ⟨hquit, hlist, hblank⟩ := not_command_of_opensBlock h
  rw [ofLines, if_neg hquit, if_neg hlist, if_neg hblank, if_pos h]
  split
  · next hrest => rw [hrest]
  · next closing more hrest => rw [hrest]

/-- A snippet of more lines is complete with the first blank line. -/
theorem isComplete_block (hopens : opensBlock line = true)
    (hbody : ∀ next ∈ body, isBlankLine next = false) (hclosing : isBlankLine closing = true) :
    (block (line :: body) closing).IsComplete := by
  intro more
  have hkept : ∀ next ∈ body, (!isBlankLine next) = true := by simpa using hbody
  have hclosed : ¬ (!isBlankLine closing) = true := by simpa using hclosing
  have hlines : (block (line :: body) closing).lines ++ more = line :: (body ++ closing :: more) :=
    List.append_assoc (line :: body) [closing] more
  have hdrop : (body ++ closing :: more).dropWhile (fun next => !isBlankLine next) =
      closing :: more :=
    (List.dropWhile_append_of_pos hkept).trans (List.dropWhile_cons_of_neg hclosed)
  have htake : (body ++ closing :: more).takeWhile (fun next => !isBlankLine next) = body := by
    rw [List.takeWhile_append_of_pos hkept, List.takeWhile_cons, if_neg hclosed, List.append_nil]
  rw [hlines, ofLines_of_opensBlock hopens, hdrop, htake]

/-- Without a blank line it stays pending. -/
theorem ofLines_eq_pending (hopens : opensBlock line = true)
    (hbody : ∀ next ∈ body, isBlankLine next = false) :
    ofLines (line :: body) = [pending (line :: body)] := by
  have hkept : ∀ next ∈ body, (!isBlankLine next) = true := by simpa using hbody
  have hdrop : (body ++ []).dropWhile (fun next => !isBlankLine next) = [] :=
    List.dropWhile_append_of_pos hkept
  rw [List.append_nil] at hdrop
  rw [ofLines_of_opensBlock hopens, hdrop]

end

/-- **No line is lost or taken twice**: the segments of lines, one after another, are these
lines. -/
theorem flatMap_lines_ofLines (all : List String) : (ofLines all).flatMap lines = all := by
  fun_induction ofLines all with
  | case1 => rfl
  | case2 line rest _ ih | case3 line rest _ _ ih | case4 line rest _ _ _ ih
  | case7 line rest _ _ _ _ ih =>
    rw [List.flatMap_cons, ih]
    rfl
  | case5 line rest => exact List.append_nil _
  | case6 line rest _ _ _ _ closing more hrest ih =>
    rw [List.flatMap_cons, ih, lines, List.append_assoc, List.cons_append, List.singleton_append,
      ← hrest, List.takeWhile_append_dropWhile]

/-- A command inside of a snippet is a line of it. -/
example : ofLines ["x", "if x < 1:", ":q", " ", "quit"] =
    [single "x", block ["if x < 1:", ":q"] " ", quit "quit"] := by
  decide +kernel

end Segment

/-! ### The roles of lines -/

namespace Role

open Text (stripped isBlankLine opensBlock)

variable {line : String}

/-- The role of a line outside of snippets. -/
theorem ofLine_nil (line : String) :
    ofLine [] line =
      if stripped line ∈ quitCommands then .quit
      else if stripped line = ":vars" then .list
      else if isBlankLine line then .skip
      else if opensBlock line then .keep
      else .submit [line] := by
  simp only [ofLine, List.isEmpty_nil, if_true, opensBlock, decide_eq_true_iff]
  rfl

theorem ofLine_of_opensBlock (h : opensBlock line = true) : ofLine [] line = .keep := by
  obtain ⟨hquit, hlist, hblank⟩ := Segment.not_command_of_opensBlock h
  rw [ofLine_nil, if_neg hquit, if_neg hlist, if_neg hblank, if_pos h]

/-- The role of a line inside of a snippet. -/
theorem ofLine_of_ne_nil {pending : List String} (h : pending ≠ []) (line : String) :
    ofLine pending line = if isBlankLine line then .submit pending.reverse else .keep := by
  cases pending with
  | nil => exact absurd rfl h
  | cons => rfl

end Role

end Offside

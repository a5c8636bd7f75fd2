import Offside.Proofs.Token.Joined
import Offside.Text.Lines

/-!
# Lines that are typed

Typed input comes apart into **typed lines** at its line feeds, each line with the line feed that
ends it; only the last line may go without one. Taking a line off the input takes the first of them
and leaves the others (`takeLine_eq`), so what is left after any number of lines are those behind
them (`typedLines_flatten_drop`).
-/

namespace Offside.Text

/-- The lines of typed input, each with its line feed. -/
def typedLines : List Char → List (List Char)
  | [] => []
  | '\n' :: cs => ['\n'] :: typedLines cs
  | c :: cs =>
    match typedLines cs with
    | [] => [[c]]
    | line :: rest => (c :: line) :: rest

theorem flatten_typedLines (cs : List Char) : (typedLines cs).flatten = cs := by
  fun_induction typedLines cs with
  | case1 => rfl
  | case2 cs ih => simp [ih]
  | case3 c cs hc hnone ih =>
    rw [hnone] at ih
    exact congrArg (List.cons c) ih
  | case4 c cs hc line rest hlines ih =>
    rw [hlines] at ih
    exact congrArg (List.cons c) ih

/-- Taking a line takes the first of the typed lines. -/
theorem takeLine_eq (cs : List Char) :
    takeLine cs = ((typedLines cs).headD [], (typedLines cs).tail.flatten) := by
  fun_induction typedLines cs with
  | case1 => rfl
  | case2 cs ih => simp [takeLine, flatten_typedLines]
  | case3 c cs hc hnone ih =>
    rw [takeLine.eq_3 _ _ hc, ih, hnone]
    rfl
  | case4 c cs hc line rest hlines ih =>
    rw [takeLine.eq_3 _ _ hc, ih, hlines]
    rfl

/-- Behind its first line, the typed lines of an input are those that it had before. -/
private theorem typedLines_flatten_tail (cs : List Char) :
    typedLines (typedLines cs).tail.flatten = (typedLines cs).tail := by
  fun_induction typedLines cs with
  | case1 => rfl
  | case2 cs ih => rw [List.tail_cons, flatten_typedLines]
  | case3 c cs hc hnone ih => rfl
  | case4 c cs hc line rest hlines ih =>
    rw [hlines] at ih
    exact ih

/-- What is left of the input after some lines has the typed lines behind these. -/
theorem typedLines_flatten_drop (cs : List Char) (k : Nat) :
    typedLines ((typedLines cs).drop k).flatten = (typedLines cs).drop k := by
  induction k with
  | zero => rw [List.drop_zero, flatten_typedLines]
  | succ k ih =>
    have htail := typedLines_flatten_tail ((typedLines cs).drop k).flatten
    rwa [ih, List.tail_drop] at htail

theorem ne_nil_of_mem_typedLines {cs line : List Char} (h : line ∈ typedLines cs) : line ≠ [] := by
  fun_induction typedLines cs with
  | case1 => cases h
  | case2 cs ih =>
    rcases List.mem_cons.mp h with rfl | h
    · exact List.cons_ne_nil _ _
    · exact ih h
  | case3 c cs hc hnone ih =>
    obtain rfl := List.mem_singleton.mp h
    exact List.cons_ne_nil _ _
  | case4 c cs hc first rest hlines ih =>
    rw [hlines] at ih
    rcases List.mem_cons.mp h with rfl | h
    · exact List.cons_ne_nil _ _
    · exact ih (List.mem_cons_of_mem _ h)

/-- A typed line ends with its one line feed, if it is not the last line. -/
theorem typedLines_eq_cons {cs line : List Char} {rest : List (List Char)}
    (h : typedLines cs = line :: rest) :
    (∃ text, '\n' ∉ text ∧ line = text ++ ['\n']) ∨ '\n' ∉ line ∧ rest = [] := by
  fun_induction typedLines cs generalizing line with
  | case1 => cases h
  | case2 cs ih =>
    cases h
    exact .inl ⟨[], List.not_mem_nil, rfl⟩
  | case3 c cs hc hnone ih =>
    cases h
    exact .inr ⟨fun hmem => hc (List.mem_singleton.mp hmem).symm, rfl⟩
  | case4 c cs hc first behind hlines ih =>
    cases h
    have hne : '\n' ≠ c := fun heq => hc heq.symm
    rcases ih hlines with ⟨text, htext, rfl⟩ | ⟨hfirst, hrest⟩
    · exact .inl ⟨c :: text, List.not_mem_cons_of_ne_of_not_mem hne htext, rfl⟩
    · exact .inr ⟨List.not_mem_cons_of_ne_of_not_mem hne hfirst, hrest⟩

/-- A line that is typed in front of others is the first of the lines. -/
theorem typedLines_append {text : List Char} (htext : '\n' ∉ text) (rest : List Char) :
    typedLines (text ++ '\n' :: rest) = (text ++ ['\n']) :: typedLines rest := by
  induction text with
  | nil => rfl
  | cons c text ih =>
    obtain ⟨hc, htext⟩ := not_or.mp fun h => htext (List.mem_cons.mpr h)
    rw [List.cons_append, typedLines.eq_3 _ _ fun h => hc h.symm, ih htext]
    rfl

/-- A line ends at the first line feed, or with the input. -/
theorem takeLine_of_endsLine {line rest : List Char} (hline : '\n' ∉ line)
    (hrest : ∀ c ∈ rest.head?, c = '\n') :
    takeLine (line ++ rest) = (line ++ rest.take 1, rest.drop 1) := by
  induction line with
  | nil =>
    cases rest with
    | nil => rfl
    | cons c rest =>
      obtain rfl := hrest c rfl
      rfl
  | cons c line ih =>
    obtain ⟨hc, hline⟩ := not_or.mp fun h => hline (List.mem_cons.mpr h)
    rw [List.cons_append, takeLine.eq_3 _ _ fun h => hc h.symm, ih hline]
    rfl

private theorem trimEnd_append_of_isBlankText (cs : List Char) {after : List Char}
    (h : isBlankText after = true) : trimEnd (cs ++ after) = trimEnd cs := by
  induction cs with
  | nil => exact trimEnd_eq_nil_iff.mpr h
  | cons c cs ih => rw [List.cons_append, trimEnd, ih, trimEnd]

/-- White space around a text is taken away. -/
theorem trim_padded {before text after : List Char} (hbefore : isBlankText before = true)
    (htext : ∀ c ∈ text, isBlank c = false) (hafter : isBlankText after = true) :
    trim (before ++ text ++ after) = text := by
  have hstart : trimStart (before ++ (text ++ after)) = trimStart (text ++ after) :=
    List.dropWhile_append_of_pos (List.all_eq_true.mp hbefore)
  rw [trim, List.append_assoc, hstart]
  cases text with
  | nil =>
    rw [List.nil_append, trimEnd_eq_nil_iff, isBlankText_trimStart, hafter]
  | cons c cs =>
    rw [List.cons_append, trimStart, List.dropWhile_cons_of_neg (by simp [htext c]),
      ← List.cons_append, trimEnd_append_of_isBlankText _ hafter]
    exact trimEnd_eq_self fun d hd => htext d (List.mem_of_getLast? hd)

end Offside.Text

import Offside.Proofs.Outline.Legible

/-!
# Reading outlines back

A legible outline can be read back from its text, up to numbers being text then
(`Outline.spelled_eq_of_render_eq`).

The text falls apart into lines, and each line into its indentation and the rest, which makes it a
**row** of the outline. A row ends in a colon if it is a label and has none if it is a heading. What
belongs to a part is then told by the indentation alone: the rows below a node are further in, so a
part is over where a row comes that is not.
-/

namespace Offside

namespace Outline

/-! ### Rows -/

mutual

/-- The **rows** of an outline: how far its lines are in, and what they say there. -/
def rows (level : Nat) : Outline → List (Nat × String)
  | node head fields parts => (level, heading head fields) :: partRows level parts

/-- The rows of the parts below a node that is so many levels in. -/
def partRows (level : Nat) : List (Option String × Outline) → List (Nat × String)
  | [] => []
  | (some label, part) :: rest =>
    (level + 1, label ++ ":") :: rows (level + 2) part ++ partRows level rest
  | (none, part) :: rest => rows (level + 1) part ++ partRows level rest

end

/-- The line of a row. -/
def rowLine (row : Nat × String) : String :=
  indentation row.1 ++ row.2

mutual

/-- The lines of an outline are its rows, printed. -/
private theorem lines_eq : ∀ (level : Nat) (outline : Outline),
    outline.lines level = (outline.rows level).map rowLine
  | level, node head fields parts => by
    rw [lines, rows, List.map_cons, partLines_eq level parts]
    rfl

private theorem partLines_eq : ∀ (level : Nat) (parts : List (Option String × Outline)),
    partLines level parts = (partRows level parts).map rowLine
  | level, [] => rfl
  | level, (some label, part) :: rest => by
    rw [partLines, partRows, List.map_append, List.map_cons, lines_eq (level + 2) part,
      partLines_eq level rest, rowLine, String.append_assoc]
  | level, (none, part) :: rest => by
    rw [partLines, partRows, List.map_append, lines_eq (level + 1) part, partLines_eq level rest]

end

/-- A text that can stand behind an indentation: it begins with something else than a space, and has
no line break in it. -/
def IsCaption (text : String) : Prop :=
  (∃ c cs, text.toList = c :: cs ∧ c ≠ ' ') ∧ '\n' ∉ text.toList

private theorem isCaption_label {label : String} (h : isWord label = true) :
    IsCaption (label ++ ":") := by
  obtain ⟨hne, hchars⟩ := isWord_iff.mp h
  obtain ⟨c, cs, hcs⟩ := List.exists_cons_of_ne_nil hne
  rw [IsCaption, String.toList_append]
  constructor
  · rw [hcs]
    exact ⟨c, _, rfl, (hchars c (hcs ▸ List.mem_cons_self)).1⟩
  · intro hc
    rcases List.mem_append.mp hc with hc | hc
    · exact (hchars _ hc).2.1 rfl
    · exact absurd hc (by decide)

mutual

/-- Every row of a legible outline is a caption. -/
private theorem isCaption_of_mem_rows :
    ∀ (level : Nat) (outline : Outline), outline.isLegible = true →
    ∀ row ∈ outline.rows level, IsCaption row.2
  | level, node head fields parts, h => by
    obtain ⟨hhead, hfields, hparts⟩ := isLegible_node.mp h
    obtain ⟨hfirst, hchars⟩ := toList_heading hhead hfields
    exact List.forall_mem_cons.mpr
      ⟨⟨hfirst, fun hc => (hchars _ hc).1 rfl⟩, isCaption_of_mem_partRows level parts hparts⟩

private theorem isCaption_of_mem_partRows :
    ∀ (level : Nat) (parts : List (Option String × Outline)),
    areLegible parts = true → ∀ row ∈ partRows level parts, IsCaption row.2
  | level, [], _ => List.forall_mem_nil _
  | level, (some label, part) :: rest, h => by
    obtain ⟨hlabel, hpart, hrest⟩ := areLegible_cons.mp h
    exact List.forall_mem_append.mpr ⟨List.forall_mem_cons.mpr ⟨isCaption_label (hlabel label rfl),
      isCaption_of_mem_rows (level + 2) part hpart⟩, isCaption_of_mem_partRows level rest hrest⟩
  | level, (none, part) :: rest, h => by
    obtain ⟨-, hpart, hrest⟩ := areLegible_cons.mp h
    exact List.forall_mem_append.mpr ⟨isCaption_of_mem_rows (level + 1) part hpart,
      isCaption_of_mem_partRows level rest hrest⟩

end

/-- A line falls apart into its indentation and what it says. -/
private theorem rowLine_inj {row row' : Nat × String} (hrow : IsCaption row.2)
    (hrow' : IsCaption row'.2)
    (h : rowLine row = rowLine row') : row = row' := by
  have hspaces : ∀ {row : Nat × String}, IsCaption row.2 →
      (rowLine row).toList.takeWhile (· == ' ') = List.replicate (2 * row.1) ' ' := by
    intro row hrow
    obtain ⟨⟨c, cs, hcs, hc⟩, -⟩ := hrow
    rw [rowLine, indentation, String.toList_append, String.toList_ofList, hcs,
      List.takeWhile_append_of_pos fun a ha => beq_iff_eq.mpr (List.eq_of_mem_replicate ha),
      List.takeWhile_cons_of_neg (by simpa using hc), List.append_nil]
  have hlevel : row.1 = row'.1 := by
    have hlengths := congrArg List.length (hspaces hrow)
    rw [h, hspaces hrow', List.length_replicate, List.length_replicate] at hlengths
    omega
  refine Prod.ext hlevel ?_
  have hlists := congrArg String.toList h
  rw [rowLine, rowLine, hlevel, String.toList_append, String.toList_append] at hlists
  exact String.toList_injective (List.append_cancel_left hlists)

/-! ### Reading back -/

/-- The rows **come out** at a level: the first of them, if there are any, is not further in. -/
def ComeOut (level : Nat) (rows : List (Nat × String)) : Prop :=
  ∀ row ∈ rows.head?, row.1 ≤ level

private theorem ComeOut.mono {level level' : Nat} {rows : List (Nat × String)}
    (h : ComeOut level rows)
    (hle : level ≤ level') : ComeOut level' rows :=
  fun row hrow => Nat.le_trans (h row hrow) hle

/-- The rows of a part begin one level further in than the node. -/
private theorem exists_partRows_cons (level : Nat) (part : Option String × Outline)
    (more : List (Option String × Outline)) :
    ∃ text rows, partRows level (part :: more) = (level + 1, text) :: rows := by
  match part with
  | (some label, part) => exact ⟨_, _, rfl⟩
  | (none, node head fields parts) => exact ⟨_, _, rfl⟩

/-- So the rows of parts come out there, -/
private theorem comeOut_partRows {level : Nat} {rest : List (Nat × String)} (h : ComeOut level rest)
    (parts : List (Option String × Outline)) :
    ComeOut (level + 1) (partRows level parts ++ rest) := by
  cases parts with
  | nil => exact h.mono (Nat.le_succ level)
  | cons part more =>
    obtain ⟨text, rows, heq⟩ := exists_partRows_cons level part more
    rw [heq]
    rintro row ⟨⟩
    exact Nat.le_refl _

/-- and not at the level of the node. -/
private theorem not_comeOut_of_eq {level : Nat} {rest rest' : List (Nat × String)}
    {part : Option String × Outline} {more : List (Option String × Outline)}
    (heq : rest = partRows level (part :: more) ++ rest') : ¬ ComeOut level rest := by
  obtain ⟨text, rows, hrows⟩ := exists_partRows_cons level part more
  rw [heq, hrows]
  intro h
  exact Nat.not_succ_le_self level (h _ rfl)

/-- A label is no heading. -/
private theorem heading_ne_label {head : String} {fields : List (String × FieldValue)}
    (hhead : isWord head = true)
    (hfields : ∀ field ∈ fields, isKey field.1 = true ∧ isLegibleValue field.2 = true)
    (label : String) : heading head fields ≠ label ++ ":" := by
  intro h
  have hcolon : ':' ∈ (heading head fields).toList := by
    rw [h, String.toList_append]
    exact List.mem_append_right _ (by decide)
  exact ((toList_heading hhead hfields).2 _ hcolon).2 rfl

/-- Rows that begin with a label are not those of an outline. -/
private theorem rows_ne_label {level : Nat} {outline : Outline} (h : outline.isLegible = true)
    {label : String} {rows rest : List (Nat × String)} :
    outline.rows level ++ rest ≠ (level, label ++ ":") :: rows := by
  cases outline with
  | node head fields parts =>
    obtain ⟨hhead, hfields, -⟩ := isLegible_node.mp h
    intro heq
    exact heading_ne_label hhead hfields label (Prod.mk.inj (List.cons.inj heq).1).2

mutual

/-- A legible outline is told from its rows, wherever they come out. -/
private theorem spelled_eq_of_rows_eq : ∀ (level : Nat) (outline outline' : Outline)
    {rest rest' : List (Nat × String)}, outline.isLegible = true → outline'.isLegible = true →
    ComeOut level rest → ComeOut level rest' →
    outline.rows level ++ rest = outline'.rows level ++ rest' →
    outline.spelled = outline'.spelled ∧ rest = rest'
  | level, node head fields parts, node head' fields' parts', rest, rest', h, h', hrest, hrest',
      hrows => by
    obtain ⟨hhead, hfields, hparts⟩ := isLegible_node.mp h
    obtain ⟨hhead', hfields', hparts'⟩ := isLegible_node.mp h'
    obtain ⟨hfirst, hmore⟩ := List.cons.inj hrows
    obtain ⟨heads, hfields⟩ :=
      heading_inj hhead hfields hhead' hfields' (Prod.mk.inj hfirst).2
    obtain ⟨hparts, hrest⟩ :=
      spelledParts_eq_of_partRows_eq level parts parts' hparts hparts' hrest hrest' hmore
    rw [spelled, spelled, heads, hfields, hparts]
    exact ⟨rfl, hrest⟩

/-- Legible parts are told from their rows, wherever they come out. -/
private theorem spelledParts_eq_of_partRows_eq : ∀ (level : Nat)
    (parts parts' : List (Option String × Outline)) {rest rest' : List (Nat × String)},
    areLegible parts = true → areLegible parts' = true → ComeOut level rest → ComeOut level rest' →
    partRows level parts ++ rest = partRows level parts' ++ rest' →
    spelledParts parts = spelledParts parts' ∧ rest = rest'
  | level, [], [], rest, rest', _, _, _, _, hrows => ⟨rfl, hrows⟩
  | level, [], part :: more, rest, rest', _, _, hrest, _, hrows =>
    absurd hrest (not_comeOut_of_eq hrows)
  | level, part :: more, [], rest, rest', _, _, _, hrest', hrows =>
    absurd hrest' (not_comeOut_of_eq hrows.symm)
  | level, (label, part) :: more, (label', part') :: more', rest, rest', h, h', hrest, hrest',
      hrows => by
    obtain ⟨-, hpart, hmore⟩ := areLegible_cons.mp h
    obtain ⟨-, hpart', hmore'⟩ := areLegible_cons.mp h'
    have hfirst : label = label' ∧ part.spelled = part'.spelled ∧
        partRows level more ++ rest = partRows level more' ++ rest' := by
      cases label with
      | none =>
        cases label' with
        | none =>
          rw [partRows, partRows, List.append_assoc, List.append_assoc] at hrows
          exact ⟨rfl, spelled_eq_of_rows_eq (level + 1) part part' hpart hpart'
            (comeOut_partRows hrest more) (comeOut_partRows hrest' more') hrows⟩
        | some label' =>
          rw [partRows, partRows, List.append_assoc] at hrows
          exact absurd hrows (rows_ne_label hpart)
      | some label =>
        cases label' with
        | none =>
          rw [partRows, partRows, List.append_assoc (rows _ part')] at hrows
          exact absurd hrows.symm (rows_ne_label hpart')
        | some label' =>
          rw [partRows, partRows, List.append_assoc, List.append_assoc] at hrows
          obtain ⟨hlabels, hrows⟩ := List.cons.inj hrows
          have hlists := congrArg String.toList (Prod.mk.inj hlabels).2
          rw [String.toList_append, String.toList_append] at hlists
          refine ⟨congrArg some (String.toList_injective (List.append_cancel_right hlists)), ?_⟩
          exact spelled_eq_of_rows_eq (level + 2) part part' hpart hpart'
            ((comeOut_partRows hrest more).mono (Nat.le_succ _))
            ((comeOut_partRows hrest' more').mono (Nat.le_succ _)) hrows
    obtain ⟨hlabel, hpart, hrows⟩ := hfirst
    obtain ⟨hmore, hrest⟩ :=
      spelledParts_eq_of_partRows_eq level more more' hmore hmore' hrest hrest' hrows
    rw [spelledParts, spelledParts, hlabel, hpart, hmore]
    exact ⟨rfl, hrest⟩

end

/-- **Reading back.** Legible outlines with the same text are the same, up to numbers that are texts
in one and not in the other. -/
theorem spelled_eq_of_render_eq {outline outline' : Outline} (h : outline.isLegible = true)
    (h' : outline'.isLegible = true) (hrender : outline.render = outline'.render) :
    outline.spelled = outline'.spelled := by
  have hne : ∀ outline : Outline, (outline.rows 0).map rowLine ≠ [] := by
    rintro ⟨head, fields, parts⟩
    exact List.cons_ne_nil _ _
  have hbreak : ∀ {outline : Outline}, outline.isLegible = true →
      ∀ line ∈ (outline.rows 0).map rowLine, '\n' ∉ line.toList := by
    intro outline h
    refine List.forall_mem_map.mpr fun row hrow hc => ?_
    rw [rowLine, indentation, String.toList_append, String.toList_ofList] at hc
    rcases List.mem_append.mp hc with hc | hc
    · exact absurd (List.eq_of_mem_replicate hc) (by decide)
    · exact (isCaption_of_mem_rows 0 outline h row hrow).2 hc
  rw [render, render, lines_eq, lines_eq] at hrender
  have hlines := Text.eq_of_intercalate_eq rfl (hne outline) (hne outline') (hbreak h) (hbreak h')
    hrender
  have hrows : (outline.rows 0).map id = (outline'.rows 0).map id :=
    map_eq_of_map_eq (fun row hrow row' hrow' => rowLine_inj
      (isCaption_of_mem_rows 0 outline h row hrow)
      (isCaption_of_mem_rows 0 outline' h' row' hrow')) hlines
  rw [List.map_id, List.map_id] at hrows
  have hspelled : outline.spelled = outline'.spelled ∧ ([] : List (Nat × String)) = [] :=
    spelled_eq_of_rows_eq 0 outline outline' h h' nofun nofun (by rw [hrows])
  exact hspelled.1

end Outline

end Offside

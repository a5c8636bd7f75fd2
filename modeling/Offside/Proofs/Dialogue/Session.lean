import Offside.Proofs.Dialogue.Leading
import Offside.Proofs.Dialogue.Segment

/-!
# A dialogue goes by its segments

A dialogue takes one line after another and keeps the lines of a snippet until it is complete.
What it does as a whole is told by the segments of its lines: each of them is heard, line by line,
from the input that those before it have left, and then done, once (`Dialogue.Follows`). Only a
command to quit, the end of the input, a number of too many digits or a run that is not finished
ends it (`Dialogue.Follows.arises`), and a snippet that is pending at the end of the input is
dropped.
-/

namespace Offside

open Numeral (IsWritable)
open Text (stripped isBlankLine opensBlock)

variable {bounds : Bounds} {line : String} {lines : List String}

/-! ### Segments -/

/-- What may become of a complete **segment** that has been heard. -/
inductive Segment.Acts (bounds : Bounds) (d : Dialogue) : Segment → Turn → Prop
  /-- A command to quit ends the dialogue. -/
  | quit {line : String} : Acts bounds d (.quit line) (.over .quit d)
  /-- A command to list the variables lists them all. -/
  | listed {line : String} :
    (∀ pair ∈ d.store.entries, IsWritable pair.2) →
      Acts bounds d (.list line) (.next (d.enter (Dialogue.listings d.store.entries)))
  /-- A value that is listed has too many digits. -/
  | unlisted {line : String} {front back : List (String × Int)} {long : String × Int} :
    d.store.entries = front ++ long :: back →
      (∀ pair ∈ front, IsWritable pair.2) → ¬ IsWritable long.2 →
        Acts bounds d (.list line)
          (.over (.broken .valueTooLong) (d.enter (Dialogue.listings front)))
  /-- A blank line is skipped. -/
  | blank {line : String} : Acts bounds d (.blank line) (.next d)
  /-- A snippet is taken. -/
  | taken {segment : Segment} {lines : List String} {turn : Turn} :
    segment.snippet? = some lines → d.Takes bounds lines turn → Acts bounds d segment turn

namespace Segment.Acts

variable {d : Dialogue} {segment : Segment} {turn : Turn}

private theorem of_list (bounds : Bounds) (d : Dialogue) (line : String) :
    Acts bounds d (.list line) (Dialogue.list d.store.entries d) := by
  rcases Dialogue.list_eq d.store.entries d with
    ⟨hall, heq⟩ | ⟨front, long, back, hentries, hfront, hlong, heq⟩
  · exact heq ▸ .listed hall
  · exact heq ▸ .unlisted hentries hfront hlong

private theorem pending_eq (h : Acts bounds d segment turn) :
    turn.dialogue.pending = d.pending := by
  cases h with
  | taken _ h => exact h.pending_eq
  | quit | listed | unlisted | blank => rfl

private theorem input_suffix (h : Acts bounds d segment turn) :
    turn.dialogue.input <:+ d.input := by
  cases h with
  | taken _ h => exact h.input_suffix
  | quit | listed | unlisted | blank => exact List.suffix_rfl

end Segment.Acts

namespace Dialogue

variable {d d' heard : Dialogue} {further : Bool}

/-! ### Lines -/

/-- The dialogue whose input has ended when it has asked for a further line of a snippet. Nothing
becomes of the snippet. -/
def abandon (lines : List String) (d : Dialogue) : Dialogue :=
  { (d.say (.prompt true)).say (.message "") with pending := lines.reverse }

/-- Lines are **heard** one after another; `further` tells whether the first of them goes on with
a segment. -/
inductive Hears : Bool → Dialogue → List String → Dialogue → Prop
  | nil {further : Bool} {d : Dialogue} : Hears further d [] d
  | cons {further : Bool} {d heard : Dialogue} {line : String} {lines : List String} :
    d.nextLine? = some line → Hears true (d.hear further) lines heard →
      Hears further d (line :: lines) heard

namespace Hears

private theorem pending_eq (h : Hears further d lines heard) : heard.pending = d.pending := by
  induction h with
  | nil => rfl
  | cons _ _ ih => exact ih

/-- Each line that is heard takes something of the input. -/
private theorem length_le (h : Hears further d lines heard) :
    heard.input.length + lines.length ≤ d.input.length := by
  induction h with
  | nil => exact Nat.le_refl _
  | @cons further d heard line lines hline _ ih =>
    have hlt := length_hear_lt hline further
    rw [List.length_cons]
    omega

end Hears

/-! ### Inside of a snippet -/

section Pending

variable {pending : List String} (hpending : pending ≠ [])

include hpending

/-- At the end of the input a snippet that is not complete is dropped. -/
private theorem lead_eq_abandon (h : d.input = []) :
    { d with pending }.lead bounds = (.endOfInput, d.abandon pending.reverse) := by
  have hfurther : (!pending.isEmpty) = true := by simpa using hpending
  rw [lead_eq, step_of_input_eq_nil (d := { d with pending }) h, hfurther, abandon,
    List.reverse_reverse]
  rfl

private theorem lead_of_nextLine? (h : d.nextLine? = some line) :
    { d with pending }.lead bounds =
      ({ d.hear true with pending }.obey bounds line).lead bounds := by
  have hfurther : (!pending.isEmpty) = true := by simpa using hpending
  rw [lead_eq, step_of_nextLine? (d := { d with pending }) h, hfurther]
  rfl

/-- A blank line completes a snippet. -/
private theorem lead_of_isBlankLine (h : d.nextLine? = some line)
    (hline : isBlankLine line = true) :
    { d with pending }.lead bounds =
      ({ d.hear true with pending := [] }.submit bounds pending.reverse).lead bounds := by
  rw [lead_of_nextLine? hpending h, obey, Role.ofLine_of_ne_nil hpending, if_pos hline]

/-- Any other line is kept. -/
private theorem lead_of_isBlankLine_eq_false (h : d.nextLine? = some line)
    (hline : isBlankLine line = false) :
    { d with pending }.lead bounds =
      { d.hear true with pending := line :: pending }.lead bounds := by
  rw [lead_of_nextLine? hpending h, obey, Role.ofLine_of_ne_nil hpending, hline,
    if_neg Bool.false_ne_true]
  rfl

/-- **A snippet** goes on up to the next blank line, which completes it, or it is dropped at the
end of the input. -/
private theorem lead_of_pending (bounds : Bounds) (d : Dialogue) :
    (∃ body heard, Hears true d body heard ∧ (∀ next ∈ body, isBlankLine next = false) ∧
      heard.input = [] ∧
      { d with pending }.lead bounds =
        (.endOfInput, heard.abandon (pending.reverse ++ body))) ∨
    ∃ body closing heard, Hears true d (body ++ [closing]) heard ∧
      (∀ next ∈ body, isBlankLine next = false) ∧ isBlankLine closing = true ∧
      { d with pending }.lead bounds =
        ({ heard with pending := [] }.submit bounds (pending.reverse ++ body)).lead bounds := by
  induction hlength : d.input.length using Nat.strongRecOn generalizing d pending with
  | ind length ih =>
    cases hline : d.nextLine? with
    | none =>
      have hinput : d.input = [] := nextLine?_eq_none_iff.mp hline
      refine .inl ⟨[], d, .nil, List.forall_mem_nil _, hinput, ?_⟩
      rw [lead_eq_abandon hpending hinput, List.append_nil]
    | some line =>
      cases hblank : isBlankLine line with
      | true =>
        refine .inr ⟨[], line, d.hear true, .cons hline .nil, List.forall_mem_nil _, hblank, ?_⟩
        rw [lead_of_isBlankLine hpending hline hblank, List.append_nil]
      | false =>
        have hlt : (d.hear true).input.length < length := hlength ▸ length_hear_lt hline true
        have hlines : ∀ body, pending.reverse ++ line :: body = (line :: pending).reverse ++ body :=
          fun body => by rw [List.reverse_cons, List.append_assoc, List.singleton_append]
        rcases ih _ hlt (List.cons_ne_nil line pending) (d.hear true) rfl with
          ⟨body, heard, hbody, hwritten, hinput, hlead⟩ |
            ⟨body, closing, heard, hbody, hwritten, hclosing, hlead⟩
        · have hall : ∀ next ∈ line :: body, isBlankLine next = false :=
            List.forall_mem_cons.mpr ⟨hblank, hwritten⟩
          refine .inl ⟨line :: body, heard, .cons hline hbody, hall, hinput, ?_⟩
          rw [lead_of_isBlankLine_eq_false hpending hline hblank, hlead, hlines]
        · have hall : ∀ next ∈ line :: body, isBlankLine next = false :=
            List.forall_mem_cons.mpr ⟨hblank, hwritten⟩
          refine .inr ⟨line :: body, closing, heard, .cons hline hbody, hall, hclosing, ?_⟩
          rw [lead_of_isBlankLine_eq_false hpending hline hblank, hlead, hlines]

end Pending

/-! ### Outside of snippets -/

section

variable (hd : d.pending = [])

include hd

private theorem eq_of_pending_eq_nil : { d with pending := [] } = d :=
  hd ▸ rfl

private theorem lead_of_pending_eq_nil (h : d.nextLine? = some line) :
    d.lead bounds = ((d.hear false).obey bounds line).lead bounds := by
  rw [lead_eq, step_of_nextLine? h, hd]
  rfl

/-- A line that opens a snippet is kept. -/
private theorem lead_of_opensBlock (bounds : Bounds) (h : d.nextLine? = some line)
    (hopens : opensBlock line = true) :
    d.lead bounds = { d.hear false with pending := [line] }.lead bounds := by
  have hheard : (d.hear false).pending = [] := hd
  rw [lead_of_pending_eq_nil hd h, obey, hheard, Role.ofLine_of_opensBlock hopens]
  rfl

/-- Any other line is a segment of its own. -/
private theorem exists_segment (bounds : Bounds) (hopens : ¬ opensBlock line = true) :
    ∃ segment : Segment, segment.lines = [line] ∧ segment.IsComplete ∧
      segment.Acts bounds d (d.obey bounds line) := by
  rw [obey, hd, Role.ofLine_nil]
  by_cases hquit : stripped line ∈ Role.quitCommands
  · rw [if_pos hquit]
    exact ⟨.quit line, rfl, Segment.isComplete_quit hquit, .quit⟩
  rw [if_neg hquit]
  by_cases hlist : stripped line = ":vars"
  · rw [if_pos hlist]
    exact ⟨.list line, rfl, Segment.isComplete_list hquit hlist, .of_list bounds d line⟩
  rw [if_neg hlist]
  by_cases hblank : isBlankLine line = true
  · rw [if_pos hblank]
    exact ⟨.blank line, rfl, Segment.isComplete_blank hquit hlist hblank, .blank⟩
  rw [if_neg hblank, if_neg hopens]
  refine ⟨.single line, rfl, Segment.isComplete_single hquit hlist hblank hopens, .taken rfl ?_⟩
  have htakes := takes_submit bounds { d with pending := [] } [line]
  rwa [eq_of_pending_eq_nil hd] at htakes ⊢

end

/-! ### Segment by segment -/

/-- A dialogue **follows** segments: each of them is heard and done once, one after another, up to
the end of the dialogue. -/
inductive Follows (bounds : Bounds) : List Segment → Dialogue → Ending × Dialogue → Prop
  /-- The input ends outside of snippets. -/
  | ended {d : Dialogue} :
    d.input = [] →
      Follows bounds [] d (.endOfInput, (d.say (.prompt false)).say (.message ""))
  /-- The input ends inside of a snippet, which is dropped. -/
  | dropped {d heard : Dialogue} {lines : List String} :
    Hears false d lines heard → heard.input = [] →
      Follows bounds [.pending lines] d (.endOfInput, heard.abandon lines)
  /-- A segment is done and the dialogue goes on. -/
  | next {d heard d' : Dialogue} {segment : Segment} {segments : List Segment}
      {result : Ending × Dialogue} :
    Hears false d segment.lines heard → segment.Acts bounds heard (.next d') →
      Follows bounds segments d' result → Follows bounds (segment :: segments) d result
  /-- A segment ends the dialogue. -/
  | ends {d heard d' : Dialogue} {segment : Segment} {ending : Ending} :
    Hears false d segment.lines heard → segment.Acts bounds heard (.over ending d') →
      Follows bounds [segment] d (ending, d')

/-- A complete segment is followed by what follows on it. -/
private theorem Follows.of_isComplete {segment : Segment} {turn : Turn}
    (hsegment : segment.IsComplete) (hheard : Hears false d segment.lines heard)
    (hacts : segment.Acts bounds heard turn)
    (hnext : ∀ d', turn = .next d' →
      ∃ lines, Follows bounds (Segment.ofLines lines) d' (d'.lead bounds)) :
    ∃ lines, Follows bounds (Segment.ofLines lines) d (turn.lead bounds) := by
  match turn with
  | .over ending d' =>
    refine ⟨segment.lines ++ [], ?_⟩
    rw [hsegment, Segment.ofLines]
    exact .ends hheard hacts
  | .next d' =>
    obtain ⟨lines, hlines⟩ := hnext d' rfl
    refine ⟨segment.lines ++ lines, ?_⟩
    rw [hsegment]
    exact .next hheard hacts hlines

/-- **A dialogue goes by its segments.** -/
private theorem exists_follows (bounds : Bounds) {d : Dialogue} (hd : d.pending = []) :
    ∃ lines, Follows bounds (Segment.ofLines lines) d (d.lead bounds) := by
  induction hlength : d.input.length using Nat.strongRecOn generalizing d with
  | ind length ih =>
    -- what comes behind a segment is a dialogue with less input
    have hfollow : ∀ {segment : Segment} {heard : Dialogue} {turn : Turn},
        segment.IsComplete → Hears false d segment.lines heard →
        segment.Acts bounds heard turn → d.lead bounds = turn.lead bounds →
        ∃ lines, Follows bounds (Segment.ofLines lines) d (d.lead bounds) := by
      intro segment heard turn hsegment hheard hacts hlead
      rw [hlead]
      refine Follows.of_isComplete hsegment hheard hacts ?_
      rintro d' rfl
      have hpos := List.length_pos_iff.mpr hsegment.lines_ne_nil
      have hlines := hheard.length_le
      have hinput := hacts.input_suffix.length_le
      refine ih d'.input.length ?_ (hacts.pending_eq.trans (hheard.pending_eq.trans hd)) rfl
      rw [Turn.dialogue] at hinput
      omega
    cases hline : d.nextLine? with
    | none =>
      have hinput : d.input = [] := nextLine?_eq_none_iff.mp hline
      refine ⟨[], ?_⟩
      rw [lead_eq, step_of_input_eq_nil hinput, hd, Segment.ofLines]
      exact .ended hinput
    | some line =>
      have hheard : (d.hear false).pending = [] := hd
      by_cases hopens : opensBlock line = true
      · have hlead := lead_of_opensBlock hd bounds hline hopens
        rcases lead_of_pending (List.cons_ne_nil line []) bounds (d.hear false) with
          ⟨body, heard, hbody, hwritten, hinput, hpending⟩ |
            ⟨body, closing, heard, hbody, hwritten, hclosing, hpending⟩
        · refine ⟨line :: body, ?_⟩
          rw [Segment.ofLines_eq_pending hopens hwritten, hlead, hpending]
          exact .dropped (.cons hline hbody) hinput
        · have hempty : heard.pending = [] := hbody.pending_eq.trans hheard
          rw [eq_of_pending_eq_nil hempty] at hpending
          exact hfollow (Segment.isComplete_block hopens hwritten hclosing) (.cons hline hbody)
            (.taken rfl (takes_submit bounds heard (line :: body))) (hlead.trans hpending)
      · obtain ⟨segment, hlines, hsegment, hacts⟩ := exists_segment hheard bounds hopens
        have hhears : Hears false d segment.lines (d.hear false) := hlines ▸ .cons hline .nil
        exact hfollow hsegment hhears hacts (lead_of_pending_eq_nil hd hline)

/-! ### What ends a dialogue -/

/-- What an ending **arises** from, where a dialogue has gone by segments: the last of them is a
command to quit, or the input is at its end, or a number has too many digits, or the last segment
is a program that does not come to its end in the rounds that its loops may take. -/
inductive Arises (bounds : Bounds) (segments : List Segment) (d : Dialogue) : Ending → Prop
  | quit {line : String} : segments.getLast? = some (.quit line) → Arises bounds segments d .quit
  | endOfInput : d.input = [] → Arises bounds segments d .endOfInput
  | broken {b : Breakdown} : b.IsOfDigits → Arises bounds segments d (.broken b)
  | unfinished {segment : Segment} {lines : List String} {program : Program} :
    segments.getLast? = some segment → segment.snippet? = some lines →
      Program.ofLines lines = .ok program →
        program.run bounds ⟨d.store, d.input, 0, []⟩ = .unfinished →
          Arises bounds segments d .unfinished

variable {segments : List Segment} {result : Ending × Dialogue} {ending : Ending}

theorem Arises.cons (h : Arises bounds segments d ending) (segment : Segment) :
    Arises bounds (segment :: segments) d ending := by
  have hcons : ∀ last, segments.getLast? = some last →
      (segment :: segments).getLast? = some last := fun last hlast => by
    rw [List.getLast?_cons, hlast]
    rfl
  cases h with
  | quit hlast => exact .quit (hcons _ hlast)
  | endOfInput hinput => exact .endOfInput hinput
  | broken hdigits => exact .broken hdigits
  | unfinished hlast hsnippet hprogram hrun =>
    exact .unfinished (hcons _ hlast) hsnippet hprogram hrun

/-- A snippet ends a dialogue by a number of too many digits, or by not coming to its end. -/
private theorem Takes.arises {segment : Segment} (hsnippet : segment.snippet? = some lines)
    (h : d.Takes bounds lines (.over ending d')) : Arises bounds [segment] d' ending := by
  cases h with
  | broke _ _ hdigits | illegible _ hdigits | illegibleLine _ _ _ hdigits => exact .broken hdigits
  | unwritable => exact .broken .value
  | endless hprogram hrun => exact .unfinished rfl hsnippet hprogram hrun

namespace Follows

/-- **What ends a dialogue.** -/
private theorem arises (h : Follows bounds segments d result) :
    Arises bounds segments result.2 result.1 := by
  induction h with
  | ended hinput => exact .endOfInput hinput
  | dropped _ hinput => exact .endOfInput hinput
  | ends _ hacts =>
    cases hacts with
    | quit => exact .quit rfl
    | unlisted => exact .broken .value
    | taken hsnippet htakes => exact htakes.arises hsnippet
  | next _ _ _ ih => exact ih.cons _

/-- A command to quit outside of snippets ends the dialogue. -/
private theorem quit_of_mem (h : Follows bounds segments d result) {line : String}
    (hmem : .quit line ∈ segments) : result.1 = .quit := by
  induction h with
  | ended => cases hmem
  | dropped => cases List.mem_singleton.mp hmem
  | ends _ hacts =>
    cases List.mem_singleton.mp hmem
    cases hacts with
    | quit => rfl
    | taken hsnippet => cases hsnippet
  | next _ hacts _ ih =>
    rcases List.mem_cons.mp hmem with hsegment | hmem
    · subst hsegment
      cases hacts with
      | taken hsnippet => cases hsnippet
    · exact ih hmem

end Follows

/-- **A dialogue goes by its segments.** The lines that it takes by itself come apart into
segments, with none lost or taken twice, and each segment is heard and done once, in order and on
the same store: what may become of a snippet is told by `Takes`. It ends as soon as there is a
command to quit outside of snippets, and else with its input, by a number of too many digits, or by
a run that is not finished. A snippet that is no program leaves the store alone, whatever becomes
of it. -/
theorem lead_by_segments (bounds : Bounds) (input : String) :
    (∃ lines,
      Follows bounds (Segment.ofLines lines) (start input) ((start input).lead bounds) ∧
      (Segment.ofLines lines).flatMap Segment.lines = lines ∧
      (∀ line, .quit line ∈ Segment.ofLines lines → ((start input).lead bounds).1 = .quit) ∧
      Arises bounds (Segment.ofLines lines) ((start input).lead bounds).2
        ((start input).lead bounds).1) ∧
    ∀ (d : Dialogue) (snippet : List String),
      d.Takes bounds snippet (d.submit bounds snippet) ∧
      ((∀ program, Program.ofLines snippet ≠ .ok program) →
        (d.submit bounds snippet).dialogue.store = d.store) := by
  obtain ⟨lines, hfollows⟩ := exists_follows bounds (d := start input) rfl
  refine ⟨⟨lines, hfollows, Segment.flatMap_lines_ofLines lines, ?_, hfollows.arises⟩, ?_⟩
  · intro line hmem
    exact hfollows.quit_of_mem hmem
  · intro d snippet
    have htakes := takes_submit bounds d snippet
    exact ⟨htakes, htakes.store_eq⟩

/-- A dialogue that reads a number for a snippet between its own lines, and a snippet that is
neither a program nor an expression. -/
theorem lead_by_segments_of_input :
    let d := start "if x < 1:\n\tinput x\n\n7\n:vars\n:q\n"
    (∃ lines, Follows ⟨none, 1⟩ (Segment.ofLines lines) d (d.lead ⟨none, 1⟩) ∧
      Arises ⟨none, 1⟩ (Segment.ofLines lines) (d.lead ⟨none, 1⟩).2 .quit) ∧
    (d.submit ⟨none, 1⟩ ["x +"]).dialogue.store = .empty := by
  intro d
  obtain ⟨⟨lines, hfollows, -, -, harises⟩, hsubmit⟩ :=
    lead_by_segments ⟨none, 1⟩ "if x < 1:\n\tinput x\n\n7\n:vars\n:q\n"
  have hquit : (d.lead ⟨none, 1⟩).1 = .quit := by decide +kernel
  have hfails : (Program.ofLines ["x +"]).isOk = false := by decide +kernel
  have hrejected : ∀ program, Program.ofLines ["x +"] ≠ .ok program := fun program hprogram => by
    rw [hprogram] at hfails
    cases hfails
  exact ⟨⟨lines, hfollows, hquit ▸ harises⟩, (hsubmit d ["x +"]).2 hrejected⟩

end Dialogue

end Offside

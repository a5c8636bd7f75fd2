import Mathlib.Data.List.Nodup
import Offside.Proofs.Relabeling.Program
import Offside.Proofs.Token.Placed
import Offside.Proofs.Token.Spelling

/-!
# Layout invariance

Of the lines of a program only those that are not blank matter, and of each of these only how deep
it is indented and of which words it consists. Programs whose written lines agree in that are
**laid out alike**. They are read alike (`Program.ofLines_layout_invariant`): one program is the
other with its lines renumbered, or both fail for the same reason on corresponding lines.

Both are relabeled to one and the same list of source lines, in which no columns are left.
-/

namespace Offside

/-! ### Lines that are written alike -/

/-- Results of scanning that are the same but for the places of tokens: the **same words**, or the
same reason that there are none. -/
inductive SameWords : Except Failure TokenLine → Except Failure TokenLine → Prop
  | words {scanned scanned' : TokenLine} :
    scanned.words = scanned'.words → SameWords (.ok scanned) (.ok scanned')
  | offence {d d' : Diagnostic} :
    d.cause = d'.cause → SameWords (.error (.diagnosed d)) (.error (.diagnosed d'))

/-- Lines, given with their rows, that are **written alike**: indented by the same depth, and made
of the same words or stopped by the same character. -/
structure WrittenAlike (line line' : String × Nat) : Prop where
  depth : Text.indentLevel line.1.toList = Text.indentLevel line'.1.toList
  scanned : SameWords (TokenLine.scan line.2 line.1.toList) (TokenLine.scan line'.2 line'.1.toList)

instance : (first second : Except Failure TokenLine) → Decidable (SameWords first second)
  | .ok scanned, .ok scanned' =>
    decidable_of_iff (scanned.words = scanned'.words) ⟨.words, fun | .words h => h⟩
  | .error (.diagnosed d), .error (.diagnosed d') =>
    decidable_of_iff (d.cause = d'.cause) ⟨.offence, fun | .offence h => h⟩
  | .ok _, .error _ | .error _, .ok _ => .isFalse nofun
  | .error (.broken _), .error _ | .error (.diagnosed _), .error (.broken _) => .isFalse nofun

instance (line line' : String × Nat) : Decidable (WrittenAlike line line') :=
  decidable_of_iff (_ ∧ _) ⟨fun h => ⟨h.1, h.2⟩, fun h => ⟨h.depth, h.scanned⟩⟩

/-- Programs whose lines are **laid out alike**: those that are not blank are written alike, one by
one. -/
def LaidOutAlike (lines lines' : List String) : Prop :=
  List.Forall₂ WrittenAlike (writtenLines 0 lines) (writtenLines 0 lines')

instance (lines lines' : List String) : Decidable (LaidOutAlike lines lines') :=
  inferInstanceAs (Decidable (List.Forall₂ WrittenAlike _ _))

/-- The rows of the lines that are not blank. -/
def writtenRows (lines : List String) : List Nat :=
  (writtenLines 0 lines).map Prod.snd

/-! ### Renumbering -/

/-- Where a line goes when rows are renumbered. -/
def renumber (f : Nat → Nat) (line : Int) : Int :=
  f line.toNat

/-- A cause with the row that it quotes renumbered, if it quotes one. -/
def Cause.renumber (f : Nat → Nat) : Cause → Cause
  | .missingBlock next => .missingBlock (next.map f)
  | cause => cause

/-- The results of reading two programs **correspond**, where `f` says which row of the second a row
of the first corresponds to: the second program is the first with its lines renumbered, or both fail
for the same reason on corresponding rows. -/
inductive Corresponds (f : Nat → Nat) : Except Failure Program → Except Failure Program → Prop
  | programs (program : Program) :
    Corresponds f (.ok program) (.ok (program.mapLine (Option.map (renumber f))))
  | diagnosed {d d' : Diagnostic} :
    d'.cause = d.cause.renumber f → d'.row = d.row.map (renumber f) →
      Corresponds f (.error (.diagnosed d)) (.error (.diagnosed d'))
  | broken (b : Breakdown) : Corresponds f (.error (.broken b)) (.error (.broken b))

private theorem Corresponds.eq_ok {f : Nat → Nat} {program : Program}
    {second : Except Failure Program}
    (h : Corresponds f (.ok program) second) :
    second = .ok (program.mapLine (Option.map (renumber f))) := by
  cases h
  rfl

namespace Relabeling

/-- The relabeling that renumbers rows and forgets columns. -/
def renumbered (f : Nat → Nat) : Relabeling :=
  (ofRow f).flatten

/-- The relabeling that forgets columns. -/
def flat : Relabeling :=
  (ofName id).flatten

end Relabeling

open Relabeling (renumbered flat)

/-- A cause quotes no names that a relabeling of rows could change. -/
private theorem Cause.relabel_renumbered (f : Nat → Nat) (cause : Cause) :
    cause.relabel (renumbered f) = cause.renumber f := by
  cases cause with
  | expected kind found | expectedOperand found | expectedRelation found | expectedStatement found
  | afterEnd found =>
    rw [relabel, Word.relabel_of_name_eq_id rfl]
    rfl
  | _ => rfl

private theorem Cause.relabel_flat (cause : Cause) : cause.relabel flat = cause := by
  cases cause with
  | expected kind found | expectedOperand found | expectedRelation found | expectedStatement found
  | afterEnd found => rw [relabel, Word.relabel_of_name_eq_id rfl]
  | missingBlock next => exact congrArg missingBlock (congrFun Option.map_id next)
  | _ => rfl

private theorem Program.relabel_flat (program : Program) : program.relabel flat = program := by
  rw [relabel_of_line_eq_id rfl]
  exact program.mapName_id

/-- Results that are relabeled to the same one correspond. -/
private theorem corresponds_of_result_eq {f : Nat → Nat} {first second : Except Failure Program}
    (h : (renumbered f).result (Program.relabel (renumbered f)) first =
      flat.result (Program.relabel flat) second) : Corresponds f first second := by
  cases first with
  | ok program =>
    cases second with
    | ok program' =>
      have hprogram : program.relabel (renumbered f) = program'.relabel flat := Except.ok.inj h
      rw [Program.relabel_of_name_eq_id rfl, Program.relabel_flat] at hprogram
      exact hprogram ▸ .programs program
    | error failure' => cases h
  | error failure =>
    cases second with
    | ok program' => cases h
    | error failure' =>
      obtain ⟨b, rfl, rfl⟩ | ⟨d, d', rfl, rfl, hd⟩ :=
        Failure.eq_or_of_relabel_eq (Except.error.inj h)
      · exact .broken b
      · obtain ⟨hcause, hrow, -⟩ := Diagnostic.mk.inj hd
        rw [Cause.relabel_renumbered, Cause.relabel_flat] at hcause
        have hrow' : d'.row.map flat.line = d'.row := congrFun Option.map_id d'.row
        exact .diagnosed hcause.symm (hrow'.symm.trans hrow.symm)

/-! ### Source lines without columns -/

/-- A token in the first column. -/
def Token.flat (row : Nat) (word : Word) : Token where
  toWord := word
  row := row
  column := 0

/-- The tokens of a line differ from each other in their words alone, when the columns are
forgotten. -/
private theorem TokenLine.relabel_eq_of_scan {r : Relabeling} (hname : r.name = id)
    (hcolumn : ∀ column, r.column column = 0) {row : Nat} {line : List Char} {scanned : TokenLine}
    (h : scan row line = .ok scanned) :
    scanned.relabel r =
      ⟨scanned.words.map (Token.flat (r.row row)), .flat (r.row row) ⟨";", .endOfLine⟩⟩ := by
  have hflat : ∀ token ∈ scanned.toList,
      token.relabel r = Token.flat (r.row row) token.toWord := by
    intro token hmem
    rw [Token.relabel, Word.relabel_of_name_eq_id hname, row_of_mem_scan h hmem, hcolumn]
    rfl
  have htokens : scanned.tokens.map (Token.relabel r) =
      scanned.words.map (Token.flat (r.row row)) := by
    rw [words, List.map_map]
    exact List.map_congr_left fun token hmem => hflat token (List.mem_append_left _ hmem)
  obtain ⟨tokens, -, rfl⟩ := scan_eq_ok_iff.mp h
  rw [relabel, htokens, hflat _ (List.mem_append_right tokens List.mem_cons_self)]
  rfl

private theorem SourceLine.relabel_eq_of_writtenAlike {f : Nat → Nat} {line line' : String × Nat}
    (h : WrittenAlike line line') (hrow : f line.2 = line'.2) :
    (ofNumbered line).relabel (renumbered f) = (ofNumbered line').relabel flat := by
  have hscanned : (renumbered f).result (TokenLine.relabel (renumbered f))
      (TokenLine.scan line.2 line.1.toList) =
        flat.result (TokenLine.relabel flat) (TokenLine.scan line'.2 line'.1.toList) := by
    have hsame := h.scanned
    generalize hfirst : TokenLine.scan line.2 line.1.toList = first at hsame
    generalize hsecond : TokenLine.scan line'.2 line'.1.toList = second at hsame
    cases hsame with
    | words hwords =>
      have hrow' : (renumbered f).row line.2 = flat.row line'.2 := hrow
      rw [Relabeling.result, Relabeling.result,
        TokenLine.relabel_eq_of_scan rfl (fun _ => rfl) hfirst,
        TokenLine.relabel_eq_of_scan rfl (fun _ => rfl) hsecond, hwords, hrow']
    | offence hcause =>
      obtain ⟨lexeme, place, hd, -⟩ := TokenLine.offence_of_scan hfirst
      obtain ⟨lexeme', place', hd', -⟩ := TokenLine.offence_of_scan hsecond
      cases hd
      cases hd'
      cases hcause
      rw [← hrow]
      rfl
  rw [relabel, relabel, ofNumbered, ofNumbered]
  dsimp only
  rw [h.depth, hscanned]
  exact congrArg (SourceLine.mk · _ _) hrow

private theorem SourceLine.map_relabel_eq {f : Nat → Nat} {first second : List (String × Nat)}
    (h : List.Forall₂ WrittenAlike first second)
    (hrows : (first.map Prod.snd).map f = second.map Prod.snd) :
    (first.map ofNumbered).map (SourceLine.relabel (renumbered f)) =
      (second.map ofNumbered).map (SourceLine.relabel flat) := by
  induction h with
  | nil => rfl
  | cons hline _ ih =>
    obtain ⟨hrow, hrows⟩ := List.cons.inj hrows
    exact List.cons_eq_cons.mpr ⟨relabel_eq_of_writtenAlike hline hrow, ih hrows⟩

/-! ### Margins, blank lines and spaces behind lines -/

/-- Of a line only the depth of its margin matters, and what is left when white space is taken off
its ends. -/
private theorem writtenAlike_of_trim_eq {line line' : String × Nat}
    (hdepth : Text.indentLevel line.1.toList = Text.indentLevel line'.1.toList)
    (htrim : Text.trim line.1.toList = Text.trim line'.1.toList) : WrittenAlike line line' := by
  refine ⟨hdepth, ?_⟩
  have hscan : TokenLine.scan line'.2 line'.1.toList =
      (Relabeling.ofRow fun _ => line'.2).result (TokenLine.relabel (.ofRow fun _ => line'.2))
        (TokenLine.scan line.2 line.1.toList) := by
    rw [← TokenLine.scan_relabel rfl rfl, TokenLine.scan, TokenLine.scan, htrim]
    rfl
  rw [hscan]
  cases hfirst : TokenLine.scan line.2 line.1.toList with
  | ok scanned =>
    refine .words ?_
    rw [TokenLine.words, TokenLine.words, TokenLine.relabel, List.map_map]
    exact List.map_congr_left fun token _ => (Word.relabel_of_name_eq_id rfl token.toWord).symm
  | error failure =>
    obtain ⟨lexeme, place, rfl, -⟩ := TokenLine.offence_of_scan hfirst
    exact .offence rfl

/-- Blank lines, the way that margins are written, and white space behind lines do not matter. -/
theorem laidOutAlike_of_trim_eq {lines lines' : List String}
    (h : List.Forall₂ (fun line line' : String =>
        Text.indentLevel line.toList = Text.indentLevel line'.toList ∧
          Text.trim line.toList = Text.trim line'.toList)
      (lines.filter fun line => !Text.isBlankText line.toList)
      (lines'.filter fun line => !Text.isBlankText line.toList)) : LaidOutAlike lines lines' := by
  have hwritten : ∀ lines : List String, (lines.filter fun line => !Text.isBlankText line.toList) =
      (writtenLines 0 lines).map Prod.fst := by
    intro lines
    conv_lhs => rw [← List.zipIdx_map_fst 0 lines, List.filter_map]
    rfl
  rw [hwritten, hwritten, List.forall₂_map_left_iff, List.forall₂_map_right_iff] at h
  exact h.imp fun _ _ hline => writtenAlike_of_trim_eq hline.1 hline.2

/-! ### Programs -/

theorem nodup_writtenRows (lines : List String) : (writtenRows lines).Nodup := by
  have hsublist : (writtenRows lines).Sublist ((lines.zipIdx 0).map Prod.snd) :=
    List.Sublist.map Prod.snd List.filter_sublist
  rw [List.zipIdx_map_snd] at hsublist
  exact hsublist.nodup List.nodup_range'

/-- Different things may be sent to any things, one by one. -/
private theorem exists_map_eq {xs ys : List Nat} (hxs : xs.Nodup)
    (hlength : xs.length = ys.length) :
    ∃ f : Nat → Nat, xs.map f = ys := by
  refine ⟨fun x => ys.getD (xs.idxOf x) 0, List.ext_getElem (by simpa using hlength) ?_⟩
  intro i hi hi'
  rw [List.getElem_map, hxs.idxOf_getElem, List.getD_eq_getElem?_getD,
    List.getElem?_eq_getElem hi', Option.getD_some]

/-- **Layout does not matter.** Programs that are laid out alike are read as one program with its
lines renumbered, or fail for the same reason on corresponding lines. -/
theorem Program.ofLines_layout_invariant {lines lines' : List String}
    (h : LaidOutAlike lines lines') :
    (∃ f, (writtenRows lines).map f = writtenRows lines') ∧
      ∀ f, (writtenRows lines).map f = writtenRows lines' →
        Corresponds f (ofLines lines) (ofLines lines') := by
  constructor
  · refine exists_map_eq (nodup_writtenRows lines) ?_
    rw [writtenRows, writtenRows, List.length_map, List.length_map]
    exact h.length_eq
  · intro f hf
    refine corresponds_of_result_eq ?_
    rw [ofLines_eq, ofLines_eq, ← Progress.readOn_relabel 0, ← Progress.readOn_relabel 0,
      SourceLine.ofLines, SourceLine.ofLines, SourceLine.map_relabel_eq h hf]
    rfl

/-- A loop, and the same loop with blank lines in between, spaces for tabs, some spaces left over,
and other spaces between its words and behind them. -/
theorem Program.layout_invariant_of_loop :
    LaidOutAlike ["while x < 3:", "\tlet x := x + 1", "display x"]
      ["", "while x<3 :\r", "\t", "     let  x:= x+1", " ", "  display x  \n"] ∧
    ∃ program, ofLines ["while x < 3:", "\tlet x := x + 1", "display x"] = .ok program ∧
      ofLines ["", "while x<3 :\r", "\t", "     let  x:= x+1", " ", "  display x  \n"] =
        .ok (program.mapLine (Option.map (renumber fun row => 2 * row + 1))) := by
  have halike : LaidOutAlike ["while x < 3:", "\tlet x := x + 1", "display x"]
      ["", "while x<3 :\r", "\t", "     let  x:= x+1", " ", "  display x  \n"] := by
    decide +kernel
  obtain ⟨program, hprogram⟩ := exists_eq_ok
    (show (ofLines ["while x < 3:", "\tlet x := x + 1", "display x"]).isOk by decide +kernel)
  have hboth := (ofLines_layout_invariant halike).2 (fun row => 2 * row + 1) (by decide +kernel)
  rw [hprogram] at hboth
  exact ⟨halike, program, hprogram, hboth.eq_ok⟩

end Offside

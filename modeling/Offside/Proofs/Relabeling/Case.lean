import Offside.Proofs.Relabeling.Program
import Offside.Proofs.Relabeling.Running
import Offside.Proofs.Token.FirstWord

/-!
# Case insensitivity

Scanning takes a line in small letters apart as it takes the line itself apart, and yields its
tokens with their names in small letters (`TokenLine.scan_toLower`). Writing names in small letters
is a relabeling that keeps variables, so it commutes with reading and running, and programs whose
lines differ in the case of ASCII letters alone cannot be told apart
(`Program.ofLines_case_insensitive`).
-/

namespace Offside

/-- The relabeling that writes names in small letters. -/
def Relabeling.small : Relabeling :=
  .ofName String.toLower

private theorem Relabeling.keepsVariables_small : small.KeepsVariables :=
  Text.lowercase_toLower

open Relabeling (small keepsVariables_small)

/-! ### Scanning -/

namespace Text

private theorem map_toLower_of_not_isAlpha {text : List Char} (h : ∀ c ∈ text, c.isAlpha = false) :
    text.map Char.toLower = text :=
  (List.map_congr_left fun c hc => toLower_of_not_isAlpha (h c hc)).trans (List.map_id text)

private theorem toLower_eq_iff {line line' : String} :
    line.toLower = line'.toLower ↔
      line.toList.map Char.toLower = line'.toList.map Char.toLower := by
  rw [← String.toList_inj, toList_toLower, toList_toLower]

private theorem toLower_ofList (text : List Char) :
    (String.ofList text).toLower = String.ofList (text.map Char.toLower) := by
  rw [← String.toList_inj, toList_toLower, String.toList_ofList, String.toList_ofList]

end Text

namespace Kind

/-- What may stand in a name may stand there in small letters. -/
private theorem isNameChar_toLower (c : Char) : isNameChar c.toLower = isNameChar c :=
  Text.apply_toLower (fun hc hd => by simp [isNameChar, Char.isAlphanum, hc, hd]) c

/-- A name is a name in small letters. -/
private theorem isName_toLower (cs : List Char) : isName (cs.map Char.toLower) = isName cs := by
  cases cs with
  | nil => rfl
  | cons c cs =>
    have hnameChar : isNameChar ∘ Char.toLower = isNameChar := funext isNameChar_toLower
    rw [List.map_cons, isName, isName, Text.isAlpha_toLower, List.all_map, hnameChar]

end Kind

namespace TokenLine

private theorem isPair_eq_false_of_isAlpha {c d : Char} (h : c.isAlpha = true ∨ d.isAlpha = true) :
    isPair c d = false := by
  unfold isPair
  split
  any_goals (rcases h with h | h <;> cases h)
  rfl

/-- A lexeme extends as far as it does in small letters. -/
private theorem extent_toLower (c : Char) (cs : List Char) :
    extent c.toLower (cs.map Char.toLower) = extent c cs := by
  have hnameChar : Kind.isNameChar ∘ Char.toLower = Kind.isNameChar :=
    funext Kind.isNameChar_toLower
  have hdigit : ∀ d : Char, d.toLower.isDigit = d.isDigit :=
    Text.apply_toLower fun hc hd =>
      (Kind.isDigit_of_isAlpha hc).trans (Kind.isDigit_of_isAlpha hd).symm
  have hdigits : Char.isDigit ∘ Char.toLower = Char.isDigit := funext hdigit
  unfold extent
  rw [hdigit, Text.isAlpha_toLower, List.takeWhile_map, List.takeWhile_map, hnameChar, hdigits,
    List.length_map, List.length_map]
  cases hc : c.isAlpha with
  | true => rfl
  | false =>
    cases cs with
    | nil => rfl
    | cons d rest =>
      rw [Text.toLower_of_not_isAlpha hc, List.map_cons]
      cases hd : d.isAlpha with
      | false => rw [Text.toLower_of_not_isAlpha hd]
      | true =>
        simp only [isPair_eq_false_of_isAlpha (.inr hd),
          isPair_eq_false_of_isAlpha (.inr ((Text.isAlpha_toLower d).trans hd))]

/-- The text of a lexeme is a name, or there is no letter in it. -/
private theorem isName_or_not_isAlpha (c : Char) (cs : List Char) :
    Kind.isName (c :: cs.take (extent c cs)) = true ∨
      ∀ d ∈ c :: cs.take (extent c cs), d.isAlpha = false := by
  cases hc : c.isAlpha with
  | true =>
    left
    rw [take_extent_of_isAlpha hc, Kind.isName, hc, Bool.true_and]
    exact List.all_takeWhile
  | false =>
    refine .inr (List.forall_mem_cons.mpr ⟨hc, fun d hd => ?_⟩)
    unfold extent at hd
    rw [hc, if_neg Bool.false_ne_true] at hd
    split at hd
    · -- behind a digit the lexeme goes on with digits
      rw [← List.prefix_iff_eq_take.mp (List.takeWhile_prefix Char.isDigit)] at hd
      refine Bool.eq_false_iff.mpr fun halpha => ?_
      have hdigit := List.all_eq_true.mp List.all_takeWhile d hd
      rw [Kind.isDigit_of_isAlpha halpha] at hdigit
      cases hdigit
    · -- otherwise it is an operator of one or two characters
      split at hd
      · split at hd
        · next hpair =>
          rw [List.take_succ_cons, List.take_zero, List.mem_singleton] at hd
          refine Bool.eq_false_iff.mpr fun halpha => ?_
          rw [hd] at halpha
          rw [isPair_eq_false_of_isAlpha (.inr halpha)] at hpair
          cases hpair
        · cases hd
      · cases hd

/-- A lexeme that is written in small letters makes a token that is written so. -/
private theorem ofLexeme_of_toLower_eq {lexeme : String} (h : lexeme.toLower = lexeme)
    (row column : Nat) :
    Token.ofLexeme row column lexeme =
      small.result (Token.relabel small) (Token.ofLexeme row column lexeme) := by
  rw [Token.ofLexeme]
  split
  · next kind _ =>
    have hword : (Word.mk lexeme kind).relabel small = ⟨lexeme, kind⟩ := by
      rw [Word.relabel]
      split
      · exact congrArg (Word.mk · kind) h
      · rfl
    rw [Relabeling.result, Token.relabel, hword]
    rfl
  · rfl

/-- The token of a text in small letters. -/
private theorem ofLexeme_toLower (row column : Nat) {text : List Char}
    (h : Kind.isName text = true ∨ ∀ c ∈ text, c.isAlpha = false) :
    Token.ofLexeme row column (lexemeOf (text.map Char.toLower)) =
      small.result (Token.relabel small) (Token.ofLexeme row column (lexemeOf text)) := by
  rcases h with hname | hplain
  · -- a keyword is spelled in one way, and a name in small letters is another name
    have hlower : Char.toLower ∘ Char.toLower = Char.toLower := funext Text.toLower_toLower
    have hname' : Kind.isName (text.map Char.toLower) = true :=
      (Kind.isName_toLower text).trans hname
    unfold lexemeOf
    rw [List.map_map, hlower]
    by_cases hkeyword : String.ofList (text.map Char.toLower) ∈ Kind.keywords
    · rw [if_pos hkeyword, if_pos hkeyword]
      refine ofLexeme_of_toLower_eq ?_ row column
      rw [Text.toLower_ofList, List.map_map, hlower]
    · have hidentifier : Kind.classify (.ofList text) = some .identifier :=
        Kind.IsIdentifier.classify ⟨by rwa [String.toList_ofList], by rwa [String.toList_ofList]⟩
      have hidentifier' : Kind.classify (.ofList (text.map Char.toLower)) = some .identifier :=
        Kind.IsIdentifier.classify ⟨by rwa [String.toList_ofList],
          by rwa [String.toList_ofList, List.map_map, hlower]⟩
      rw [if_neg hkeyword, if_neg hkeyword, Token.ofLexeme, Token.ofLexeme, hidentifier,
        hidentifier', ← Text.toLower_ofList]
      rfl
  · have hlexeme : lexemeOf text = String.ofList text := by
      rw [lexemeOf, Text.map_toLower_of_not_isAlpha hplain, ite_self]
    rw [Text.map_toLower_of_not_isAlpha hplain, hlexeme]
    refine ofLexeme_of_toLower_eq ?_ row column
    rw [Text.toLower_ofList, Text.map_toLower_of_not_isAlpha hplain]

/-- A text scans in small letters as it scans, with its names in small letters. -/
private theorem scanFrom_toLower (row column : Nat) (cs : List Char) :
    scanFrom row column (cs.map Char.toLower) =
      small.result (List.map (Token.relabel small)) (scanFrom row column cs) :=
  scanFrom_map Text.isBlank_toLower extent_toLower
    (fun column c cs => ofLexeme_toLower row column (isName_or_not_isAlpha c cs)) column cs

/-- **Scanning a line in small letters** yields the tokens of the line with their names in small
letters. -/
theorem scan_toLower (row : Nat) (line : List Char) :
    scan row (line.map Char.toLower) = small.result (relabel small) (scan row line) := by
  rw [scan, scan, Text.trim_toLower, scanFrom_toLower, List.length_map]
  cases scanFrom row 0 (Text.trim line) <;> rfl

end TokenLine

/-! ### What cannot be told apart -/

/-- Lines that are the same but for the **case** of ASCII letters. -/
def SameButCase (lines lines' : List String) : Prop :=
  List.Forall₂ (fun line line' => line.toLower = line'.toLower) lines lines'

/-- Failures that are **alike**: of one family and at one place, or the same breakdown. -/
inductive Failure.Alike : Failure → Failure → Prop
  | diagnosed {d d' : Diagnostic} :
    d.cause.family = d'.cause.family → d.row = d'.row → d.column = d'.column →
      Alike (.diagnosed d) (.diagnosed d')
  | broken (b : Breakdown) : Alike (.broken b) (.broken b)

/-- States that are **alike**: without prompts the same was written, and all else is the same. -/
structure State.Alike (s s' : State) : Prop where
  output : s.output false = s'.output false
  trace : s.trace = s'.trace
  steps : s.steps = s'.steps
  input : s.input = s'.input
  store : s.store = s'.store

/-- Outcomes that are **alike**, in their failures and in their states. -/
abbrev Outcome.Alike : Outcome → Outcome → Prop :=
  Agrees Failure.Alike State.Alike

private theorem Failure.alike_of_relabel_eq {failure failure' : Failure}
    (h : failure.relabel small = failure'.relabel small) : failure.Alike failure' := by
  obtain ⟨b, rfl, rfl⟩ | ⟨d, d', rfl, rfl, hd⟩ := eq_or_of_relabel_eq h
  · exact .broken b
  · have hplace : small.place = id := funext fun column => by cases column <;> rfl
    obtain ⟨-, hrow, hcolumn⟩ := Diagnostic.mk.inj hd
    change Option.map id d.row = Option.map id d'.row at hrow
    rw [Option.map_id] at hrow
    rw [hplace, Option.map_id] at hcolumn
    exact .diagnosed (Diagnostic.family_eq_of_relabel_eq hd) hrow hcolumn

private theorem State.alike_of_relabel_eq {s s' : State} (h : s.relabel small = s'.relabel small) :
    s.Alike s' := by
  obtain ⟨hstore, hinput, hsteps, -⟩ := State.mk.inj h
  refine ⟨?_, ?_, hsteps, hinput, hstore⟩
  · rw [← s.output_relabel (r := small) (.inl rfl), h, output_relabel (.inl rfl)]
  · rw [← s.trace_relabel (r := small) rfl, h, trace_relabel rfl]

/-! ### Programs -/

/-- The source lines of small letters are the relabeled ones. -/
private theorem SourceLine.ofLines_toLower (first : Nat) (lines : List String) :
    ofLines first (lines.map String.toLower) =
      (ofLines first lines).map (SourceLine.relabel small) := by
  induction lines generalizing first with
  | nil => rfl
  | cons line lines ih =>
    have hblank : Text.isBlankText line.toLower.toList = Text.isBlankText line.toList := by
      rw [Text.toList_toLower, Text.isBlankText_toLower]
    cases h : Text.isBlankText line.toList with
    | true =>
      rw [List.map_cons, ofLines_cons_of_isBlankText h,
        ofLines_cons_of_isBlankText (hblank.trans h), ih]
    | false =>
      have hnumbered :
          ofNumbered (line.toLower, first) = (ofNumbered (line, first)).relabel small := by
        rw [ofNumbered, Text.toList_toLower, Text.indentLevel_toLower, TokenLine.scan_toLower]
        rfl
      rw [List.map_cons, ofLines_cons h, ofLines_cons (hblank.trans h), List.map_cons, ih,
        hnumbered]

private theorem Program.relabel_small (program : Program) :
    program.relabel small = program.mapName String.toLower :=
  relabel_of_line_eq_id rfl program

/-- Reading lines in small letters yields their program with its names in small letters. -/
theorem Program.ofLines_toLower (lines : List String) :
    ofLines (lines.map String.toLower) = small.result (mapName String.toLower) (ofLines lines) := by
  rw [ofLines_eq, ofLines_eq, SourceLine.ofLines_toLower, ← funext relabel_small]
  exact Progress.readOn_relabel 0 .start (SourceLine.ofLines 0 lines)

/-- **Case does not matter**, from the text of a program to what a run leaves behind. -/
theorem Program.ofLines_case_insensitive {lines lines' : List String}
    (h : SameButCase lines lines') :
    (∃ program program', ofLines lines = .ok program ∧ ofLines lines' = .ok program' ∧
      program.mapName String.toLower = program'.mapName String.toLower ∧
        ∀ bounds s, (program.run bounds s).Alike (program'.run bounds s)) ∨
    ∃ failure failure', ofLines lines = .error failure ∧ ofLines lines' = .error failure' ∧
      failure.Alike failure' := by
  have hlines : lines.map String.toLower = lines'.map String.toLower :=
    List.forall₂_eq_eq_eq ▸ List.forall₂_map_left_iff.mpr (List.forall₂_map_right_iff.mpr h)
  have hboth : small.result (mapName String.toLower) (ofLines lines) =
      small.result (mapName String.toLower) (ofLines lines') := by
    rw [← ofLines_toLower, hlines, ofLines_toLower]
  cases hread : ofLines lines with
  | error failure =>
    cases hread' : ofLines lines' with
    | error failure' =>
      rw [hread, hread'] at hboth
      exact .inr ⟨failure, failure', rfl, rfl, Failure.alike_of_relabel_eq (Except.error.inj hboth)⟩
    | ok program' =>
      rw [hread, hread'] at hboth
      cases hboth
  | ok program =>
    cases hread' : ofLines lines' with
    | error failure' =>
      rw [hread, hread'] at hboth
      cases hboth
    | ok program' =>
      rw [hread, hread'] at hboth
      have hprogram : program.mapName String.toLower = program'.mapName String.toLower :=
        Except.ok.inj hboth
      refine .inl ⟨program, program', rfl, rfl, hprogram, fun bounds s => ?_⟩
      refine Outcome.agrees_of_relabel_eq Failure.alike_of_relabel_eq State.alike_of_relabel_eq ?_
      rw [← program.run_relabel keepsVariables_small, program.relabel_small, hprogram,
        ← program'.relabel_small, program'.run_relabel keepsVariables_small]

/-- Two spellings of a program that reads its variable and writes it. -/
theorem Program.case_insensitive_of_echo :
    SameButCase ["input x", "if x < 3: display x"] ["INPUT X", "If x < 3: Display X"] ∧
    ∃ program program', ofLines ["input x", "if x < 3: display x"] = .ok program ∧
      ofLines ["INPUT X", "If x < 3: Display X"] = .ok program' ∧
        program.mapName String.toLower = program'.mapName String.toLower ∧
          ∀ bounds s, (program.run bounds s).Alike (program'.run bounds s) := by
  have hcase : SameButCase ["input x", "if x < 3: display x"]
      ["INPUT X", "If x < 3: Display X"] :=
    .cons (Text.toLower_eq_iff.mpr (by decide +kernel))
      (.cons (Text.toLower_eq_iff.mpr (by decide +kernel)) .nil)
  refine ⟨hcase, (ofLines_case_insensitive hcase).resolve_right ?_⟩
  rintro ⟨failure, -, hfailure, -⟩
  obtain ⟨program, hprogram⟩ := exists_eq_ok
    (show (ofLines ["input x", "if x < 3: display x"]).isOk by decide +kernel)
  rw [hprogram] at hfailure
  cases hfailure

end Offside

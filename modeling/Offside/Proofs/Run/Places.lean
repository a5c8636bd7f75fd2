import Offside.Proofs.Run.Faults
import Offside.Proofs.Run.Limit
import Offside.Proofs.Source.Placement

/-!
# Where runs fail

A run fails by what one node of the program does, or by what one node does not do any more because
it would be one too many (`Program.mayFail_of_run`). What the failure says of its place is the line
that this node keeps. In a program that is read that is the row of the text where the node stands,
so a diagnostic leads to the division, to the request for input, or to the statement that was about
to begin (`Program.places_of_ofLines`).
-/

namespace Offside

/-! ### What runs fail by -/

/-- How a run of a program with the given limit **may fail**: by its nesting, by the limit where a
node begins, or by what a node does. -/
inductive Program.MayFail (program : Program) (limit : Option Int) (failure : Failure) : Prop
  | nesting (top : Option Int) : failure = .onLine .nestedTooDeeplyToRun top → MayFail ..
  | begins {node : Statement} {s s' : State} :
    node ∈ program.nodes → s.begin limit node.line node.form = .failed failure s' → MayFail ..
  | does {node : Statement} {s s' : State} :
    node ∈ program.nodes → node.Does s (.failed failure s') → MayFail ..

/-- The law that failures are of a kind. -/
def Law.failsBy (p : Failure → Prop) : Law :=
  fun _ outcome _ => ∀ failure, outcome.failure? = some failure → p failure

private theorem Law.isComposable_failsBy (p : Failure → Prop) : (failsBy p).IsComposable where
  idle _ _ h := by cases h
  andThen _ hsecond := hsecond

/-- **What a run fails by** comes of one of the nodes, or of the nesting. -/
theorem Program.mayFail_of_run {program : Program} {bounds : Bounds} {s : State}
    {failure : Failure} (h : (program.run bounds s).failure? = some failure) :
    program.MayFail bounds.limit failure := by
  have hdoes : ∀ node ∈ program.nodes, ∀ {s outcome}, node.Does s outcome →
      Law.failsBy (program.MayFail bounds.limit) s outcome [] := by
    intro node hnode s outcome hdoes failure hfailure
    obtain ⟨s', rfl⟩ := Outcome.failure?_eq_some_iff.mp hfailure
    exact .does hnode hdoes
  refine run_law (Law.isComposable_failsBy (program.MayFail bounds.limit)) ?_ ?_ ?_ s failure h
  · intro top s failure hdeep
    cases hdeep
    exact .nesting top rfl
  · intro node hnode s failure hbegin
    obtain ⟨s', hs'⟩ := Outcome.failure?_eq_some_iff.mp hbegin
    exact .begins hnode hs'
  · intro node hnode top room hbodies
    refine (Law.isComposable_failsBy _).keeps ?_ (hdoes node hnode) hbodies
    intro s failure hunfinished
    cases hunfinished

/-! ### The places that nodes name -/

section Nodes

variable {store : Store} {d : Diagnostic}

/-- What an expression reports is a division, on the line of that. -/
private theorem Expr.MayFail.mem_placed {e : Expr} (h : e.MayFail (.diagnosed d)) :
    d.cause = .divisionByZero ∧ (Word.fixed .divide, d.row) ∈ e.placed := by
  generalize hfailure : Failure.diagnosed d = failure at h
  induction h with
  | division line left right =>
    cases hfailure
    exact ⟨rfl, List.mem_append_right _ List.mem_cons_self⟩
  | unknown | misplaced => cases hfailure
  | negate _ ih =>
    obtain ⟨hcause, hmem⟩ := ih hfailure
    exact ⟨hcause, List.mem_cons_of_mem _ hmem⟩
  | paren _ ih =>
    obtain ⟨hcause, hmem⟩ := ih hfailure
    exact ⟨hcause, List.mem_cons_of_mem _ (List.mem_append_left _ hmem)⟩
  | left _ ih =>
    obtain ⟨hcause, hmem⟩ := ih hfailure
    exact ⟨hcause, List.mem_append_left _ hmem⟩
  | right _ ih =>
    obtain ⟨hcause, hmem⟩ := ih hfailure
    exact ⟨hcause, List.mem_append_right _ (List.mem_append_right _ hmem)⟩

private theorem Condition.mem_placed_of_holds {condition : Condition}
    (h : condition.holds store = .error (.diagnosed d)) :
    d.cause = .divisionByZero ∧ (Word.fixed .divide, d.row) ∈ condition.placed := by
  cases condition with
  | misplaced form => cases h
  | compare line relation left right =>
    rw [holds_compare] at h
    rcases bind_eq_error_iff.mp h with h | ⟨a, -, h⟩
    · obtain ⟨hcause, hmem⟩ := (Expr.mayFail_of_evaluate h).mem_placed
      exact ⟨hcause, List.mem_append_left _ hmem⟩
    · rcases bind_eq_error_iff.mp h with h | ⟨b, -, h⟩
      · obtain ⟨hcause, hmem⟩ := (Expr.mayFail_of_evaluate h).mem_placed
        exact ⟨hcause, List.mem_append_right _ (List.mem_append_right _ hmem)⟩
      · cases relation <;> cases h

/-- A cause **names** a variable that input was asked for. -/
def Cause.AsksFor (cause : Cause) (name : String) : Prop :=
  cause = .noInput name ∨ ∃ text, cause = .illegalInput text name

private theorem State.asksFor_of_ask {s s' : State} {line : Option Int} {name : String}
    (h : s.ask line name = .failed (.diagnosed d) s') : d.cause.AsksFor name ∧ d.row = line := by
  unfold ask at h
  dsimp only at h
  split at h
  · cases h
    exact ⟨.inl rfl, rfl⟩
  · split at h
    · cases h
      exact ⟨.inr ⟨_, rfl⟩, rfl⟩
    · split at h <;> cases h

/-- What a node reports is a division in it, or that it is a request for input. -/
theorem Statement.Does.placed {node : Statement} {s s' : State}
    (h : node.Does s (.failed (.diagnosed d) s')) :
    (d.cause = .divisionByZero ∧ (Word.fixed .divide, d.row) ∈ node.placed) ∨
      ∃ name, d.cause.AsksFor name ∧
        Word.placedOn d.row [.fixed .inputWord, .name name] = node.placed := by
  generalize houtcome : Outcome.failed (.diagnosed d) s' = outcome at h
  cases h with
  | value he hvalue =>
    cases houtcome
    rw [Expr.value_eq_evaluate] at hvalue
    obtain ⟨hcause, hmem⟩ := (Expr.mayFail_of_evaluate hvalue).mem_placed
    exact .inl ⟨hcause, (infix_of_mem_exprs he).subset hmem⟩
  | holds hcondition hholds =>
    cases houtcome
    obtain ⟨hcause, hmem⟩ := Condition.mem_placed_of_holds hholds
    exact .inl ⟨hcause, (infix_of_mem_conditions hcondition).subset hmem⟩
  | put => cases houtcome
  | display value =>
    unfold State.display at houtcome
    split at houtcome <;> cases houtcome
  | ask hnode =>
    obtain ⟨hasks, hrow⟩ := State.asksFor_of_ask houtcome.symm
    rw [hnode, hrow]
    exact .inr ⟨_, hasks, rfl⟩
  | misplaced hnode => cases houtcome

/-- What a node does by itself does not fail for the limit. -/
theorem Statement.Does.cause_ne_stepLimit {node : Statement} {s s' : State}
    (h : node.Does s (.failed (.diagnosed d) s')) : d.cause ≠ .stepLimit := by
  intro hcause
  rcases h.placed with ⟨hdivision, -⟩ | ⟨name, hasks | ⟨text, hasks⟩, -⟩
  · rw [hcause] at hdivision
    cases hdivision
  · rw [hcause] at hasks
    cases hasks
  · rw [hcause] at hasks
    cases hasks

private theorem Cause.AsksFor.family {cause : Cause} {name : String} (h : cause.AsksFor name) :
    cause.family = .inputFormat := by
  obtain rfl | ⟨text, rfl⟩ := h <;> rfl

/-- A division by zero and a failed request for input come of a node. -/
private theorem Program.exists_node_of_family {program : Program} {limit : Option Int}
    (h : program.MayFail limit (.diagnosed d))
    (hfamily : d.cause.family = .arithmetic ∨ d.cause.family = .inputFormat) :
    ∃ node ∈ program.nodes, (d.cause = .divisionByZero ∧
        (Word.fixed .divide, d.row) ∈ node.placed) ∨
      ∃ name, d.cause.AsksFor name ∧
        Word.placedOn d.row [.fixed .inputWord, .name name] = node.placed := by
  cases h with
  | nesting top hfailure =>
    cases hfailure
    rcases hfamily with hfamily | hfamily <;> cases hfamily
  | begins _ hbegin =>
    unfold State.begin at hbegin
    split at hbegin
    · cases hbegin
    · split at hbegin
      · cases hbegin
      · cases hbegin
        rcases hfamily with hfamily | hfamily <;> cases hfamily
  | does hnode hdoes => exact ⟨_, hnode, hdoes.placed⟩

end Nodes

/-! ### Statements that begin -/

/-- The keyword that a statement of a form begins with, if such statements are written. -/
def Form.keyword? : Form → Option Kind
  | assign => some .letWord
  | display => some .displayWord
  | input => some .inputWord
  | branch => some .ifWord
  | whileLoop => some .whileWord
  | forLoop => some .forWord
  | _ => none

/-- A statement that is well formed begins with its keyword, on its line. -/
private theorem Statement.mem_placed_keyword {node : Statement} (h : node.isWellFormed = true) :
    ∃ keyword, node.form.keyword? = some keyword ∧
      (Word.fixed keyword, node.line) ∈ node.placed := by
  cases node with
  | branch line clauses =>
    cases clauses with
    | guarded condition body rest => exact ⟨.ifWord, rfl, List.mem_cons_self⟩
    | done | otherwise => cases h
  | assign => exact ⟨.letWord, rfl, List.mem_cons_self⟩
  | display => exact ⟨.displayWord, rfl, List.mem_cons_self⟩
  | input => exact ⟨.inputWord, rfl, List.mem_cons_self⟩
  | whileLoop => exact ⟨.whileWord, rfl, List.mem_cons_self⟩
  | forLoop => exact ⟨.forWord, rfl, List.mem_cons_self⟩
  | block | misplaced => cases h

/-- The law that moments are those of given nodes. -/
def Law.begunBy (nodes : List Statement) : Law :=
  fun _ _ moments => ∀ moment ∈ moments, ∃ node ∈ nodes,
    node.line = moment.line ∧ node.form = moment.form

private theorem Law.isComposable_begunBy (nodes : List Statement) :
    (begunBy nodes).IsComposable where
  idle _ := List.forall_mem_nil _
  andThen hfirst hsecond := List.forall_mem_append.mpr ⟨hfirst, hsecond⟩

/-- At every moment of a run a node of the program begins. -/
private theorem Program.exists_node_of_mem_moments {program : Program} {bounds : Bounds} {s : State}
    {moment : Moment} (h : moment ∈ program.moments bounds s) :
    ∃ node ∈ program.nodes, node.line = moment.line ∧ node.form = moment.form := by
  refine run_law (Law.isComposable_begunBy program.nodes) ?_ ?_ ?_ s moment h
  · exact fun _ _ => List.forall_mem_nil _
  · intro node hnode s moment hmoment
    unfold Moment.begin at hmoment
    split at hmoment
    · obtain rfl := List.mem_singleton.mp hmoment
      exact ⟨node, hnode, rfl, rfl⟩
    · cases hmoment
  · intro node hnode top room hbodies
    exact (Law.isComposable_begunBy program.nodes).keeps (fun _ => List.forall_mem_nil _)
      (fun _ => List.forall_mem_nil _) hbodies

private theorem Outcome.failure?_counted (outcome : Outcome) (k : Nat) :
    (outcome.counted k).failure? = outcome.failure? := by
  cases outcome <;> rfl

open Comparison in
/-- **At the limit**, the run without a limit begins another statement, and that is what the failure
names. -/
theorem Program.exists_moment_of_stepLimit {program : Program} {bounds : Bounds} {s : State}
    {d : Diagnostic} (h : (program.run bounds s).failure? = some (.diagnosed d))
    (hcause : d.cause = .stepLimit) :
    ∃ bound next, bounds.limit = some bound ∧
      (program.moments ⟨none, bounds.fuel⟩ s)[bound.toNat]? = some next ∧ d.row = next.line := by
  -- no node begins too much without a limit, and nothing else fails for it
  have hlimit : ∀ {limit : Option Int}, program.MayFail limit (.diagnosed d) → limit ≠ none := by
    rintro _ hfails rfl
    cases hfails with
    | nesting top hfailure =>
      cases hfailure
      cases hcause
    | begins _ hbegin => cases hbegin
    | does _ hdoes => exact absurd hcause hdoes.cause_ne_stepLimit
  obtain ⟨limit, fuel⟩ := bounds
  obtain ⟨bound, rfl⟩ := Option.ne_none_iff_exists'.mp (hlimit (mayFail_of_run h))
  have hcut : CutShort bound.toNat { s with steps := 0 } 0 (program.run ⟨none, fuel⟩ s)
      (program.run ⟨some bound, fuel⟩ s) (program.moments ⟨none, fuel⟩ s) := by
    refine run_relates (isComposable_cut bound.toNat) ?_ ?_ ?_ s ⟨Nat.le_refl 0, Nat.zero_le _⟩
    · intro top s k _
      exact cut_ends_failed (.onLine .nestedTooDeeplyToRun top)
    · intro node _
      -- a limit below zero is no different from zero
      have hbegin : State.begin (some bound) node.line node.form =
          State.begin (some (bound.toNat : Int)) node.line node.form := by
        funext s
        have hroom : (s.steps : Int) + 1 ≤ bound ↔ (s.steps : Int) + 1 ≤ bound.toNat := by omega
        simp only [State.begin, hroom]
      have hnone : ∀ other ∈ (none : Option Int), (bound.toNat : Int) < other := nofun
      rw [hbegin]
      exact cut_relates_begin hnone node.line node.form
    · intro node _ top room hbodies
      exact cut_covers hbodies
  cases hnext : (program.moments ⟨none, fuel⟩ s)[bound.toNat]? with
  | some next =>
    rw [hcut.beyond bound.toNat next hnext (Nat.zero_add _)] at h
    cases h
    exact ⟨bound, next, rfl, hnext, rfl⟩
  | none =>
    have hlength := List.getElem?_eq_none_iff.mp hnext
    rw [← Nat.zero_add (program.moments ⟨none, fuel⟩ s).length] at hlength
    rw [(hcut.within hlength).1, Outcome.failure?_counted] at h
    exact absurd rfl (hlimit (mayFail_of_run h))

/-! ### Programs that are read -/

/-- **The places of failures.** The nodes of a program that is read have the rows of the tokens that
they are told by for their lines. So a division by zero is reported on a row where there is a
division; a request for input that fails, on a row that asks for the variable that is named; and the
limit, on the row of the statement that the run would have begun next. -/
theorem Program.places_of_ofLines {lines : List String} {program : Program}
    (h : ofLines lines = .ok program) :
    (∃ fronts, List.Forall₂ IsFront (writtenLines 0 lines) fronts ∧
      program.placed = fronts.flatten.map Token.mark) ∧
    ∀ bounds s d, (program.run bounds s).failure? = some (.diagnosed d) →
      (d.cause.family = .arithmetic → ∃ row : Nat, d.row = some (row : Int) ∧
        ∃ token, StandTogether lines row [token] ∧ token.kind = .divide) ∧
      (d.cause.family = .inputFormat → ∃ row : Nat, d.row = some (row : Int) ∧
        ∃ word name, StandTogether lines row [word, name] ∧ word.kind = .inputWord ∧
          name.kind = .identifier ∧ d.cause.AsksFor name.lexeme) ∧
      (d.cause = .stepLimit → ∃ row : Nat, d.row = some (row : Int) ∧
        ∃ bound next token, bounds.limit = some bound ∧
          (program.moments ⟨none, bounds.fuel⟩ s)[bound.toNat]? = some next ∧
          d.row = next.line ∧ StandTogether lines row [token] ∧
          next.form.keyword? = some token.kind) := by
  refine ⟨exists_fronts h, fun bounds s d hfailed => ⟨fun hfamily => ?_, fun hfamily => ?_,
    fun hcause => ?_⟩⟩
  · obtain ⟨node, hnode, hplaced⟩ := exists_node_of_family (mayFail_of_run hfailed) (.inl hfamily)
    rcases hplaced with ⟨-, hmem⟩ | ⟨name, hasks, -⟩
    · exact exists_token_of_mem h ((infix_of_mem_nodes hnode).subset hmem) (by decide)
    · rw [hasks.family] at hfamily
      cases hfamily
  · obtain ⟨node, hnode, hplaced⟩ := exists_node_of_family (mayFail_of_run hfailed) (.inr hfamily)
    rcases hplaced with ⟨hcause, -⟩ | ⟨name, hasks, hplaced⟩
    · rw [hcause] at hfamily
      cases hfamily
    · obtain ⟨row, hrow, tokens, htogether, hwords⟩ := exists_tokens_of_infix h
        (List.cons_ne_nil _ _) (hplaced ▸ infix_of_mem_nodes hnode)
      obtain ⟨first, rest, rfl, hfirst, hrest⟩ := List.map_eq_cons_iff.mp hwords
      obtain ⟨second, rfl, hsecond⟩ := List.map_eq_singleton_iff.mp hrest
      obtain ⟨hkind, rfl⟩ := Word.of_normal_eq_name hsecond
      have hinput := Word.kind_of_fixed hfirst (by decide)
      exact ⟨row, hrow, first, second, htogether, hinput, hkind, hasks⟩
  · obtain ⟨bound, next, hbound, hnext, hrow⟩ := exists_moment_of_stepLimit hfailed hcause
    obtain ⟨node, hnode, hline, hform⟩ := exists_node_of_mem_moments (List.mem_of_getElem? hnext)
    obtain ⟨keyword, hkeyword, hmem⟩ :=
      Statement.mem_placed_keyword (isWellFormed_of_mem_nodes (exists_groups h).1 hnode)
    have hne : keyword ≠ .eq := by
      rintro rfl
      cases hnodeForm : node.form <;> rw [hnodeForm] at hkeyword <;> cases hkeyword
    obtain ⟨row, hplace, token, htogether, rfl⟩ :=
      exists_token_of_mem h ((infix_of_mem_nodes hnode).subset hmem) hne
    exact ⟨row, (hrow.trans hline.symm).trans hplace, bound, next, token, hbound, hnext, hrow,
      htogether, hform ▸ hkeyword⟩

/-- A countdown fails by what stands on its last line, on its first line, or on the line that it has
come to. -/
theorem Program.places_of_countdown :
    let lines := ["input n", "while n > 0:", "\tlet n := n - 1", "display 1 / n"]
    ∃ program, ofLines lines = .ok program ∧
      (∃ token, StandTogether lines 3 [token] ∧ token.kind = .divide) ∧
      (∃ word name, StandTogether lines 0 [word, name] ∧ word.kind = .inputWord ∧
        name.kind = .identifier ∧ (Cause.illegalInput "two" "n").AsksFor name.lexeme) ∧
      ∃ next token, (program.moments ⟨none, 3⟩ (.initial .empty "2\n"))[2]? = some next ∧
        some 2 = next.line ∧ StandTogether lines 2 [token] ∧
        next.form.keyword? = some token.kind := by
  intro lines
  obtain ⟨program, hprogram, hdivision, hinput, hlimit⟩ :=
    exists_eq_ok_and (ofLines lines)
      (fun program =>
        (program.run ⟨none, 3⟩ (.initial .empty "2\n")).failure? =
          some (.onLine .divisionByZero (some 3)) ∧
        (program.run ⟨none, 3⟩ (.initial .empty "two\n")).failure? =
          some (.onLine (.illegalInput "two" "n") (some 0)) ∧
        (program.run ⟨some 2, 3⟩ (.initial .empty "2\n")).failure? =
          some (.onLine .stepLimit (some 2)))
      (by decide +kernel)
  have hplaces := (places_of_ofLines hprogram).2
  refine ⟨program, hprogram, ?_, ?_, ?_⟩
  · obtain ⟨row, hrow, hfound⟩ := (hplaces _ _ _ hdivision).1 rfl
    cases hrow
    exact hfound
  · obtain ⟨row, hrow, hfound⟩ := (hplaces _ _ _ hinput).2.1 rfl
    cases hrow
    exact hfound
  · obtain ⟨row, hrow, bound, next, token, hbound, hfound⟩ := (hplaces _ _ _ hlimit).2.2 rfl
    cases hrow
    cases hbound
    exact ⟨next, token, hfound⟩

end Offside

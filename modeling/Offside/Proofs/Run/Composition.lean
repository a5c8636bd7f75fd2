import Offside.Proofs.Relabeling.Running
import Offside.Proofs.Run.Law
import Offside.Proofs.Source.Composition

/-!
# Running programs one behind the other

Without a limit on statements no statement is counted, so a program that consists of two runs as the
first and then, if that is done, as the second (`Program.run_append`). On which lines the second
program stands does not matter for its effect, which is what it writes, what it leaves of the input,
and what it makes of the store.

Together with reading this makes programs compose: to run the lines of two programs together is to
run one and then the other (`Program.ofLines_compose`).
-/

namespace Offside

/-! ### One list of items behind the other -/

namespace Outcome

theorem andThen_assoc (outcome : Outcome) (next last : State → Outcome) :
    (outcome.andThen next).andThen last = outcome.andThen fun s => (next s).andThen last := by
  cases outcome <;> rfl

theorem sequence_singleton {α : Type} (run : α → State → Outcome) (item : α) (s : State) :
    sequence run [item] s = run item s := by
  rw [sequence_cons]
  cases run item s <;> rfl

theorem sequence_append {α : Type} (run : α → State → Outcome) (items more : List α) (s : State) :
    sequence run (items ++ more) s = (sequence run items s).andThen (sequence run more) := by
  induction items generalizing s with
  | nil => rfl
  | cons item items ih =>
    rw [List.cons_append, sequence_cons, sequence_cons, andThen_assoc]
    exact congrArg (andThen _) (funext ih)

end Outcome

/-! ### Runs without a limit -/

/-- The law that nothing is counted. -/
def Law.uncounted : Law :=
  fun s outcome _ => ∀ s', outcome = .done s' → s'.steps = s.steps

/-- Not to count is a law of runs that are put together. -/
private theorem Law.isComposable_uncounted : uncounted.IsComposable where
  idle s := by
    rintro _ ⟨⟩
    rfl
  andThen hfirst hsecond s' hs' := (hsecond s' hs').trans (hfirst _ rfl)

/-- Without a limit a run that is done has counted no statements. -/
theorem Program.steps_of_run {program : Program} {fuel : Nat} {s s' : State}
    (h : program.run ⟨none, fuel⟩ s = .done s') : s'.steps = 0 := by
  have hlaw : Law.uncounted { s with steps := 0 } (program.run ⟨none, fuel⟩ s)
      (program.moments ⟨none, fuel⟩ s) := by
    refine Program.run_law Law.isComposable_uncounted ?_ ?_ ?_ s
    · rintro top s _ ⟨⟩
    · rintro node - s _ ⟨⟩
      rfl
    · intro node hnode top room hbodies
      refine Law.isComposable_uncounted.keeps ?_ ?_ hbodies
      · rintro s _ ⟨⟩
      · intro s outcome hdoes s' hs'
        exact (hs' ▸ hdoes).steps_eq
  exact hlaw s' h

/-- **A program of two parts** runs as the first part and then as the second, without a limit. -/
theorem Program.run_append (first second : List Statement) (fuel : Nat) (s : State) :
    (mk (first ++ second)).run ⟨none, fuel⟩ s =
      ((mk first).run ⟨none, fuel⟩ s).andThen ((mk second).run ⟨none, fuel⟩) := by
  rw [run, Outcome.sequence_append]
  change ((mk first).run ⟨none, fuel⟩ s).andThen _ = _
  cases hfirst : (mk first).run ⟨none, fuel⟩ s with
  | done s' =>
    have hsteps : { s' with steps := 0 } = s' := by
      rw [← steps_of_run hfirst]
    change Outcome.sequence _ second s' = Outcome.sequence _ second { s' with steps := 0 }
    rw [hsteps]
  | failed | unfinished => rfl

/-! ### Runs of programs that stand elsewhere -/

/-- The relabeling that forgets on which lines things stand. -/
def Relabeling.lineless : Relabeling :=
  ofRows (fun _ => 0) (fun _ => 0) fun _ => rfl

open Relabeling (lineless)

/-- Failures of the **same kind**: of one family, or the same breakdown. -/
inductive Failure.SameKind : Failure → Failure → Prop
  | diagnosed {d d' : Diagnostic} :
    d.cause.family = d'.cause.family → SameKind (.diagnosed d) (.diagnosed d')
  | broken (b : Breakdown) : SameKind (.broken b) (.broken b)

/-- States of the **same effect**: with prompts and without, the same was written, and the same
input is left and the same store. -/
structure State.SameEffect (s s' : State) : Prop where
  output : ∀ prompts, s.output prompts = s'.output prompts
  input : s.input = s'.input
  store : s.store = s'.store

/-- Outcomes of the **same effect**. -/
abbrev Outcome.SameEffect : Outcome → Outcome → Prop :=
  Agrees Failure.SameKind State.SameEffect

/-- Failures that are the same but for their lines are of one kind. -/
private theorem Failure.sameKind_of_relabel_eq {r : Relabeling} {failure failure' : Failure}
    (h : failure.relabel r = failure'.relabel r) : failure.SameKind failure' := by
  obtain ⟨b, rfl, rfl⟩ | ⟨d, d', rfl, rfl, hd⟩ := eq_or_of_relabel_eq h
  · exact .broken b
  · exact .diagnosed (Diagnostic.family_eq_of_relabel_eq hd)

private theorem State.sameEffect_of_relabel_eq {s s' : State}
    (h : s.relabel lineless = s'.relabel lineless) : s.SameEffect s' := by
  obtain ⟨hstore, hinput, -, -⟩ := State.mk.inj h
  refine ⟨fun prompts => ?_, hinput, hstore⟩
  rw [← s.output_relabel (r := lineless) (.inr rfl), h, output_relabel (.inr rfl)]

private theorem Program.relabel_lineless_mapLine (f : Int → Int) (program : Program) :
    (program.mapLine (Option.map f)).relabel lineless = program.relabel lineless := by
  have hline : Option.map lineless.line ∘ Option.map f = Option.map lineless.line :=
    Option.map_comp_map _ _
  rw [relabel, mapLine_mapLine, hline]
  rfl

/-- Where a program stands does not matter for the effect of its runs. -/
theorem Program.sameEffect_run_mapLine (f : Int → Int) (program : Program) (bounds : Bounds)
    (s : State) :
    ((program.mapLine (Option.map f)).run bounds s).SameEffect (program.run bounds s) := by
  refine Outcome.agrees_of_relabel_eq Failure.sameKind_of_relabel_eq
    State.sameEffect_of_relabel_eq ?_
  have hvariables : lineless.KeepsVariables := fun _ => rfl
  rw [← run_relabel hvariables, relabel_lineless_mapLine, run_relabel hvariables]

/-! ### Programs together -/

/-- **Programs compose.** If the lines of a program begin afresh, then together with lines in front
of them they are a program just when both are. It consists of the one program and then the other,
further down. Without a limit, a run of it has the effect of a run of the one and then, if that is
done, of the other. -/
theorem Program.ofLines_compose {front back : List String} (h : BeginsAfresh back) :
    ((∃ whole, ofLines (front ++ back) = .ok whole) ↔
      (∃ first, ofLines front = .ok first) ∧ ∃ second, ofLines back = .ok second) ∧
    ∀ first second, ofLines front = .ok first → ofLines back = .ok second →
      ∃ whole, ofLines (front ++ back) = .ok whole ∧
        whole.statements =
          first.statements ++ (second.mapLine (Option.map (· + front.length))).statements ∧
        ∀ fuel s, (whole.run ⟨none, fuel⟩ s).SameEffect
          ((first.run ⟨none, fuel⟩ s).andThen (second.run ⟨none, fuel⟩)) := by
  constructor
  · constructor
    · rintro ⟨whole, hwhole⟩
      obtain ⟨first, second, hfirst, hsecond, -⟩ := (ofLines_append_eq_ok_iff h).mp hwhole
      exact ⟨⟨first, hfirst⟩, second, hsecond⟩
    · rintro ⟨⟨first, hfirst⟩, second, hsecond⟩
      exact ⟨_, (ofLines_append_eq_ok_iff h).mpr ⟨first, second, hfirst, hsecond, rfl⟩⟩
  · intro first second hfirst hsecond
    refine ⟨_, (ofLines_append_eq_ok_iff h).mpr ⟨first, second, hfirst, hsecond, rfl⟩, rfl, ?_⟩
    intro fuel s
    rw [run_append]
    change (((first.run ⟨none, fuel⟩ s).andThen
      ((second.mapLine (Option.map (· + (front.length : Int)))).run ⟨none, fuel⟩)).SameEffect _)
    cases first.run ⟨none, fuel⟩ s with
    | done s' => exact second.sameEffect_run_mapLine _ ⟨none, fuel⟩ s'
    | failed | unfinished =>
      exact Outcome.agrees_of_relabel_eq (r := lineless) Failure.sameKind_of_relabel_eq
        State.sameEffect_of_relabel_eq rfl

/-- A branch whose block is open at its end, and another branch behind it. -/
theorem Program.append_of_branches :
    BeginsAfresh ["", "if x < 5: display 5", "else: display 6"] ∧
    ∃ whole first second, ofLines ["input x", "if x < 3:", "\tdisplay x"] = .ok first ∧
      ofLines ["", "if x < 5: display 5", "else: display 6"] = .ok second ∧
      ofLines (["input x", "if x < 3:", "\tdisplay x"] ++
        ["", "if x < 5: display 5", "else: display 6"]) = .ok whole ∧
      whole.statements =
        first.statements ++ (second.mapLine (Option.map (· + (3 : Nat)))).statements ∧
      ∀ fuel s, (whole.run ⟨none, fuel⟩ s).SameEffect
        ((first.run ⟨none, fuel⟩ s).andThen (second.run ⟨none, fuel⟩)) := by
  have hafresh : BeginsAfresh ["", "if x < 5: display 5", "else: display 6"] := by decide +kernel
  obtain ⟨first, hfirst⟩ := exists_eq_ok
    (show (ofLines ["input x", "if x < 3:", "\tdisplay x"]).isOk by decide +kernel)
  obtain ⟨second, hsecond⟩ := exists_eq_ok
    (show (ofLines ["", "if x < 5: display 5", "else: display 6"]).isOk by decide +kernel)
  obtain ⟨whole, hwhole, hstatements, heffect⟩ :=
    (ofLines_compose hafresh).2 first second hfirst hsecond
  exact ⟨hafresh, whole, first, second, hfirst, hsecond, hwhole, hstatements, heffect⟩

end Offside

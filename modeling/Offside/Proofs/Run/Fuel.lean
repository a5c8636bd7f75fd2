import Offside.Proofs.Run.Comparison

/-!
# More fuel

Fuel is no part of the language: a run that comes to its end with some fuel comes to the same end
with more (`Program.run_eq_of_fuel_le`). So a run ends if it ends with some fuel, and then in one
way.
-/

namespace Offside

namespace Comparison

/-- The comparison of a run with one that has more fuel: the first is unfinished, or the second
does the same. -/
def moreFuel : Comparison where
  Start s k := k = s.steps
  Ends _ _ first second _ := first = .unfinished ∨ second = first

/-- To come to the same end with more fuel is a law of runs that are put together. -/
private theorem isComposable_moreFuel : moreFuel.IsComposable where
  idle := by
    rintro s k rfl
    exact .inr rfl
  behind {s k first second moments next next' more} _ hfirst hnext := by
    rcases hfirst with rfl | rfl
    · exact .inl rfl
    · cases second with
      | done s' => exact hnext s' s'.steps rfl
      | failed | unfinished => exact .inr rfl

private theorem moreFuel_covers {fuel extra : Nat} {body body' : Body → State → Outcome}
    {moments : Body → State → List Moment} {node : Statement}
    (hbodies : ∀ inner ∈ node.bodies,
      moreFuel.Relates (body inner) (body' inner) (moments inner)) :
    moreFuel.Covers fuel (extra + fuel) body body' moments node where
  does {s k outcome} hstart hdoes := by
    cases hstart
    exact .inr hdoes.counted_eq
  repeats line condition inner hnode := by
    subst hnode
    refine isComposable_moreFuel.repeatWhile_add extra (fun s k _ => .inl rfl) ?_
      (hbodies inner (List.mem_singleton_self inner)) fuel
    rintro s k failure rfl -
    exact .inr rfl

end Comparison

/-- More fuel for a statement. -/
theorem Statement.relates_moreFuel (limit : Option Int) (fuel extra : Nat) (top : Option Int)
    (room : Nat) (statement : Statement) :
    Comparison.moreFuel.Relates (statement.run ⟨limit, fuel⟩ top room)
      (statement.run ⟨limit, extra + fuel⟩ top room)
      (statement.moments ⟨limit, fuel⟩ top room) := by
  refine statement.run_relates Comparison.isComposable_moreFuel ?_ ?_ ?_ room
  · rintro s k rfl
    exact .inr rfl
  · rintro node - s k rfl
    exact .inr rfl
  · intro node _ room hbodies
    exact Comparison.moreFuel_covers hbodies

/-- Statements in a row that end with some fuel end in the same way with more. -/
theorem Statement.sequence_eq_of_fuel_le {statements : List Statement} {limit top : Option Int}
    {room fuel fuel' : Nat} {s : State} (hfuel : fuel ≤ fuel')
    (hends : Outcome.sequence (run ⟨limit, fuel⟩ top room) statements s ≠ .unfinished) :
    Outcome.sequence (run ⟨limit, fuel'⟩ top room) statements s =
      Outcome.sequence (run ⟨limit, fuel⟩ top room) statements s := by
  obtain ⟨extra, rfl⟩ := Nat.exists_eq_add_of_le' hfuel
  have hrelates : Comparison.moreFuel.Relates
      (Outcome.sequence (run ⟨limit, fuel⟩ top room) statements)
      (Outcome.sequence (run ⟨limit, extra + fuel⟩ top room) statements)
      (Moment.sequence (run ⟨limit, fuel⟩ top room) (moments ⟨limit, fuel⟩ top room) statements) :=
    Comparison.isComposable_moreFuel.sequence fun statement _ =>
      relates_moreFuel limit fuel extra top room statement
  exact (hrelates s s.steps rfl).resolve_left hends

/-- A statement that comes to its end with some fuel comes to the same end with more. -/
theorem Statement.run_eq_of_fuel_le {statement : Statement} {limit top : Option Int}
    {room fuel fuel' : Nat} {s : State} (hfuel : fuel ≤ fuel')
    (hends : statement.run ⟨limit, fuel⟩ top room s ≠ .unfinished) :
    statement.run ⟨limit, fuel'⟩ top room s = statement.run ⟨limit, fuel⟩ top room s := by
  obtain ⟨extra, rfl⟩ := Nat.exists_eq_add_of_le' hfuel
  exact (relates_moreFuel limit fuel extra top room statement s s.steps rfl).resolve_left hends

/-- **More fuel changes nothing**: a run that ends with some fuel ends in the same way with
more. -/
theorem Program.run_eq_of_fuel_le {program : Program} {limit : Option Int} {fuel fuel' : Nat}
    {s : State} (hfuel : fuel ≤ fuel') (hends : program.run ⟨limit, fuel⟩ s ≠ .unfinished) :
    program.run ⟨limit, fuel'⟩ s = program.run ⟨limit, fuel⟩ s := by
  obtain ⟨extra, rfl⟩ := Nat.exists_eq_add_of_le' hfuel
  have hboth : Comparison.moreFuel.Ends { s with steps := 0 } 0 (program.run ⟨limit, fuel⟩ s)
      (program.run ⟨limit, extra + fuel⟩ s) (program.moments ⟨limit, fuel⟩ s) :=
    Comparison.isComposable_moreFuel.sequence (fun statement _ =>
      statement.relates_moreFuel limit fuel extra statement.line runningLimit) _ _ rfl
  exact hboth.resolve_left hends

end Offside

import Offside.Proofs.Run.Fuel
import Offside.Proofs.Run.Law
import Offside.Proofs.Source.Program

/-!
# Runs that end

A run does not end only if a loop goes on testing its condition. With a limit on the statements
this cannot be where every body has statements in it, and those of a program that is read do: each
round then begins a statement, so there is no more fuel needed than for one round of each statement
that the limit allows, and one more (`Program.ends_of_ofLines`). The rounds themselves are not
counted, so a loop with an empty body would go on under every limit.
-/

namespace Offside

/-- The law of runs with the limit `bound`: they come to an end, each statement that begins is
counted, and no more of them begin than the limit allows. -/
structure EndsWithin (bound : Int) (s : State) (outcome : Outcome) (moments : List Moment) :
    Prop where
  finished : outcome ≠ .unfinished
  steps_eq : ∀ s', outcome = .done s' → s'.steps = s.steps + moments.length
  within : moments ≠ [] → ((s.steps + moments.length : Nat) : Int) ≤ bound

variable {bound : Int} {s s' : State} {failure : Failure}

private theorem endsWithin_failed : EndsWithin bound s (.failed failure s) [] :=
  ⟨nofun, nofun, (absurd rfl ·)⟩

private theorem endsWithin_idle : EndsWithin bound s (.done s) [] :=
  ⟨nofun, by rintro _ ⟨⟩; rfl, (absurd rfl ·)⟩

/-- To end within a bound is a law of runs that are put together. -/
private theorem isComposable_endsWithin : Law.IsComposable (EndsWithin bound) where
  idle _ := endsWithin_idle
  andThen {s s' outcome moments more} hfirst hnext := by
    have hsteps := hfirst.steps_eq s' rfl
    refine ⟨hnext.finished, fun s'' hs'' => ?_, fun hne => ?_⟩
    · rw [hnext.steps_eq s'' hs'', hsteps, List.length_append, Nat.add_assoc]
    · rw [List.length_append, ← Nat.add_assoc, ← hsteps]
      cases more with
      | nil =>
        rw [List.append_nil] at hne
        rw [hsteps]
        exact hfirst.within hne
      | cons moment more => exact hnext.within (List.cons_ne_nil moment more)

/-- What a node does by itself comes to an end. -/
private theorem Statement.Does.ne_unfinished {node : Statement} {outcome : Outcome}
    (h : node.Does s outcome) : outcome ≠ .unfinished := by
  rintro rfl
  obtain ⟨s', hs', -⟩ := h.exists_state
  cases hs'

private theorem endsWithin_of_does {node : Statement} {outcome : Outcome}
    (h : node.Does s outcome) :
    EndsWithin bound s outcome [] :=
  ⟨h.ne_unfinished, by rintro s' rfl; exact h.steps_eq, (absurd rfl ·)⟩

private theorem endsWithin_begin (line : Option Int) (form : Form) :
    EndsWithin bound s (s.begin (some bound) line form)
      (Moment.begin (some bound) line form s) := by
  by_cases hroom : (s.steps : Int) + 1 ≤ bound
  · have hbegin : s.begin (some bound) line form =
        .done ({ s with steps := s.steps + 1 }.record (.started line form)) := if_pos hroom
    rw [Moment.begin, hbegin]
    exact ⟨nofun, by rintro _ ⟨⟩; rfl, fun _ => hroom⟩
  · have hbegin : s.begin (some bound) line form =
        .failed (.onLine .stepLimit line) { s with steps := s.steps + 1 } := if_neg hroom
    rw [Moment.begin, hbegin]
    exact ⟨nofun, nofun, (absurd rfl ·)⟩

/-! ### Bodies that begin a statement -/

/-- A statement that is done has begun. -/
theorem Statement.moments_ne_nil {bounds : Bounds} {top : Option Int} {room : Nat}
    {statement : Statement} (hdone : statement.run bounds top room s = .done s') :
    statement.moments bounds top room s ≠ [] := by
  cases room with
  | zero => cases hdone
  | succ room =>
    rw [run_succ] at hdone
    rw [moments_succ, Moment.begin]
    cases hbegin : s.begin bounds.limit statement.line statement.form with
    | done s₁ => exact List.cons_ne_nil _ _
    | failed | unfinished =>
      rw [hbegin] at hdone
      cases hdone

/-- Where a body with statements is done, one of them has begun. -/
private theorem Body.moments_ne_nil {bounds : Bounds} {top : Option Int} {room : Nat} {body : Body}
    (hne : body.statements ≠ []) (hdone : body.run bounds top room s = .done s') :
    body.moments bounds top room s ≠ [] := by
  obtain ⟨statement, rest, hbody⟩ := List.exists_cons_of_ne_nil hne
  rw [run, hbody, Outcome.sequence_cons] at hdone
  rw [moments, hbody, Moment.sequence]
  cases hfirst : statement.run bounds top room s with
  | done s₁ => exact List.append_ne_nil_of_left_ne_nil (Statement.moments_ne_nil hfirst) _
  | failed | unfinished =>
    rw [hfirst] at hdone
    cases hdone

/-- **Rounds are limited** where each of them begins a statement: with more fuel than statements
that may still begin, the repetition comes to an end. -/
private theorem endsWithin_repeatWhile {condition : Condition} {body : State → Outcome}
    {moments : State → List Moment} (hbody : ∀ s, EndsWithin bound s (body s) (moments s))
    (hbegins : ∀ {s s'}, body s = .done s' → moments s ≠ []) {fuel : Nat}
    (hfuel : (bound - s.steps).toNat < fuel) :
    EndsWithin bound s (Outcome.repeatWhile (fun s => condition.holds s.store) body fuel s)
      (Moment.repeatWhile (fun s => condition.holds s.store) body moments fuel s) := by
  induction fuel generalizing s with
  | zero => cases hfuel
  | succ fuel ih =>
    rw [Outcome.repeatWhile_succ, Moment.repeatWhile]
    cases condition.holds s.store with
    | error failure => exact endsWithin_failed
    | ok holds =>
      cases holds with
      | false => exact endsWithin_idle
      | true =>
        refine isComposable_endsWithin.behind (hbody s) fun s' hs' => ih ?_
        -- the round has used up a part of what the limit leaves
        have hne := hbegins hs'
        have hlength := List.length_pos_iff.mpr hne
        have hsteps := (hbody s).steps_eq s' hs'
        have hwithin := (hbody s).within hne
        omega

/-! ### Programs -/

/-- A run with a limit ends if all bodies have statements in them. -/
theorem Program.endsWithin_run {program : Program} (h : program.isWellFormed = true) {fuel : Nat}
    (hfuel : bound.toNat < fuel) (s : State) :
    EndsWithin bound { s with steps := 0 } (program.run ⟨some bound, fuel⟩ s)
      (program.moments ⟨some bound, fuel⟩ s) := by
  refine run_law isComposable_endsWithin (fun _ _ => endsWithin_failed) ?_ ?_ s
  · intro node _ s
    exact endsWithin_begin node.line node.form
  · intro node hnode top room hbodies
    refine ⟨endsWithin_of_does, ?_⟩
    rintro line condition inner rfl s
    have hinner : inner.isWellFormed = true :=
      Statement.isWellFormed_of_mem_bodies (isWellFormed_of_mem_nodes h hnode)
        (List.mem_singleton_self inner)
    refine endsWithin_repeatWhile (hbodies inner (List.mem_singleton_self inner)) ?_ ?_
    · exact fun hdone => Body.moments_ne_nil (Body.isWellFormed_iff.mp hinner).1 hdone
    · dsimp only
      omega

/-- A run ends if no statement is a loop that tests a condition. -/
theorem Program.run_ne_unfinished {program : Program}
    (hloops : ∀ node ∈ program.nodes, node.form ≠ .whileLoop) (bounds : Bounds) (s : State) :
    program.run bounds s ≠ .unfinished := by
  have hcomposable : Law.IsComposable fun _ outcome _ => outcome ≠ .unfinished :=
    ⟨nofun, fun _ hnext => hnext⟩
  refine run_law hcomposable nofun ?_ ?_ s
  · intro node _ s
    unfold State.begin
    split
    · nofun
    · split <;> nofun
  · intro node hnode top room _
    refine ⟨fun hdoes => hdoes.ne_unfinished, ?_⟩
    rintro line condition inner rfl
    exact absurd rfl (hloops _ hnode)

/-- **Guarded runs end.** A run of a program that is read comes to its end if it has a limit, with
more fuel than the limit in one and the same way, and it has then begun no more statements than the
limit allows. Without a limit it does if no statement of the program is a loop that tests a
condition. -/
theorem Program.ends_of_ofLines {lines : List String} {program : Program}
    (h : ofLines lines = .ok program) (s : State) :
    (∀ bound : Int, ∃ outcome, outcome ≠ .unfinished ∧ ∀ fuel, bound.toNat < fuel →
      program.run ⟨some bound, fuel⟩ s = outcome ∧
      (program.moments ⟨some bound, fuel⟩ s).length ≤ bound.toNat) ∧
    ((∀ node ∈ program.nodes, node.form ≠ .whileLoop) →
      ∃ outcome, outcome ≠ .unfinished ∧ ∀ fuel, program.run ⟨none, fuel⟩ s = outcome) := by
  have hprogram : program.isWellFormed = true := (exists_groups h).1
  constructor
  · intro bound
    have hends := endsWithin_run hprogram (Nat.lt_succ_self bound.toNat) s
    refine ⟨_, hends.finished, fun fuel hfuel => ⟨run_eq_of_fuel_le hfuel hends.finished, ?_⟩⟩
    have hwithin := (endsWithin_run hprogram hfuel s).within
    by_cases hnone : program.moments ⟨some bound, fuel⟩ s = []
    · rw [hnone]
      exact Nat.zero_le _
    · have hlength := hwithin hnone
      rw [Nat.zero_add] at hlength
      omega
  · intro hloops
    have hends := run_ne_unfinished hloops ⟨none, 0⟩ s
    exact ⟨_, hends, fun fuel => run_eq_of_fuel_le (Nat.zero_le fuel) hends⟩

/-- An endless loop under a limit, and a loop that counts under none. -/
theorem Program.ends_of_loops :
    ∃ endless counting,
      ofLines ["while 1 = 1:", "\tlet x := x + 1"] = .ok endless ∧
      ofLines ["for i in 1 .. 2: display i"] = .ok counting ∧
      (∀ fuel, 50 < fuel →
        (endless.run ⟨some 50, fuel⟩ (.initial .empty "")).state?.map State.steps = some 51) ∧
      ∀ fuel, (counting.run ⟨none, fuel⟩ (.initial .empty "")).state?.map State.events =
        some [.started (some 0) .forLoop, .started (some 0) .display, .displayed 1,
          .started (some 0) .display, .displayed 2] := by
  obtain ⟨endless, hendless, hsteps⟩ :=
    exists_eq_ok_and (ofLines ["while 1 = 1:", "\tlet x := x + 1"])
      (fun program =>
        (program.run ⟨some 50, 51⟩ (.initial .empty "")).state?.map State.steps = some 51)
      (by decide +kernel)
  obtain ⟨counting, hcounting, hloops, hevents⟩ :=
    exists_eq_ok_and (ofLines ["for i in 1 .. 2: display i"])
      (fun program =>
        (∀ node ∈ program.nodes, node.form ≠ .whileLoop) ∧
        (program.run ⟨none, 0⟩ (.initial .empty "")).state?.map State.events =
          some [.started (some 0) .forLoop, .started (some 0) .display, .displayed 1,
            .started (some 0) .display, .displayed 2])
      (by decide +kernel)
  refine ⟨endless, counting, hendless, hcounting, fun fuel hfuel => ?_, fun fuel => ?_⟩
  · obtain ⟨outcome, -, hends⟩ := (ends_of_ofLines hendless (.initial .empty "")).1 50
    rw [(hends fuel hfuel).1, ← (hends 51 (by decide)).1]
    exact hsteps
  · obtain ⟨outcome, -, hends⟩ := (ends_of_ofLines hcounting (.initial .empty "")).2 hloops
    rw [hends fuel, ← hends 0]
    exact hevents

end Offside

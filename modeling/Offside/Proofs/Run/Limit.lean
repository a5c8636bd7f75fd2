import Offside.Proofs.Failing
import Offside.Proofs.Run.History
import Offside.Source.Layout

/-!
# Runs cut short

A limit cuts a run short and does not change it otherwise. A run with a smaller limit, or with a
limit where there was none, goes through the same states but for the count of statements, until it
has begun as many statements as its limit allows: if the other run begins another one there, this
one fails at that moment, and if not, both come to the same (`Program.run_within_limit`).
-/

namespace Offside

/-- How a part of a run comes out of the limit `n` when `k` statements have been counted before. -/
structure CutShort (n : Nat) (s : State) (k : Nat) (first second : Outcome)
    (moments : List Moment) : Prop where
  /-- Within the limit the outcome is the same. -/
  within : k + moments.length ≤ n → second = first.counted (k + moments.length) ∧
    ∀ s', first = .done s' → s'.steps ≤ k + moments.length
  /-- The moment behind the limit is the end. -/
  beyond : ∀ i moment, moments[i]? = some moment → k + i = n →
    second = .failed (.onLine .stepLimit moment.line) { moment.state with steps := n + 1 }

namespace Comparison

/-- The comparison of a run with one that has the limit `n`. -/
def cut (n : Nat) : Comparison where
  Start s k := s.steps ≤ k ∧ k ≤ n
  Ends := CutShort n

variable {n k : Nat} {s : State}

/-- What begins no statement comes out the same. -/
private theorem cut_ends_nil (outcome : Outcome) (hkept : ∀ s', outcome = .done s' → s'.steps ≤ k) :
    (cut n).Ends s k outcome (outcome.counted k) [] :=
  ⟨fun _ => ⟨rfl, hkept⟩, fun i moment hmoment => by cases hmoment⟩

theorem cut_ends_failed (failure : Failure) :
    (cut n).Ends s k (.failed failure s) (.failed failure { s with steps := k }) [] :=
  cut_ends_nil (.failed failure s) nofun

theorem isComposable_cut (n : Nat) : (cut n).IsComposable where
  idle s k hstart := cut_ends_nil (.done s) (by rintro _ ⟨⟩; exact hstart.1)
  behind {s k first second moments next next' more} hstart hfirst hnext := by
    rcases Nat.lt_or_ge n (k + moments.length) with hover | hroom
    · -- the limit is passed within the first part
      obtain ⟨i, rfl⟩ := Nat.exists_eq_add_of_le hstart.2
      have hi : i < moments.length := Nat.lt_of_add_lt_add_left hover
      have hsecond := hfirst.beyond i _ (List.getElem?_eq_getElem hi) rfl
      subst hsecond
      refine ⟨fun hlength => ?_, fun j moment hmoment hj => ?_⟩
      · rw [List.length_append] at hlength
        omega
      · obtain rfl := Nat.add_left_cancel hj
        rw [List.getElem?_append_left hi, List.getElem?_eq_getElem hi] at hmoment
        cases hmoment
        rfl
    · obtain ⟨rfl, hsteps⟩ := hfirst.within hroom
      cases first with
      | failed failure s' => exact (List.append_nil moments).symm ▸ hfirst
      | unfinished => exact (List.append_nil moments).symm ▸ hfirst
      | done s' =>
        obtain ⟨hwithin, hbeyond⟩ := hnext s' (k + moments.length) ⟨hsteps s' rfl, hroom⟩
        refine ⟨fun hlength => ?_, fun i moment hmoment hi => ?_⟩
        · rw [Moment.behind, List.length_append, ← Nat.add_assoc] at hlength ⊢
          exact hwithin hlength
        · -- within the first part there is room for every moment
          have hlength : moments.length ≤ i := by omega
          rw [List.getElem?_append_right hlength] at hmoment
          exact hbeyond (i - moments.length) moment hmoment (by omega)

/-- A statement begins in both runs, or it is the one too many. -/
theorem cut_relates_begin {limit : Option Int} (hlimit : ∀ bound ∈ limit, (n : Int) < bound)
    (line : Option Int) (form : Form) :
    (cut n).Relates (State.begin limit line form) (State.begin (some n) line form)
      (Moment.begin limit line form) := by
  rintro s k ⟨hsteps, hk⟩
  -- in the first run the statement begins, whatever the limit there
  obtain ⟨steps, hsteps', hbegin⟩ : ∃ steps, steps ≤ k + 1 ∧
      s.begin limit line form = .done ({ s with steps }.record (.started line form)) := by
    cases limit with
    | none => exact ⟨s.steps, by omega, rfl⟩
    | some bound =>
      have hbound := hlimit bound rfl
      exact ⟨s.steps + 1, by omega, if_pos (by omega)⟩
  have hmoments : Moment.begin limit line form s = [⟨line, form, s⟩] := by
    rw [Moment.begin, hbegin]
  rw [hmoments, hbegin]
  constructor
  · intro hlength
    refine ⟨if_pos (Int.ofNat_le.mpr hlength), ?_⟩
    rintro _ ⟨⟩
    exact hsteps'
  · intro i moment hmoment hi
    cases i with
    | zero =>
      cases hmoment
      subst hi
      exact if_neg (Int.not_le.mpr (Int.lt_succ k))
    | succ i => cases hmoment

theorem cut_covers {fuel : Nat} {body body' : Body → State → Outcome}
    {moments : Body → State → List Moment} {node : Statement}
    (hbodies : ∀ inner ∈ node.bodies, (cut n).Relates (body inner) (body' inner) (moments inner)) :
    (cut n).Covers fuel fuel body body' moments node where
  does {s k outcome} hstart hdoes := by
    refine cut_ends_nil outcome ?_
    rintro s' rfl
    exact hdoes.steps_eq ▸ hstart.1
  repeats line condition inner hnode := by
    subst hnode
    refine (isComposable_cut n).repeatWhile (fun s k _ => cut_ends_nil .unfinished nofun) ?_
      (hbodies inner (List.mem_singleton_self inner)) fuel
    intro s k failure _ _
    exact cut_ends_failed failure

end Comparison

open Comparison in
/-- **A limit cuts a run short** and does not change it otherwise. A run without a limit, or with
one beyond `n`, is compared to the run with the limit `n`: if it begins no more than `n` statements,
both come to the same. If it begins another one, the run with the limit `n` fails at that moment,
in the state that the statement finds and with the trace of the first `n`. -/
theorem Program.run_within_limit (program : Program) (s : State) {n : Nat} {limit : Option Int}
    (hlimit : ∀ bound ∈ limit, (n : Int) < bound) (fuel : Nat) :
    Records { s with steps := 0 } (program.run ⟨limit, fuel⟩ s) (program.moments ⟨limit, fuel⟩ s) ∧
    ((program.moments ⟨limit, fuel⟩ s).length ≤ n →
      program.run ⟨some n, fuel⟩ s =
        (program.run ⟨limit, fuel⟩ s).counted (program.moments ⟨limit, fuel⟩ s).length) ∧
    ∀ next, (program.moments ⟨limit, fuel⟩ s)[n]? = some next →
      ∃ d s', program.run ⟨some n, fuel⟩ s = .failed (.diagnosed d) s' ∧
        d.cause.family = .runtime ∧
        d.cause.message = "Step limit exceeded (possible infinite loop)" ∧
        d.row = next.line ∧
        s' = { next.state with steps := n + 1 } ∧
        s'.trace =
          s.trace ++ ((program.moments ⟨limit, fuel⟩ s).take n).map Moment.traceLine := by
  have hrecords := run_records ⟨limit, fuel⟩ program s
  have hcut : CutShort n { s with steps := 0 } 0 (program.run ⟨limit, fuel⟩ s)
      (program.run ⟨some n, fuel⟩ s) (program.moments ⟨limit, fuel⟩ s) := by
    refine run_relates (isComposable_cut n) ?_ ?_ ?_ s ⟨Nat.le_refl 0, Nat.zero_le n⟩
    · intro top s k _
      exact cut_ends_failed (.onLine .nestedTooDeeplyToRun top)
    · intro node _
      exact cut_relates_begin hlimit node.line node.form
    · intro node _ top room hbodies
      exact cut_covers hbodies
  refine ⟨hrecords, fun hlength => ?_, fun next hnext => ?_⟩
  · rw [← Nat.zero_add (program.moments ⟨limit, fuel⟩ s).length] at hlength ⊢
    exact (hcut.within hlength).1
  · exact ⟨_, _, hcut.beyond n next hnext (Nat.zero_add n), rfl, rfl, rfl, rfl,
      hrecords.trace_moment_eq n next hnext⟩

/-- A loop without an end is cut short, a run of as many statements as the limit allows is not. -/
theorem Program.run_within_limit_of_loops :
    ∃ endless counting,
      ofLines ["while 1 = 1:", "\tlet x := x + 1"] = .ok endless ∧
      ofLines ["for i in 1 .. 2: display i"] = .ok counting ∧
      (∃ d s', endless.run ⟨some 3, 4⟩ (.initial .empty "") = .failed (.diagnosed d) s' ∧
        d.cause.message = "Step limit exceeded (possible infinite loop)" ∧
        d.row = some 1 ∧ s'.steps = 4 ∧
        s'.trace = ["TRACE line 1: While", "TRACE line 2: Assign", "TRACE line 2: Assign"]) ∧
      counting.run ⟨some 3, 0⟩ (.initial .empty "") =
        (counting.run ⟨some 4, 0⟩ (.initial .empty "")).counted 3 := by
  obtain ⟨endless, hendless, hmoment, htrace⟩ :=
    exists_eq_ok_and (ofLines ["while 1 = 1:", "\tlet x := x + 1"])
      (fun program =>
        (program.moments ⟨none, 4⟩ (.initial .empty ""))[3]?.map Moment.line = some (some 1) ∧
        ((program.moments ⟨none, 4⟩ (.initial .empty "")).take 3).map Moment.traceLine =
          ["TRACE line 1: While", "TRACE line 2: Assign", "TRACE line 2: Assign"])
      (by decide +kernel)
  obtain ⟨next, hnext, hline⟩ := Option.map_eq_some_iff.mp hmoment
  obtain ⟨counting, hcounting, hlength⟩ :=
    exists_eq_ok_and (ofLines ["for i in 1 .. 2: display i"])
      (fun program => (program.moments ⟨some 4, 0⟩ (.initial .empty "")).length = 3)
      (by decide +kernel)
  have hthree : ∀ bound ∈ (none : Option Int), ((3 : Nat) : Int) < bound := nofun
  have hfour : ∀ bound ∈ (some 4 : Option Int), ((3 : Nat) : Int) < bound := by
    rintro _ ⟨⟩
    decide
  refine ⟨endless, counting, hendless, hcounting, ?_, ?_⟩
  · obtain ⟨d, s', hrun, -, hmessage, hrow, rfl, hlines⟩ :=
      (run_within_limit endless (.initial .empty "") hthree 4).2.2 next hnext
    exact ⟨d, _, hrun, hmessage, hrow.trans hline, rfl, hlines.trans htrace⟩
  · have hsame :=
      (run_within_limit counting (.initial .empty "") hfour 0).2.1 (Nat.le_of_eq hlength)
    rwa [hlength] at hsame

end Offside

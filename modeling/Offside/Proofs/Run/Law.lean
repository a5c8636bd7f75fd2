import Offside.Proofs.Run.Comparison

/-!
# Laws of runs

A **law** says something of a part of a run: of the state that it begins in, of its outcome and of
its moments. Laws are comparisons of a run with itself, so a composable law that all nodes of a
program keep, each with its own parts, holds of every run of the program (`Program.run_law`): a
claim about all runs comes down to what single nodes do.
-/

namespace Offside

/-- A property of parts of runs: of the state before, the outcome, and the moments. -/
abbrev Law :=
  State → Outcome → List Moment → Prop

/-- A law is **composable** if it holds of doing nothing, and of one thing after another. -/
structure Law.IsComposable (law : Law) : Prop where
  idle : ∀ s, law s (.done s) []
  andThen : ∀ {s s' outcome moments more}, law s (.done s') moments → law s' outcome more →
    law s outcome (moments ++ more)

/-- A node **keeps** a law if the law holds of what the node does by itself and, if it is a loop
that tests a condition, of its rounds. -/
structure Statement.Keeps (law : Law) (fuel : Nat) (body : Body → State → Outcome)
    (moments : Body → State → List Moment) (node : Statement) : Prop where
  does : ∀ {s outcome}, node.Does s outcome → law s outcome []
  repeats : ∀ line condition inner, node = .whileLoop line condition inner →
    ∀ s, law s (Outcome.repeatWhile (fun s => condition.holds s.store) (body inner) fuel s)
      (Moment.repeatWhile (fun s => condition.holds s.store) (body inner) (moments inner) fuel s)

namespace Law

variable {law : Law}

/-- The comparison of a run with itself. -/
def comparison (law : Law) : Comparison where
  Start s k := k = s.steps
  Ends s _ first second moments := second = first ∧ law s first moments

theorem comparison_relates {run : State → Outcome} {moments : State → List Moment} :
    law.comparison.Relates run run moments ↔ ∀ s, law s (run s) (moments s) := by
  constructor
  · intro h s
    exact (h s s.steps rfl).2
  · rintro h s k rfl
    exact ⟨rfl, h s⟩

namespace IsComposable

variable (h : law.IsComposable)

include h

/-- What comes behind an outcome only needs to keep the law where it is done. -/
theorem behind {s : State} {first : Outcome} {moments : List Moment} {next : State → Outcome}
    {more : State → List Moment} (hfirst : law s first moments)
    (hnext : ∀ s', first = .done s' → law s' (next s') (more s')) :
    law s (first.andThen next) (moments ++ Moment.behind first more) := by
  cases first with
  | done s' => exact h.andThen hfirst (hnext s' rfl)
  | failed failure s' => exact (List.append_nil moments).symm ▸ hfirst
  | unfinished => exact (List.append_nil moments).symm ▸ hfirst

theorem comparison : law.comparison.IsComposable where
  idle := comparison_relates.mpr h.idle
  behind {s k first second moments next next' more} _ hfirst hnext := by
    obtain ⟨rfl, hfirst⟩ := hfirst
    refine ⟨?_, h.behind hfirst fun s' _ => (hnext s' s'.steps rfl).2⟩
    cases second with
    | done s' => exact (hnext s' s'.steps rfl).1
    | failed | unfinished => rfl

/-- Repetition keeps a law that also holds of giving up. -/
private theorem repeatWhile {condition : Condition} {body : State → Outcome}
    {moments : State → List Moment} (hgiveUp : ∀ s, law s .unfinished [])
    (hfailure : ∀ s failure, condition.holds s.store = .error failure →
      law s (.failed failure s) [])
    (hbody : ∀ s, law s (body s) (moments s)) (fuel : Nat) (s : State) :
    law s (Outcome.repeatWhile (fun s => condition.holds s.store) body fuel s)
      (Moment.repeatWhile (fun s => condition.holds s.store) body moments fuel s) := by
  refine comparison_relates.mp ?_ s
  refine h.comparison.repeatWhile (comparison_relates.mpr hgiveUp) ?_
    (comparison_relates.mpr hbody) fuel
  rintro s k failure rfl hs
  exact ⟨rfl, hfailure s failure hs⟩

/-- A node keeps a law that holds of giving up and of what the node does by itself, where its bodies
keep the law. -/
theorem keeps {fuel : Nat} {body : Body → State → Outcome} {moments : Body → State → List Moment}
    {node : Statement} (hgiveUp : ∀ s, law s .unfinished [])
    (hdoes : ∀ {s outcome}, node.Does s outcome → law s outcome [])
    (hbodies : ∀ inner ∈ node.bodies, ∀ s, law s (body inner s) (moments inner s)) :
    node.Keeps law fuel body moments where
  does := hdoes
  repeats line condition inner hnode := by
    subst hnode
    refine h.repeatWhile hgiveUp ?_ (hbodies inner (List.mem_singleton_self inner)) fuel
    intro s failure hfailure
    exact hdoes (.holds (List.mem_singleton_self condition) hfailure)

end IsComposable

/-- The comparison of a law covers the nodes that keep the law. -/
theorem comparison_covers {fuel : Nat} {body : Body → State → Outcome}
    {moments : Body → State → List Moment} {node : Statement}
    (h : node.Keeps law fuel body moments) :
    law.comparison.Covers fuel fuel body body moments node where
  does {s k outcome} hstart hdoes := by
    cases hstart
    exact ⟨hdoes.counted_eq, h.does hdoes⟩
  repeats line condition inner hnode :=
    comparison_relates.mpr (h.repeats line condition inner hnode)

end Law

/-- **Runs of a program keep a law** that all nodes of the program keep. -/
theorem Program.run_law {law : Law} (h : law.IsComposable) {bounds : Bounds} {program : Program}
    (hdeep : ∀ top s, law s (.failed (.onLine .nestedTooDeeplyToRun top) s) [])
    (hbegin : ∀ node ∈ program.nodes, ∀ s,
      law s (s.begin bounds.limit node.line node.form)
        (Moment.begin bounds.limit node.line node.form s))
    (hkeeps : ∀ node ∈ program.nodes, ∀ top room,
      (∀ inner ∈ node.bodies, ∀ s,
        law s (inner.run bounds top room s) (inner.moments bounds top room s)) →
      node.Keeps law bounds.fuel (Body.run bounds top room) (Body.moments bounds top room))
    (s : State) :
    law { s with steps := 0 } (program.run bounds s) (program.moments bounds s) := by
  have hboth : law.comparison.Ends { s with steps := 0 } 0 (program.run bounds s)
      (program.run bounds s) (program.moments bounds s) := by
    refine run_relates h.comparison (fun top => Law.comparison_relates.mpr (hdeep top)) ?_ ?_ s rfl
    · intro node hnode
      exact Law.comparison_relates.mpr (hbegin node hnode)
    · intro node hnode top room hbodies
      refine Law.comparison_covers (hkeeps node hnode top room fun inner hinner => ?_)
      exact Law.comparison_relates.mp (hbodies inner hinner)
  exact hboth.2

end Offside

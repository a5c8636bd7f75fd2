import Offside.Proofs.Run.Law

/-!
# The input of a run

A run takes its input from the front, line by line, and puts nothing back: what it leaves of the
input is an end of what it found (`Program.input_suffix_of_run`).
-/

namespace Offside

variable {s s' : State} {outcome : Outcome}

/-- What is left of the input when a line is taken. -/
private theorem Text.takeLine_snd_suffix (cs : List Char) : (takeLine cs).2 <:+ cs :=
  ⟨(takeLine cs).1, takeLine_append cs⟩

/-- The law that the input is taken from the front. -/
def Law.takesFromFront : Law :=
  fun s outcome _ => ∀ s', outcome.state? = some s' → s'.input <:+ s.input

namespace Law

/-- To take input from the front is a law of runs that are put together. -/
private theorem isComposable_takesFromFront : takesFromFront.IsComposable where
  idle s := by
    rintro _ ⟨⟩
    exact List.suffix_rfl
  andThen hfirst hnext s'' hs'' := (hnext s'' hs'').trans (hfirst _ rfl)

/-- What leaves the input alone keeps the law. -/
private theorem takesFromFront_of_input_eq
    (h : ∀ s', outcome.state? = some s' → s'.input = s.input) :
    takesFromFront s outcome [] :=
  fun s' hs' => h s' hs' ▸ List.suffix_rfl

end Law

namespace State

private theorem takesFromFront_begin (limit line : Option Int) (form : Form) (s : State) :
    Law.takesFromFront s (s.begin limit line form) (Moment.begin limit line form s) := by
  intro s' hs'
  unfold begin at hs'
  split at hs'
  · cases hs'
    exact List.suffix_rfl
  · split at hs' <;> cases hs' <;> exact List.suffix_rfl

private theorem takesFromFront_display (value : Int) (s : State) :
    Law.takesFromFront s (s.display value) [] := by
  refine Law.takesFromFront_of_input_eq fun s' hs' => ?_
  unfold display at hs'
  split at hs' <;> cases hs' <;> rfl

/-- Asking takes one line, whatever stands on it. -/
private theorem takesFromFront_ask (line : Option Int) (name : String) (s : State) :
    Law.takesFromFront s (s.ask line name) [] := by
  have htaken : (Text.takeLine s.input).2 <:+ s.input := Text.takeLine_snd_suffix s.input
  intro s' hs'
  unfold ask at hs'
  dsimp only at hs'
  split at hs'
  · cases hs'
    exact htaken
  · split at hs'
    · cases hs'
      exact htaken
    · split at hs' <;> cases hs' <;> exact htaken

end State

/-- What a node does by itself takes nothing, unless it asks. -/
private theorem Statement.Does.takesFromFront {node : Statement} (h : node.Does s outcome) :
    Law.takesFromFront s outcome [] := by
  cases h with
  | value | holds | put | misplaced =>
    refine Law.takesFromFront_of_input_eq ?_
    rintro _ ⟨⟩
    rfl
  | display value => exact s.takesFromFront_display value
  | ask => exact s.takesFromFront_ask _ _

/-- **Runs take their input from the front.** -/
theorem Program.input_suffix_of_run {bounds : Bounds} {program : Program}
    (h : (program.run bounds s).state? = some s') : s'.input <:+ s.input := by
  refine run_law Law.isComposable_takesFromFront ?_ ?_ ?_ s s' h
  · intro top s
    refine Law.takesFromFront_of_input_eq ?_
    rintro _ ⟨⟩
    rfl
  · intro node _ s
    exact s.takesFromFront_begin bounds.limit node.line node.form
  · intro node _ top room hbodies
    refine Law.isComposable_takesFromFront.keeps ?_ (fun hdoes => hdoes.takesFromFront) hbodies
    rintro s _ ⟨⟩

end Offside

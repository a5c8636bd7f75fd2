import Offside.Proofs.Run.Law

/-!
# The history of a run

A run writes down what happens as it goes, and takes nothing back. So its moments can be found
again in its log: the trace of a run is one line for each of its moments, in their order, a
statement finds the trace of the moments before its own, and all that was logged by then is still
logged at the end (`Program.run_records`).
-/

namespace Offside

variable {s s' : State} {outcome : Outcome} {moments more : List Moment}

/-- A part of a run **records** its moments. -/
structure Records (s : State) (outcome : Outcome) (moments : List Moment) : Prop where
  /-- Nothing that is logged is taken back. -/
  grows : ∀ s', outcome.state? = some s' → s.log <:+ s'.log
  /-- Each moment makes its line in the trace, and nothing else does. -/
  trace_eq : ∀ s', outcome.state? = some s' → s'.trace = s.trace ++ moments.map Moment.traceLine
  /-- At each moment there are the lines of the moments before. -/
  trace_moment_eq : ∀ i moment, moments[i]? = some moment →
    moment.state.trace = s.trace ++ (moments.take i).map Moment.traceLine
  /-- Each moment is gone through on the way. -/
  passed : ∀ moment ∈ moments, ∀ s', outcome.state? = some s' →
    moment.event :: moment.state.log <:+ s'.log

namespace State

private theorem trace_record (event : Event) (s : State) :
    (s.record event).trace = s.trace ++ event.trace?.toList := by
  simp only [trace, events, record, List.reverse_cons, List.filterMap_append]
  cases h : event.trace? <;> simp [h]

/-- The trace goes by the log alone. -/
theorem trace_congr (h : s'.log = s.log) : s'.trace = s.trace := by
  rw [trace, trace, events, events, h]

end State

/-- What adds no more than an event without a line in the trace has no moments to record. -/
private theorem Records.of_log_eq (hstate : ∀ s', outcome.state? = some s' →
    s'.log = s.log ∨ ∃ event, event.trace? = none ∧ s'.log = event :: s.log) :
    Records s outcome [] where
  grows s' hs' := by
    obtain h | ⟨event, -, h⟩ := hstate s' hs'
    · exact h ▸ List.suffix_rfl
    · exact h ▸ List.suffix_cons event s.log
  trace_eq s' hs' := by
    rw [List.map_nil, List.append_nil]
    obtain h | ⟨event, hevent, h⟩ := hstate s' hs'
    · exact State.trace_congr h
    · have hrecord : s'.trace = (s.record event).trace := State.trace_congr h
      rw [hrecord, State.trace_record, hevent, Option.toList_none, List.append_nil]
  trace_moment_eq i moment h := by cases h
  passed moment h := by cases h

/-- What a node does by itself is not the beginning of a statement. -/
private theorem Statement.Does.records {node : Statement} (h : node.Does s outcome) :
    Records s outcome [] := by
  obtain ⟨s₁, hs₁, hlog⟩ := h.exists_state
  refine .of_log_eq fun s' hs' => ?_
  obtain rfl := Option.some.inj (hs₁.symm.trans hs')
  exact hlog

/-- A statement that begins is a moment. -/
private theorem State.records_begin (limit line : Option Int) (form : Form) (s : State) :
    Records s (s.begin limit line form) (Moment.begin limit line form s) := by
  have hbegun : ∀ steps, Records s (.done ({ s with steps }.record (.started line form)))
      [⟨line, form, s⟩] := by
    intro steps
    refine ⟨?_, ?_, ?_, ?_⟩
    · rintro _ ⟨⟩
      exact List.suffix_cons _ s.log
    · rintro _ ⟨⟩
      exact trace_record (.started line form) { s with steps }
    · intro i moment hmoment
      cases i with
      | zero =>
        cases hmoment
        exact (List.append_nil _).symm
      | succ i => cases hmoment
    · rintro moment hmoment _ ⟨⟩
      rw [List.mem_singleton.mp hmoment]
      exact List.suffix_rfl
  unfold Moment.begin begin
  cases limit with
  | none => exact hbegun s.steps
  | some bound =>
    dsimp only
    split
    · exact hbegun (s.steps + 1)
    · refine .of_log_eq ?_
      rintro _ ⟨⟩
      exact .inl rfl

private theorem isComposable_records : Law.IsComposable Records where
  idle s := .of_log_eq (by rintro _ ⟨⟩; exact .inl rfl)
  andThen {s s' outcome moments more} hfirst hnext := by
    have htrace := hfirst.trace_eq s' rfl
    refine ⟨?_, ?_, ?_, ?_⟩
    · intro s'' hs''
      exact (hfirst.grows s' rfl).trans (hnext.grows s'' hs'')
    · intro s'' hs''
      rw [hnext.trace_eq s'' hs'', htrace, List.map_append, List.append_assoc]
    · intro i moment hmoment
      rcases Nat.lt_or_ge i moments.length with hi | hi
      · rw [List.getElem?_append_left hi] at hmoment
        rw [List.take_append_of_le_length (Nat.le_of_lt hi),
          hfirst.trace_moment_eq i moment hmoment]
      · rw [List.getElem?_append_right hi] at hmoment
        rw [hnext.trace_moment_eq _ moment hmoment, htrace, List.take_append,
          List.take_of_length_le hi, List.map_append, List.append_assoc]
    · intro moment hmoment s'' hs''
      rcases List.mem_append.mp hmoment with hmoment | hmoment
      · exact (hfirst.passed moment hmoment s' rfl).trans (hnext.grows s'' hs'')
      · exact hnext.passed moment hmoment s'' hs''

/-- **Runs record their moments.** -/
theorem Program.run_records (bounds : Bounds) (program : Program) (s : State) :
    Records { s with steps := 0 } (program.run bounds s) (program.moments bounds s) := by
  refine run_law isComposable_records ?_ ?_ ?_ s
  · intro top s
    refine .of_log_eq ?_
    rintro _ ⟨⟩
    exact .inl rfl
  · intro node _ s
    exact s.records_begin bounds.limit node.line node.form
  · intro node _ top room hbodies
    refine isComposable_records.keeps ?_ (fun hdoes => hdoes.records) hbodies
    intro s
    exact .of_log_eq (by rintro _ ⟨⟩)

end Offside

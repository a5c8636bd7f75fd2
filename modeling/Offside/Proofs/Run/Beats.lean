import Offside.Proofs.Run.History

/-!
# The beats of a run

A run is a row of **beats**: in each of them a statement begins, in a certain state, and does what
it does by itself, before or after the beats of the statements inside it. A statement logs no more
than its beginning, the variable that it asks for, and the value that it displays, and all of it
before any further beat. So the log of a run is told from its beats (`Program.exists_beats`):
whatever there is to see of a run is put together from what there is to see of its beats, one after
another.
-/

namespace Offside

/-- A **beat** of a run: a statement that begins, and the state that it finds. -/
structure Beat where
  node : Statement
  state : State

namespace Beat

/-- The moment at which a beat begins. -/
def moment (beat : Beat) : Moment :=
  ⟨beat.node.line, beat.node.form, beat.state⟩

/-- The variable that is asked for in a beat. -/
def asked? (beat : Beat) : Option String :=
  match beat.node with
  | .input _ name => some name
  | _ => none

/-- The value that is displayed in a beat: that of an expression, if it has one and that can be
written. -/
def displayed? (beat : Beat) : Option Int :=
  match beat.node with
  | .display _ e =>
    (e.value beat.state.store).toOption.filter fun value => (Numeral.write value).isOk
  | _ => none

/-- What is logged in a beat behind its beginning. -/
def deeds (beat : Beat) : List Event :=
  beat.asked?.toList.map .asked ++ beat.displayed?.toList.map .displayed

/-- What is logged in a beat. -/
def events (beat : Beat) : List Event :=
  beat.moment.event :: beat.deeds

end Beat

/-- A part of a run **goes through** beats of the given nodes, when certain deeds come first, which
belong to a beat that has begun before. -/
structure GoesThrough (nodes : List Statement) (deeds : List Event) (s : State) (outcome : Outcome)
    (moments : List Moment) (beats : List Beat) : Prop where
  node_mem : ∀ beat ∈ beats, beat.node ∈ nodes
  moments_eq : beats.map Beat.moment = moments
  /-- At the end the deeds and the beats are logged. -/
  events_eq : ∀ s', outcome.state? = some s' →
    s'.events = s.events ++ deeds ++ beats.flatMap Beat.events
  /-- A beat finds the deeds and the beats before it logged. -/
  before_eq : ∀ i beat, beats[i]? = some beat →
    beat.state.events = s.events ++ deeds ++ (beats.take i).flatMap Beat.events

namespace GoesThrough

variable {nodes : List Statement} {deeds : List Event} {s s' : State} {outcome : Outcome}
  {moments more : List Moment} {beats others : List Beat}

/-- There need be no beats. -/
private theorem nil (h : ∀ s', outcome.state? = some s' → s'.events = s.events ++ deeds) :
    GoesThrough nodes deeds s outcome [] [] where
  node_mem := List.forall_mem_nil _
  moments_eq := rfl
  events_eq s' hs' := by rw [h s' hs', List.flatMap_nil, List.append_nil]
  before_eq i beat h := by cases h

/-- Beats that are gone through one row after another. -/
private theorem append (h : GoesThrough nodes deeds s (.done s') moments beats)
    (hmore : GoesThrough nodes [] s' outcome more others) :
    GoesThrough nodes deeds s outcome (moments ++ more) (beats ++ others) where
  node_mem := List.forall_mem_append.mpr ⟨h.node_mem, hmore.node_mem⟩
  moments_eq := by rw [List.map_append, h.moments_eq, hmore.moments_eq]
  events_eq s'' hs'' := by
    rw [hmore.events_eq s'' hs'', h.events_eq s' rfl, List.append_nil, List.flatMap_append,
      List.append_assoc]
  before_eq i beat hbeat := by
    rcases Nat.lt_or_ge i beats.length with hi | hi
    · rw [List.getElem?_append_left hi] at hbeat
      rw [List.take_append_of_le_length (Nat.le_of_lt hi)]
      exact h.before_eq i beat hbeat
    · rw [List.getElem?_append_right hi] at hbeat
      rw [hmore.before_eq _ beat hbeat, h.events_eq s' rfl, List.append_nil, List.take_append,
        List.take_of_length_le hi, List.flatMap_append, List.append_assoc]

/-- A beat that begins has its deeds and the beats inside it behind it. -/
private theorem cons {beat : Beat} (hnode : beat.node ∈ nodes)
    (hbegun : s.events = beat.state.events ++ [beat.moment.event])
    (h : GoesThrough nodes beat.deeds s outcome moments beats) :
    GoesThrough nodes [] beat.state outcome (beat.moment :: moments) (beat :: beats) where
  node_mem := List.forall_mem_cons.mpr ⟨hnode, h.node_mem⟩
  moments_eq := by rw [List.map_cons, h.moments_eq]
  events_eq s' hs' := by
    rw [h.events_eq s' hs', hbegun]
    simp [Beat.events]
  before_eq i next hnext := by
    cases i with
    | zero =>
      cases hnext
      simp
    | succ i =>
      rw [List.getElem?_cons_succ] at hnext
      rw [h.before_eq i next hnext, hbegun]
      simp [Beat.events]

end GoesThrough

/-- The law that a part of a run goes through beats of the given nodes. -/
def Law.inBeats (nodes : List Statement) : Law :=
  fun s outcome moments => ∃ beats, GoesThrough nodes [] s outcome moments beats

variable {nodes : List Statement}

private theorem Law.isComposable_inBeats (nodes : List Statement) :
    (inBeats nodes).IsComposable where
  idle s := by
    refine ⟨[], .nil ?_⟩
    rintro _ ⟨⟩
    exact (List.append_nil _).symm
  andThen := by
    rintro s s' outcome moments more ⟨beats, hbeats⟩ ⟨others, hothers⟩
    exact ⟨_, hbeats.append hothers⟩

/-! ### What a statement logs by itself -/

/-- A node that neither displays nor asks logs nothing by itself. -/
private theorem Statement.Does.log_eq {node : Statement} {s s' : State} {outcome : Outcome}
    (h : node.Does s outcome) (hdisplay : ∀ line e, node ≠ .display line e)
    (hinput : ∀ line name, node ≠ .input line name) (hs' : outcome.state? = some s') :
    s'.log = s.log := by
  cases h with
  | value | holds | put | misplaced =>
    cases hs'
    rfl
  | display value hnode => exact absurd hnode (hdisplay _ _)
  | ask hnode => exact absurd hnode (hinput _ _)

/-- Whatever is typed, the log says that it was asked for. -/
private theorem State.log_of_ask {s s' : State} {line : Option Int} {name : String}
    (h : (s.ask line name).state? = some s') : s'.log = .asked name :: s.log := by
  unfold ask at h
  dsimp only at h
  split at h
  · cases h
    rfl
  · split at h
    · cases h
      rfl
    · split at h <;> cases h <;> rfl

/-- A value that is displayed is logged if it can be written. -/
private theorem State.events_of_display {s s' : State} {value : Int}
    (h : (s.display value).state? = some s') :
    s'.events = s.events ++
      ((some value).filter fun value => (Numeral.write value).isOk).toList.map .displayed := by
  unfold display at h
  split at h
  · next hwrite =>
    cases h
    rw [Option.filter_some_neg (by simp [hwrite, Except.isOk, Except.toBool])]
    exact (List.append_nil _).symm
  · next hwrite =>
    cases h
    rw [Option.filter_some_pos (by simp [hwrite, Except.isOk, Except.toBool])]
    exact List.reverse_cons

/-- What a statement does once it has begun are its deeds, and the beats inside it. -/
private theorem Statement.exists_beats_of_act (fuel : Nat) {body : Body → State → Outcome}
    {moments : Body → State → List Moment} {node : Statement}
    (hbodies : ∀ inner ∈ node.bodies, ∀ s, Law.inBeats nodes s (body inner s) (moments inner s))
    (s begun : State) (hstore : begun.store = s.store) :
    ∃ beats, GoesThrough nodes (Beat.mk node s).deeds begun (node.act fuel body begun)
      (node.actMoments fuel body moments begun) beats := by
  by_cases hinput : ∃ line name, node = .input line name
  · obtain ⟨line, name, rfl⟩ := hinput
    refine ⟨[], .nil fun s' hs' => ?_⟩
    rw [State.events, State.log_of_ask hs']
    exact List.reverse_cons
  by_cases hdisplay : ∃ line e, node = .display line e
  · obtain ⟨line, e, rfl⟩ := hdisplay
    refine ⟨[], .nil fun s' hs' => ?_⟩
    have hdeeds : (Beat.mk (.display line e) s).deeds =
        ((e.value s.store).toOption.filter fun value =>
          (Numeral.write value).isOk).toList.map .displayed := rfl
    rw [act, hstore] at hs'
    rw [hdeeds]
    cases hvalue : e.value s.store with
    | error failure =>
      simp only [hvalue, State.given] at hs'
      cases hs'
      exact (List.append_nil _).symm
    | ok value =>
      simp only [hvalue, State.given] at hs'
      exact State.events_of_display hs'
  · have hdeeds : (Beat.mk node s).deeds = [] := by
      cases node with
      | input line name => exact absurd ⟨line, name, rfl⟩ hinput
      | display line e => exact absurd ⟨line, e, rfl⟩ hdisplay
      | assign | branch | whileLoop | forLoop | block | misplaced => rfl
    rw [hdeeds]
    have hlaw := Law.isComposable_inBeats nodes
    have hkeeps : node.Keeps (Law.inBeats nodes) fuel body moments := by
      refine hlaw.keeps (fun s => ⟨[], .nil nofun⟩) (fun {s outcome} hdoes => ?_) hbodies
      refine ⟨[], .nil fun s' hs' => ?_⟩
      rw [State.events, hdoes.log_eq (fun line e h => hdisplay ⟨line, e, h⟩)
        (fun line name h => hinput ⟨line, name, h⟩) hs', List.append_nil]
      rfl
    have hact := act_relates hlaw.comparison (Law.comparison_covers hkeeps) fun inner hinner =>
      Law.comparison_relates.mpr (hbodies inner hinner)
    exact Law.comparison_relates.mp hact begun

/-! ### Runs -/

/-- A statement begins, or it is the one too many. -/
theorem State.begin_cases (limit line : Option Int) (form : Form) (s : State) :
    (∃ steps, s.begin limit line form = .done ({ s with steps }.record (.started line form))) ∨
      s.begin limit line form =
        .failed (.onLine .stepLimit line) { s with steps := s.steps + 1 } := by
  cases limit with
  | none => exact .inl ⟨s.steps, rfl⟩
  | some bound =>
    by_cases hroom : (s.steps : Int) + 1 ≤ bound
    · exact .inl ⟨s.steps + 1, if_pos hroom⟩
    · exact .inr (if_neg hroom)

private theorem Statement.inBeats_run (bounds : Bounds) (top : Option Int) (room : Nat)
    {statement : Statement} (hnodes : ∀ node ∈ statement.nodes, node ∈ nodes) (s : State) :
    Law.inBeats nodes s (statement.run bounds top room s)
      (statement.moments bounds top room s) := by
  have hlaw := Law.isComposable_inBeats nodes
  induction room generalizing statement s with
  | zero =>
    refine ⟨[], .nil ?_⟩
    rintro _ ⟨⟩
    exact (List.append_nil _).symm
  | succ room ih =>
    have hbodies : ∀ inner ∈ statement.bodies, ∀ s, Law.inBeats nodes s
        (inner.run bounds top room s) (inner.moments bounds top room s) := by
      intro inner hinner
      refine Law.comparison_relates.mp (hlaw.comparison.sequence fun item hitem => ?_)
      refine Law.comparison_relates.mpr fun s => ih (fun node hnode => ?_) s
      exact hnodes node (mem_nodes_of_mem_body hinner hitem hnode)
    rw [run_succ, moments_succ, Moment.begin]
    rcases s.begin_cases bounds.limit statement.line statement.form with ⟨steps, hbegin⟩ | hbegin
    · obtain ⟨beats, hbeats⟩ := exists_beats_of_act bounds.fuel hbodies s
        ({ s with steps }.record (.started statement.line statement.form)) rfl
      rw [hbegin]
      refine ⟨⟨statement, s⟩ :: beats, .cons (hnodes statement List.mem_cons_self) ?_ hbeats⟩
      exact List.reverse_cons
    · rw [hbegin]
      refine ⟨[], .nil ?_⟩
      rintro _ ⟨⟩
      exact (List.append_nil _).symm

/-- **A run goes through beats** of the nodes of its program, one at each of its moments. -/
theorem Program.exists_beats (bounds : Bounds) (program : Program) (s : State) :
    ∃ beats, GoesThrough program.nodes [] { s with steps := 0 } (program.run bounds s)
      (program.moments bounds s) beats := by
  have hlaw := Law.isComposable_inBeats program.nodes
  refine Law.comparison_relates.mp (hlaw.comparison.sequence fun statement hstatement => ?_) _
  refine Law.comparison_relates.mpr fun s => ?_
  refine statement.inBeats_run bounds statement.line runningLimit (fun node hnode => ?_) s
  exact Statement.mem_nodesOf.mpr ⟨statement, hstatement, hnode⟩

end Offside

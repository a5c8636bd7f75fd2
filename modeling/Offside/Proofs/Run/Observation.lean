import Offside.Console
import Offside.Proofs.Run.Beats
import Offside.Proofs.Run.Places
import Offside.Proofs.Run.Simulation

/-!
# Runs that are observed

A run logs all that happens, and what the user gets to see of it is a view of the log. It might as
well be shown as it happens: `Program.runShowing` asks at each event whether the view shows it, and
writes down no more than that. Neither the state of the run nor its end goes by what is shown, so
such a run keeps pace with the run that logs everything, whatever the view, and writes what the view
shows of the log in the end.

Together with the beats of the run this gives both streams (`Program.run_showing`): the trace has a
line for each beat, and the output the text of each beat, with a prompt in front of it where the
beat asks for a variable.
-/

namespace Offside

/-! ### Showing events as they happen -/

/-- Whether a view shows an event. -/
def View.shows (view : View) : Event → Bool
  | .started .. => view.trace
  | .asked _ => view.prompts
  | .displayed _ => true

namespace State

/-- Writes an event down if the view shows it. -/
def note (view : View) (event : Event) (s : State) : State :=
  if view.shows event then s.record event else s

/-- Counts a statement, if there is a limit. It may be one too many. -/
def count (limit line : Option Int) (s : State) : Outcome :=
  match limit with
  | none => .done s
  | some bound =>
    if (s.steps : Int) + 1 ≤ bound then .done { s with steps := s.steps + 1 }
    else .failed (.onLine .stepLimit line) { s with steps := s.steps + 1 }

/-- Begins a statement: counts it, and then shows that it begins. -/
def beginShowing (view : View) (limit line : Option Int) (form : Form) (s : State) : Outcome :=
  (s.count limit line).andThen fun s => .done (s.note view (.started line form))

/-- Takes a line of the input for a variable that has been asked for. -/
def read (line : Option Int) (name : String) (s : State) : Outcome :=
  let typed := (Text.takeLine s.input).1
  let s := { s with input := (Text.takeLine s.input).2 }
  if typed.isEmpty then .failed (.onLine (.noInput name) line) s
  else
    let text := Text.trim typed
    match Numeral.signed? text with
    | none => .failed (.onLine (.illegalInput (.ofList text) name) line) s
    | some (negative, digits) =>
      match Numeral.read digits with
      | .error b => .failed (.broken b) s
      | .ok magnitude => .done (s.put name (Numeral.withSign negative magnitude))

/-- Asks for a variable: shows the prompt, and then takes a line of the input. -/
def askShowing (view : View) (line : Option Int) (name : String) (s : State) : Outcome :=
  (s.note view (.asked name)).read line name

end State

/-- What a statement does once it has begun, in a run that shows what happens. -/
def Statement.actShowing (view : View) (fuel : Nat) (body : Body → State → Outcome) :
    Statement → State → Outcome
  | .input line name => State.askShowing view line name
  | statement => statement.act fuel body

/-- Runs a statement, and shows what happens. -/
def Statement.runShowing (view : View) (bounds : Bounds) (top : Option Int) :
    Nat → Statement → State → Outcome
  | 0, _, s => .failed (.onLine .nestedTooDeeplyToRun top) s
  | room + 1, statement, s =>
    let body (inner : Body) : State → Outcome :=
      Outcome.sequence (Statement.runShowing view bounds top room) inner.statements
    (s.beginShowing view bounds.limit statement.line statement.form).andThen
      (statement.actShowing view bounds.fuel body)

/-- Runs a program, and shows what happens. -/
def Program.runShowing (view : View) (bounds : Bounds) (program : Program) (s : State) : Outcome :=
  Outcome.sequence (fun statement => statement.runShowing view bounds statement.line runningLimit)
    program.statements { s with steps := 0 }

/-! ### Showing keeps pace with logging -/

/-- The second log is what the view shows of the first. -/
def View.Shown (view : View) (log log' : List Event) : Prop :=
  log' = log.filter view.shows

open Outcome (KeepPace)

section Pace

variable {view : View} {s s' : State}

private theorem State.Related.note (h : s.Related Eq view.Shown s') (event : Event) :
    (s.record event).Related Eq view.Shown (s'.note view event) := by
  have hlog : s'.log = s.log.filter view.shows := h.log
  unfold State.note
  split
  · next hshows =>
    refine ⟨h.store, h.input, h.steps, ?_⟩
    exact (congrArg (event :: ·) hlog).trans (List.filter_cons_of_pos hshows).symm
  · next hshows =>
    exact ⟨h.store, h.input, h.steps, hlog.trans (List.filter_cons_of_neg hshows).symm⟩

private theorem State.keepPace_beginShowing (view : View) (limit line : Option Int) (form : Form) :
    KeepPace (State.Related Eq view.Shown) (State.begin limit line form)
      (State.beginShowing view limit line form) := by
  intro s s' h
  have hsteps : ∀ n, State.Related Eq view.Shown { s with steps := n } { s' with steps := n } :=
    fun n => ⟨h.store, h.input, rfl, h.log⟩
  cases limit with
  | none => exact .done (h.note _)
  | some bound =>
    unfold State.begin State.beginShowing State.count
    dsimp only
    rw [h.steps]
    split
    · exact .done ((hsteps _).note _)
    · exact .failed rfl (hsteps _)

/-- Asking logs the prompt before the line is taken. -/
private theorem State.ask_eq (s : State) (line : Option Int) (name : String) :
    s.ask line name = (s.record (.asked name)).read line name :=
  rfl

private theorem State.keepPace_askShowing (view : View) (line : Option Int) (name : String) :
    KeepPace (State.Related Eq view.Shown) (State.ask line name)
      (State.askShowing view line name) := by
  intro s s' h
  rw [State.ask_eq, State.askShowing]
  have hasked := h.note (.asked name)
  generalize s.record (.asked name) = asked at hasked
  generalize s'.note view (.asked name) = asked' at hasked
  have htaken : State.Related Eq view.Shown { asked with input := (Text.takeLine asked.input).2 }
      { asked' with input := (Text.takeLine asked.input).2 } :=
    ⟨hasked.store, rfl, hasked.steps, hasked.log⟩
  unfold State.read
  dsimp only
  rw [hasked.input]
  split
  · exact .failed rfl htaken
  · split
    · exact .failed rfl htaken
    · split
      · exact .failed rfl htaken
      · exact .done (htaken.put (congrArg (Store.put · _ _) htaken.store))

/-- Every node computes the same in the same store. -/
private theorem Statement.respects_eq (node : Statement) : node.Respects Eq where
  exprs e _ _ _ h := congrArg e.value h.symm
  conditions condition _ _ _ h := congrArg condition.holds h.symm
  target name _ value _ _ h := congrArg (Store.put · name value) h

private theorem Statement.keepPace_actShowing (view : View) {fuel : Nat}
    {body body' : Body → State → Outcome} {node : Statement}
    (hbodies : ∀ inner ∈ node.bodies,
      KeepPace (State.Related Eq view.Shown) (body inner) (body' inner)) :
    KeepPace (State.Related Eq view.Shown) (node.act fuel body)
      (node.actShowing view fuel body') := by
  have hdisplayed : ∀ value, (Event.displayed value).Extends view.Shown := by
    intro value log log' h
    exact (congrArg (Event.displayed value :: ·) h).trans (List.filter_cons_of_pos rfl).symm
  have hother : (∀ line name, node ≠ .input line name) →
      KeepPace (State.Related Eq view.Shown) (node.act fuel body) (node.act fuel body') :=
    node.respects_eq.keepPace_act_of_ne hdisplayed hbodies
  cases node with
  | input line name => exact State.keepPace_askShowing view line name
  | assign | display | branch | whileLoop | forLoop | block | misplaced => exact hother nofun

private theorem Statement.keepPace_runShowing (view : View) (bounds : Bounds) (top : Option Int)
    (room : Nat) (statement : Statement) :
    KeepPace (State.Related Eq view.Shown) (statement.run bounds top room)
      (statement.runShowing view bounds top room) := by
  induction room generalizing statement with
  | zero => exact fun s s' h => .failed rfl h
  | succ room ih =>
    refine (State.keepPace_beginShowing view _ _ _).andThen (keepPace_actShowing view ?_)
    intro inner _
    exact KeepPace.sequence fun item _ => ih item

/-- **Showing keeps pace with logging**: a run that shows what happens goes on and ends as the run
that logs everything, and writes down what the view shows of the log. -/
theorem Program.keepPace_runShowing (view : View) (bounds : Bounds) (program : Program) :
    KeepPace (State.Related Eq view.Shown) (program.run bounds)
      (program.runShowing view bounds) := by
  intro s s' h
  refine KeepPace.sequence (fun statement _ => ?_) _ _ ⟨h.store, h.input, rfl, h.log⟩
  exact statement.keepPace_runShowing view bounds statement.line runningLimit

end Pace

/-! ### What is seen of logs and of beats -/

/-- What an event writes with or without prompts is what it writes if it is shown. -/
private theorem Event.output_eq (view : View) (event : Event) :
    event.output view.prompts = if view.shows event then event.output true else "" := by
  cases event with
  | started => exact (ite_self "").symm
  | asked | displayed => rfl

/-- What the view shows of a log is all that the log writes with or without prompts. -/
private theorem View.output_shown (view : View) (events : List Event) :
    String.join ((events.filter view.shows).map (Event.output true)) =
      String.join (events.map (Event.output view.prompts)) := by
  induction events with
  | nil => rfl
  | cons event events ih =>
    rw [List.map_cons, String.join_cons, Event.output_eq, List.filter_cons, ← ih]
    split
    · rw [List.map_cons, String.join_cons]
    · rw [String.empty_append]

/-- The view shows the whole trace or nothing of it. -/
private theorem View.trace_shown (view : View) (events : List Event) :
    (events.filter view.shows).filterMap Event.trace? =
      if view.trace then events.filterMap Event.trace? else [] := by
  have hevent : ∀ event : Event, (if view.shows event then event.trace? else none) =
      if view.trace then event.trace? else none := by
    intro event
    cases event with
    | started => rfl
    | asked | displayed => exact (ite_self none).trans (ite_self none).symm
  rw [List.filterMap_filter, funext hevent]
  split
  · rfl
  · exact List.filterMap_eq_nil_iff.mpr fun _ _ => rfl

/-- The text of a beat on the output: a prompt, if the beat asks for a variable and prompts are to
be seen, and then a value, if the beat displays one. -/
def Beat.output (prompts : Bool) (beat : Beat) : String :=
  (match beat.asked? with
    | some name => if prompts then "Enter value for " ++ name ++ ": " else ""
    | none => "") ++
  match beat.displayed? with
    | some value => Numeral.render value ++ "\n"
    | none => ""

/-- The beats write their texts one after another. -/
private theorem Beat.output_events (prompts : Bool) (beats : List Beat) :
    String.join ((beats.flatMap Beat.events).map (Event.output prompts)) =
      String.join (beats.map (Beat.output prompts)) := by
  induction beats with
  | nil => rfl
  | cons beat beats ih =>
    have hbeat : String.join (beat.events.map (Event.output prompts)) = beat.output prompts := by
      unfold Beat.events Beat.deeds Beat.output
      cases beat.asked? <;> cases beat.displayed? <;> simp [Event.output, Moment.event]
    rw [List.flatMap_cons, List.map_append, String.join_append, ih, hbeat, List.map_cons,
      String.join_cons]

/-- Each beat makes its line in the trace. -/
private theorem Beat.trace_events (beats : List Beat) :
    (beats.flatMap Beat.events).filterMap Event.trace? =
      beats.map fun beat => beat.moment.traceLine := by
  induction beats with
  | nil => rfl
  | cons beat beats ih =>
    have hbeat : beat.events.filterMap Event.trace? = [beat.moment.traceLine] := by
      unfold Beat.events Beat.deeds
      cases beat.asked? <;> cases beat.displayed? <;> rfl
    rw [List.flatMap_cons, List.filterMap_append, ih, hbeat, List.map_cons, List.singleton_append]

/-! ### The count of statements -/

/-- The law that with a limit each beat is counted, and the statement that is one too many. -/
def Law.countsMoments : Law :=
  fun s outcome moments => ∀ s', outcome.state? = some s' →
    (∀ line, outcome = .failed (.onLine .stepLimit line) s' →
      s'.steps = s.steps + moments.length + 1) ∧
    ((∀ line, outcome ≠ .failed (.onLine .stepLimit line) s') →
      s'.steps = s.steps + moments.length)

private theorem Law.isComposable_countsMoments : countsMoments.IsComposable where
  idle s := by
    rintro _ ⟨⟩
    exact ⟨nofun, fun _ => rfl⟩
  andThen {s s' outcome moments more} hfirst hnext := by
    have hsteps : s'.steps = s.steps + moments.length := (hfirst s' rfl).2 nofun
    intro s'' hs''
    obtain ⟨hover, hwithin⟩ := hnext s'' hs''
    rw [List.length_append, ← Nat.add_assoc, ← hsteps]
    exact ⟨hover, hwithin⟩

/-- Where nothing is counted, the limit is no reason to fail. -/
private theorem Law.countsMoments_of_steps_eq {s : State} {outcome : Outcome}
    (hsteps : ∀ s', outcome.state? = some s' → s'.steps = s.steps)
    (hfailure : ∀ line s', outcome ≠ .failed (.onLine .stepLimit line) s') :
    countsMoments s outcome [] :=
  fun s' hs' => ⟨fun line h => absurd h (hfailure line s'), fun _ => hsteps s' hs'⟩

private theorem Statement.Does.countsMoments {node : Statement} {s : State} {outcome : Outcome}
    (h : node.Does s outcome) : Law.countsMoments s outcome [] := by
  refine Law.countsMoments_of_steps_eq (fun s' hs' => ?_) fun line s' houtcome => ?_
  · have hcounted := h.counted_eq
    cases outcome with
    | done =>
      cases hs'
      exact (congrArg State.steps (Outcome.done.inj hcounted)).symm
    | failed =>
      cases hs'
      exact (congrArg State.steps (Outcome.failed.inj hcounted).2).symm
    | unfinished => cases hs'
  · rw [houtcome] at h
    exact h.cause_ne_stepLimit rfl

/-- **Counting.** With a limit, the count at the end of a run is the number of its moments, and one
more if the limit was passed. -/
theorem Program.countsMoments_run (bound : Int) (fuel : Nat) (program : Program) (s : State) :
    Law.countsMoments { s with steps := 0 } (program.run ⟨some bound, fuel⟩ s)
      (program.moments ⟨some bound, fuel⟩ s) := by
  refine run_law Law.isComposable_countsMoments ?_ ?_ ?_ s
  · intro top s
    refine Law.countsMoments_of_steps_eq ?_ nofun
    rintro _ ⟨⟩
    rfl
  · intro node _ s
    unfold Moment.begin State.begin
    dsimp only
    by_cases hroom : (s.steps : Int) + 1 ≤ bound
    · rw [if_pos hroom]
      rintro _ ⟨⟩
      exact ⟨nofun, fun _ => rfl⟩
    · rw [if_neg hroom]
      rintro _ ⟨⟩
      exact ⟨fun _ _ => rfl, fun hne => absurd rfl (hne node.line)⟩
  · intro node _ top room hbodies
    exact Law.isComposable_countsMoments.keeps (fun _ => nofun) (fun hdoes => hdoes.countsMoments)
      hbodies

/-! ### What is seen of a run -/

/-- What a run that **shows** its beats has come to, when a run that logs everything has come to
`final`: the same store, input and count, and on both streams what the view shows. -/
structure View.Shows (view : View) (beats : List Beat) (final shown : State) : Prop where
  store : shown.store = final.store
  input : shown.input = final.input
  steps : shown.steps = final.steps
  /-- The output has the texts of the beats, with or without prompts. -/
  output : shown.output true = String.join (beats.map (Beat.output view.prompts))
  /-- The trace has one line for each beat, if there is a trace. -/
  trace : shown.trace = if view.trace then beats.map (fun beat => beat.moment.traceLine) else []
  /-- The output is what the view shows of the log. -/
  output_view : shown.output true = final.output view.prompts
  /-- And so is the trace. -/
  trace_view : shown.trace = if view.trace then final.trace else []

private theorem Program.agrees_runShowing (bounds : Bounds) {program : Program} {s : State}
    {beats : List Beat} (hs : s.log = [])
    (hbeats : GoesThrough program.nodes [] { s with steps := 0 } (program.run bounds s)
      (program.moments bounds s) beats) (view : View) :
    (program.run bounds s).Agrees Eq (view.Shows beats) (program.runShowing view bounds s) := by
  have hstart : s.Related Eq view.Shown s := ⟨rfl, rfl, rfl, by rw [View.Shown, hs]; rfl⟩
  refine (program.keepPace_runShowing view bounds s s hstart).imp fun final shown hfinal h => ?_
  have hevents : final.events = beats.flatMap Beat.events := by
    rw [hbeats.events_eq final hfinal, State.events, hs]
    rfl
  have hshown : shown.events = final.events.filter view.shows := by
    rw [State.events, State.events, List.filter_reverse]
    exact congrArg List.reverse h.log
  have houtput : shown.output true = final.output view.prompts := by
    rw [State.output, hshown, View.output_shown, State.output]
  have htrace : shown.trace = if view.trace then final.trace else [] := by
    rw [State.trace, hshown, View.trace_shown, State.trace]
  refine ⟨h.store.symm, h.input, h.steps, ?_, ?_, houtput, htrace⟩
  · rw [houtput, State.output, hevents, Beat.output_events]
  · rw [htrace, State.trace, hevents, Beat.trace_events]

/-- **Observation does not disturb a run.** A run goes through beats, one at each of its moments,
and all that is seen of it is put together from these: whatever the view, a run that shows what
happens as it happens comes to the same as the run that logs everything, and has written the texts
of the beats one after another, with prompts or without, and a line of the trace for each beat, or
none. A beat begins where the texts of the beats before it have been written, so a prompt comes
before the line that is asked for is taken. Two views therefore make no difference but on the stream
on which they differ. With a limit the beats are counted, and the statement that was one too
many. -/
theorem Program.run_showing (bounds : Bounds) (program : Program) (store : Store)
    (input : String) :
    let s := State.initial store input
    ∃ beats : List Beat,
      (∀ beat ∈ beats, beat.node ∈ program.nodes) ∧
      beats.map Beat.moment = program.moments bounds s ∧
      (∀ i beat, beats[i]? = some beat → ∀ prompts, beat.state.output prompts =
        String.join ((beats.take i).map (Beat.output prompts))) ∧
      (∀ view : View, (program.run bounds s).Agrees Eq (view.Shows beats)
        (program.runShowing view bounds s)) ∧
      (∀ view view' : View, (program.runShowing view bounds s).Agrees Eq
        (fun shown shown' => shown'.store = shown.store ∧ shown'.input = shown.input ∧
          shown'.steps = shown.steps ∧
          (view'.prompts = view.prompts → shown'.output true = shown.output true) ∧
          (view'.trace = view.trace → shown'.trace = shown.trace))
        (program.runShowing view' bounds s)) ∧
      ∀ bound final, bounds.limit = some bound → (program.run bounds s).state? = some final →
        (∀ line, program.run bounds s = .failed (.onLine .stepLimit line) final →
          final.steps = beats.length + 1) ∧
        ((∀ line, program.run bounds s ≠ .failed (.onLine .stepLimit line) final) →
          final.steps = beats.length) := by
  intro s
  obtain ⟨beats, hbeats⟩ := program.exists_beats bounds s
  have hagrees := agrees_runShowing bounds rfl hbeats
  refine ⟨beats, hbeats.node_mem, hbeats.moments_eq, fun i beat hbeat prompts => ?_, hagrees,
    fun view view' => ?_, fun bound final hbound hfinal => ?_⟩
  · have hbefore : beat.state.events = (beats.take i).flatMap Beat.events :=
      hbeats.before_eq i beat hbeat
    rw [State.output, hbefore, Beat.output_events]
  · refine ((hagrees view).meet (hagrees view')).imp fun shown shown' _ => ?_
    rintro ⟨final, h, h'⟩
    refine ⟨h'.store.trans h.store.symm, h'.input.trans h.input.symm, h'.steps.trans h.steps.symm,
      fun hprompts => ?_, fun htrace => ?_⟩
    · rw [h'.output, h.output, hprompts]
    · rw [h'.trace, h.trace, htrace]
  · obtain ⟨limit, fuel⟩ := bounds
    cases hbound
    have hlength : beats.length = (program.moments ⟨some bound, fuel⟩ s).length := by
      rw [← hbeats.moments_eq, List.length_map]
    obtain ⟨hover, hwithin⟩ := program.countsMoments_run bound fuel s final hfinal
    rw [Nat.zero_add, ← hlength] at hover hwithin
    exact ⟨hover, hwithin⟩

/-- A run that asks for two values and is given one, seen with prompts and with a trace; and cut
short by a limit. -/
theorem Program.run_showing_of_questions :
    let program : Program := ⟨[.input (some 0) "x", .display (some 1) (.var (some 1) "X"),
      .input (some 2) "y"]⟩
    let s : State := .initial .empty "5\n"
    (∃ shown, (program.runShowing ⟨true, true, false, false⟩ ⟨none, 0⟩ s).state? = some shown ∧
      shown.output true = "Enter value for x: 5\nEnter value for y: " ∧
      shown.trace = ["TRACE line 1: Input", "TRACE line 2: Display", "TRACE line 3: Input"]) ∧
    ∃ (beats : List Beat) (final : State), (program.run ⟨some 2, 0⟩ s).state? = some final ∧
      beats.map Beat.moment = program.moments ⟨some 2, 0⟩ s ∧ final.steps = beats.length + 1 := by
  intro program s
  constructor
  · obtain ⟨beats, -, -, -, hagrees, -, -⟩ := run_showing ⟨none, 0⟩ program .empty "5\n"
    have hview := hagrees ⟨true, true, false, false⟩
    obtain ⟨final, hfinal⟩ := Option.isSome_iff_exists.mp
      (show (program.run ⟨none, 0⟩ s).state?.isSome by decide +kernel)
    obtain ⟨shown, hshown⟩ := Option.isSome_iff_exists.mp
      (show (program.runShowing ⟨true, true, false, false⟩ ⟨none, 0⟩ s).state?.isSome by
        decide +kernel)
    have h := hview.of_state? hfinal hshown
    have hseen : (program.run ⟨none, 0⟩ s).state?.map
        (fun final => (final.output true, final.trace)) =
          some ("Enter value for x: 5\nEnter value for y: ",
            ["TRACE line 1: Input", "TRACE line 2: Display", "TRACE line 3: Input"]) := by
      decide +kernel
    rw [hfinal, Option.map_some, Option.some.injEq, Prod.mk.injEq] at hseen
    exact ⟨shown, hshown, h.output_view.trans hseen.1, h.trace_view.trans hseen.2⟩
  · obtain ⟨beats, -, hmoments, -, -, -, hcounts⟩ := run_showing ⟨some 2, 0⟩ program .empty "5\n"
    obtain ⟨final, hfinal⟩ := Option.isSome_iff_exists.mp
      (show (program.run ⟨some 2, 0⟩ s).state?.isSome by decide +kernel)
    have hfailure : (program.run ⟨some 2, 0⟩ s).failure? = some (.onLine .stepLimit (some 2)) := by
      decide +kernel
    have hrun : program.run ⟨some 2, 0⟩ s = .failed (.onLine .stepLimit (some 2)) final := by
      revert hfinal hfailure
      cases program.run ⟨some 2, 0⟩ s with
      | done s => nofun
      | failed failure s =>
        rintro ⟨⟩ ⟨⟩
        rfl
      | unfinished => nofun
    exact ⟨beats, final, hfinal, hmoments, (hcounts 2 final rfl hfinal).1 _ hrun⟩

end Offside

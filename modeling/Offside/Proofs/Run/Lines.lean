import Offside.Proofs.Run.Faults
import Offside.Proofs.Run.Habit
import Offside.Proofs.Text.Typed

/-!
# The lines that a run takes

The input of a run comes apart into typed lines, and each statement that asks takes one of them, in
order: the first statement that asks takes the first line, and so on, and nothing else takes any.
Of what comes behind the lines that it takes a run knows nothing: other input in its place makes
the same run, which leaves that input instead. Only at the end of the input is there more to know,
where a line is missing, or is cut off before its line feed.

All this is said of a run as a whole (`TakesLines`), since it tells of the same run on other input.
It is a habit of runs, put together from what single statements do (`Program.input_by_lines`).
-/

namespace Offside

/-! ### One line -/

/-- The integer on a line that was typed for a variable, if there was a line. -/
def typedInteger (line : Option Int) (name : String) : Option (List Char) → Except Failure Int
  | none => .error (.onLine (.noInput name) line)
  | some typed =>
    match Numeral.signed? (Text.trim typed) with
    | none => .error (.onLine (.illegalInput (.ofList (Text.trim typed)) name) line)
    | some (negative, digits) =>
      match Numeral.read digits with
      | .error b => .error (.broken b)
      | .ok magnitude => .ok (Numeral.withSign negative magnitude)

/-- What becomes of asking for a variable when `typed` is the line that is typed, if there is one,
and the input behind it is `rest`. -/
def State.answered (line : Option Int) (name : String) (typed : Option (List Char))
    (rest : List Char) (s : State) : Outcome :=
  let asked := { s with input := rest }.record (.asked name)
  match typedInteger line name typed with
  | .error failure => .failed failure asked
  | .ok value => .done (asked.put name value)

/-- Asking takes the first line that is typed. -/
private theorem State.ask_eq_answered (s : State) (line : Option Int) (name : String) :
    s.ask line name = s.answered line name (Text.typedLines s.input).head?
      (Text.typedLines s.input).tail.flatten := by
  unfold ask
  rw [Text.takeLine_eq]
  cases hlines : Text.typedLines s.input with
  | nil => rfl
  | cons typed rest =>
    have hne : typed.isEmpty = false := by
      have hmem : typed ∈ Text.typedLines s.input := hlines ▸ List.mem_cons_self
      simpa using Text.ne_nil_of_mem_typedLines hmem
    simp only [List.headD_cons, hne, answered, typedInteger, List.head?_cons]
    cases Numeral.signed? (Text.trim typed) with
    | none => rfl
    | some number =>
      obtain ⟨negative, digits⟩ := number
      dsimp only
      cases Numeral.read digits <;> rfl

/-- Asking leaves the lines behind the first, whatever stands on that. -/
private theorem State.input_of_ask {s s' : State} {line : Option Int} {name : String}
    (h : (s.ask line name).state? = some s') :
    s'.input = (Text.typedLines s.input).tail.flatten := by
  rw [ask_eq_answered, answered] at h
  split at h <;> cases h <;> rfl

/-- Where the first line is no integer, or there is none, asking fails and sets nothing. -/
private theorem State.ask_of_error {s : State} {line : Option Int} {name : String}
    {failure : Failure}
    (h : typedInteger line name (Text.typedLines s.input).head? = .error failure) :
    ∃ s', s.ask line name = .failed failure s' ∧ s'.store = s.store := by
  rw [ask_eq_answered, answered, h]
  exact ⟨_, rfl, rfl⟩

/-! ### Other input -/

/-- Nothing comes behind what is not done. -/
private theorem Outcome.andThen_of_ne_done {outcome : Outcome} {next : State → Outcome}
    (h : ∀ s, outcome ≠ .done s) : outcome.andThen next = outcome := by
  cases outcome with
  | done s => exact absurd rfl (h s)
  | failed | unfinished => rfl

/-- The outcome with other input left. -/
def Outcome.withInput (input : List Char) : Outcome → Outcome
  | done s => done { s with input }
  | failed failure s => failed failure { s with input }
  | unfinished => unfinished

private theorem State.answered_withInput (s : State) (line : Option Int) (name : String)
    (typed : Option (List Char)) (rest before rest' : List Char) :
    { s with input := before }.answered line name typed rest' =
      (s.answered line name typed rest).withInput rest' := by
  unfold answered
  dsimp only
  split <;> rfl

/-- A whole line is taken whatever comes behind it. -/
private theorem State.ask_withInput {s : State} {typed : List Char} {behind : List (List Char)}
    (hlines : Text.typedLines s.input = typed :: behind) (hwhole : typed.getLast? = some '\n')
    (line : Option Int) (name : String) (rest : List Char) :
    { s with input := typed ++ rest }.ask line name = (s.ask line name).withInput rest := by
  obtain ⟨text, htext, rfl⟩ : ∃ text, '\n' ∉ text ∧ typed = text ++ ['\n'] := by
    rcases Text.typedLines_eq_cons hlines with hended | ⟨hopen, -⟩
    · exact hended
    · exact absurd (List.mem_of_getLast? hwhole) hopen
  have hother : Text.typedLines ((text ++ ['\n']) ++ rest) =
      (text ++ ['\n']) :: Text.typedLines rest := by
    rw [List.append_assoc, List.singleton_append, Text.typedLines_append htext]
  rw [ask_eq_answered, ask_eq_answered, hother, hlines, List.tail_cons, Text.flatten_typedLines]
  exact s.answered_withInput line name _ _ _ rest

/-- A part of a run **ignores the input**: it makes the same of other input, and leaves it. -/
def IgnoresInput (run : State → Outcome) (s : State) : Prop :=
  ∀ input, run { s with input } = (run s).withInput input

namespace IgnoresInput

variable {run : State → Outcome} {s s' : State}

/-- What ignores the input leaves it as it is. -/
private theorem input_eq (h : IgnoresInput run s) (hs' : (run s).state? = some s') :
    s'.input = s.input := by
  have hself : (run s).state? = ((run s).withInput s.input).state? :=
    congrArg Outcome.state? (h s.input)
  rw [hs'] at hself
  cases hrun : run s with
  | done final | failed failure final =>
    rw [hrun] at hself
    have heq : s' = { final with input := s.input } := Option.some.inj hself
    rw [heq]
  | unfinished =>
    rw [hrun] at hself
    cases hself

private theorem display (value : Int) (s : State) : IgnoresInput (State.display value) s := by
  intro input
  unfold State.display
  split <;> rfl

private theorem begin (limit line : Option Int) (form : Form) (s : State) :
    IgnoresInput (State.begin limit line form) s := by
  intro input
  cases limit with
  | none => rfl
  | some bound =>
    unfold State.begin
    dsimp only
    split <;> rfl

end IgnoresInput

/-! ### The lines that beats take -/

/-- How many beats ask for a variable. -/
def Beat.asks (beats : List Beat) : Nat :=
  beats.countP fun beat => beat.asked?.isSome

private theorem Beat.asks_append (beats others : List Beat) :
    asks (beats ++ others) = asks beats + asks others :=
  List.countP_append

/-- A part of a run **takes lines** in beats: each beat that asks takes one line of the input. -/
structure TakesLines (run : State → Outcome) (s : State) (beats : List Beat) : Prop where
  /-- A beat finds the lines that the beats before it have left. -/
  finds : ∀ i beat, beats[i]? = some beat →
    beat.state.input = ((Text.typedLines s.input).drop (Beat.asks (beats.take i))).flatten
  /-- At the end those lines are left that no beat has taken. -/
  leaves : ∀ s', (run s).state? = some s' →
    s'.input = ((Text.typedLines s.input).drop (Beat.asks beats)).flatten
  /-- Where a line is no integer, or there is none, the part fails with the store as it was. -/
  fails : ∀ i beat, beats[i]? = some beat → ∀ line name, beat.node = .input line name →
    ∀ failure, typedInteger line name
        (Text.typedLines s.input)[Beat.asks (beats.take i)]? = .error failure →
      i + 1 = beats.length ∧ ∃ s', run s = .failed failure s' ∧ s'.store = beat.state.store
  /-- If no line was missing, and all that were taken are whole, the part makes the same of other
  input behind these lines. -/
  ignores : (∀ line name s', run s ≠ .failed (.onLine (.noInput name) line) s') →
    (∀ typed ∈ (Text.typedLines s.input).take (Beat.asks beats), typed.getLast? = some '\n') →
      ∀ rest, run { s with
          input := ((Text.typedLines s.input).take (Beat.asks beats)).flatten ++ rest } =
        (run s).withInput rest

namespace TakesLines

variable {run next : State → Outcome} {s s' : State} {beats others : List Beat}

/-- Only what the part makes of other input counts. -/
private theorem congr {run' : State → Outcome} (h : TakesLines run s beats)
    (heq : ∀ input, run' { s with input } = run { s with input }) : TakesLines run' s beats := by
  have hself : run' s = run s := heq s.input
  refine ⟨h.finds, ?_, ?_, fun hnoFault hwhole rest => ?_⟩
  · rw [hself]
    exact h.leaves
  · rw [hself]
    exact h.fails
  · rw [hself] at hnoFault ⊢
    rw [heq]
    exact h.ignores hnoFault hwhole rest

/-- Beats at the beginning of a part that do not ask take nothing, if the part ignores the input. -/
private theorem of_ignoresInput (h : IgnoresInput run s)
    (hbeats : ∀ beat ∈ beats, beat.state = s ∧ beat.asked? = none) : TakesLines run s beats := by
  have hasks : ∀ part : List Beat, (∀ beat ∈ part, beat ∈ beats) → Beat.asks part = 0 := by
    intro part hpart
    refine List.countP_eq_zero.mpr fun beat hbeat => ?_
    rw [(hbeats beat (hpart beat hbeat)).2]
    exact Bool.false_ne_true
  have hall : Beat.asks beats = 0 := hasks beats fun _ hbeat => hbeat
  refine ⟨fun i beat hbeat => ?_, fun s' hs' => ?_, fun i beat hbeat line name hnode => ?_,
    fun _ _ rest => ?_⟩
  · rw [(hbeats beat (List.mem_of_getElem? hbeat)).1,
      hasks (beats.take i) fun _ => List.mem_of_mem_take]
    exact (Text.flatten_typedLines s.input).symm
  · rw [h.input_eq hs', hall]
    exact (Text.flatten_typedLines s.input).symm
  · have hnone := (hbeats beat (List.mem_of_getElem? hbeat)).2
    rw [Beat.asked?, hnode] at hnone
    cases hnone
  · rw [hall]
    exact h rest

/-- A statement that asks takes the first line, once it has begun. -/
private theorem of_input {limit line : Option Int} {name : String} {begun : State}
    (hbegin : s.begin limit line .input = .done begun) (hstore : begun.store = s.store) :
    TakesLines (fun s => (s.begin limit line .input).andThen (State.ask line name)) s
      [⟨.input line name, s⟩] := by
  have hinput : begun.input = s.input :=
    (IgnoresInput.begin limit line .input s).input_eq (congrArg Outcome.state? hbegin)
  have hrun : (s.begin limit line .input).andThen (State.ask line name) = begun.ask line name := by
    rw [hbegin]
    rfl
  have hbeat : ∀ (i : Nat) (found : Beat), [Beat.mk (.input line name) s][i]? = some found →
      i = 0 ∧ found = ⟨.input line name, s⟩ := by
    intro i found h
    cases i with
    | zero => exact ⟨rfl, (Option.some.inj h).symm⟩
    | succ i => cases h
  refine ⟨fun i found h => ?_, fun s' hs' => ?_,
    fun i found h line' name' hnode failure hfailure => ?_, fun hnoFault hwhole rest => ?_⟩
  · obtain ⟨rfl, rfl⟩ := hbeat i found h
    exact (Text.flatten_typedLines s.input).symm
  · rw [hrun] at hs'
    rw [State.input_of_ask hs', hinput, ← List.drop_one]
    rfl
  · obtain ⟨rfl, rfl⟩ := hbeat i found h
    cases hnode
    have hhead : typedInteger line name (Text.typedLines begun.input).head? = .error failure := by
      rw [hinput, List.head?_eq_getElem?]
      exact hfailure
    obtain ⟨s', hfailed, hkept⟩ := State.ask_of_error hhead
    exact ⟨rfl, s', hrun.trans hfailed, hkept.trans hstore⟩
  · rw [hrun] at hnoFault ⊢
    cases hlines : Text.typedLines s.input with
    | nil =>
      -- there is no line to take, which is the fault that has been excluded
      have hhead : typedInteger line name (Text.typedLines begun.input).head? =
          .error (.onLine (.noInput name) line) := by
        rw [hinput, hlines]
        rfl
      obtain ⟨s', hfailed, -⟩ := State.ask_of_error hhead
      exact absurd hfailed (hnoFault line name s')
    | cons typed behind =>
      have htyped : typed.getLast? = some '\n' := hwhole typed (hlines ▸ List.mem_cons_self)
      have htaken :
          ((typed :: behind).take (Beat.asks [⟨.input line name, s⟩])).flatten = typed :=
        List.append_nil typed
      rw [← hinput] at hlines
      rw [htaken, IgnoresInput.begin, hbegin]
      exact State.ask_withInput hlines htyped line name rest

/-- One thing after another takes lines one after the other. -/
private theorem andThen (h : TakesLines run s beats) (hrun : run s = .done s')
    (hnext : TakesLines next s' others) :
    TakesLines (fun s => (run s).andThen next) s (beats ++ others) := by
  have hlines : Text.typedLines s'.input = (Text.typedLines s.input).drop (Beat.asks beats) := by
    rw [h.leaves s' (congrArg Outcome.state? hrun), Text.typedLines_flatten_drop]
  have hboth : (run s).andThen next = next s' := by
    rw [hrun]
    rfl
  refine ⟨fun i beat hbeat => ?_, fun s'' hs'' => ?_,
    fun i beat hbeat line name hnode failure hfailure => ?_, fun hnoFault hwhole rest => ?_⟩
  · rcases Nat.lt_or_ge i beats.length with hi | hi
    · rw [List.getElem?_append_left hi] at hbeat
      rw [List.take_append_of_le_length (Nat.le_of_lt hi)]
      exact h.finds i beat hbeat
    · rw [List.getElem?_append_right hi] at hbeat
      rw [hnext.finds _ beat hbeat, hlines, List.drop_drop, List.take_append,
        List.take_of_length_le hi, Beat.asks_append]
  · rw [hboth] at hs''
    rw [hnext.leaves s'' hs'', hlines, List.drop_drop, Beat.asks_append]
  · rcases Nat.lt_or_ge i beats.length with hi | hi
    · -- the first part is done, so nothing has failed in it
      rw [List.getElem?_append_left hi] at hbeat
      rw [List.take_append_of_le_length (Nat.le_of_lt hi)] at hfailure
      obtain ⟨-, s'', hfailed, -⟩ := h.fails i beat hbeat line name hnode failure hfailure
      rw [hrun] at hfailed
      cases hfailed
    · rw [List.getElem?_append_right hi] at hbeat
      rw [List.take_append, List.take_of_length_le hi, Beat.asks_append, ← List.getElem?_drop,
        ← hlines] at hfailure
      obtain ⟨hlast, hfailed⟩ := hnext.fails _ beat hbeat line name hnode failure hfailure
      rw [hboth]
      refine ⟨?_, hfailed⟩
      rw [List.length_append]
      omega
  · rw [hboth] at hnoFault ⊢
    rw [Beat.asks_append, List.take_add, ← hlines] at hwhole ⊢
    obtain ⟨hfirst, hsecond⟩ := List.forall_mem_append.mp hwhole
    have hdone : ∀ line name s'', run s ≠ .failed (.onLine (.noInput name) line) s'' := by
      intro line name s'' hfailed
      rw [hrun] at hfailed
      cases hfailed
    -- the first part leaves to the second the lines of that, with the other input behind them
    rw [List.flatten_append, List.append_assoc, h.ignores hdone hfirst, hrun]
    exact hnext.ignores hnoFault hsecond rest

/-- What is not done goes no further. -/
private theorem andThen_of_ne_done (h : TakesLines run s beats) (hrun : ∀ s', run s ≠ .done s') :
    TakesLines (fun s => (run s).andThen next) s beats := by
  have hself : (run s).andThen next = run s := Outcome.andThen_of_ne_done hrun
  refine ⟨h.finds, ?_, ?_, fun hnoFault hwhole rest => ?_⟩
  · rw [hself]
    exact h.leaves
  · rw [hself]
    exact h.fails
  · rw [hself] at hnoFault ⊢
    rw [h.ignores hnoFault hwhole]
    refine Outcome.andThen_of_ne_done ?_
    cases hs : run s with
    | done s' => exact absurd hs (hrun s')
    | failed | unfinished => exact fun s' heq => by cases heq

end TakesLines

/-! ### Runs take lines -/

/-- The habit of taking lines, in beats of the given nodes. -/
def Habit.takingLines (nodes : List Statement) : Habit :=
  fun run moments => ∀ s, ∃ beats : List Beat, (∀ beat ∈ beats, beat.node ∈ nodes) ∧
    beats.map Beat.moment = moments s ∧ TakesLines run s beats

namespace Habit

variable {nodes : List Statement} {run next : State → Outcome} {moments more : State → List Moment}

/-- What ignores the input takes no lines. -/
private theorem takingLines_of_ignoresInput (h : ∀ s, IgnoresInput run s) :
    takingLines nodes run fun _ => [] :=
  fun s => ⟨[], List.forall_mem_nil _, rfl, .of_ignoresInput (h s) (List.forall_mem_nil _)⟩

private theorem takingLines_begin {limit : Option Int} {node : Statement} (hnode : node ∈ nodes)
    (hne : ∀ line name, node ≠ .input line name) :
    takingLines nodes (State.begin limit node.line node.form)
      (Moment.begin limit node.line node.form) := by
  intro s
  have hignores := IgnoresInput.begin limit node.line node.form s
  have hasked : (Beat.mk node s).asked? = none := by
    cases node with
    | input line name => exact absurd rfl (hne line name)
    | assign | display | branch | whileLoop | forLoop | block | misplaced => rfl
  rw [Moment.begin]
  rcases s.begin_cases limit node.line node.form with ⟨steps, hbegin⟩ | hbegin
  · rw [hbegin]
    exact ⟨[⟨node, s⟩], List.forall_mem_singleton.mpr hnode, rfl,
      .of_ignoresInput hignores (List.forall_mem_singleton.mpr ⟨rfl, hasked⟩)⟩
  · rw [hbegin]
    exact ⟨[], List.forall_mem_nil _, rfl, .of_ignoresInput hignores (List.forall_mem_nil _)⟩

/-- A statement that asks takes one line. -/
private theorem takingLines_ask {limit line : Option Int} {name : String}
    (hnode : .input line name ∈ nodes) :
    takingLines nodes (fun s => (s.begin limit line .input).andThen (State.ask line name))
      (Moment.begin limit line .input) := by
  intro s
  rw [Moment.begin]
  rcases s.begin_cases limit line .input with ⟨steps, hbegin⟩ | hbegin
  · have htakes : TakesLines (fun s => (s.begin limit line .input).andThen (State.ask line name)) s
        [⟨.input line name, s⟩] := .of_input hbegin rfl
    rw [hbegin]
    exact ⟨_, List.forall_mem_singleton.mpr hnode, rfl, htakes⟩
  · have hignores := IgnoresInput.begin limit line .input s
    have htakes : TakesLines (State.begin limit line .input) s [] :=
      .of_ignoresInput hignores (List.forall_mem_nil _)
    have hne : ∀ s', s.begin limit line .input ≠ .done s' := by
      intro s' hs'
      rw [hbegin] at hs'
      cases hs'
    rw [hbegin]
    exact ⟨[], List.forall_mem_nil _, rfl, htakes.andThen_of_ne_done hne⟩

/-- To go on with a result takes the lines that are taken with that result. -/
private theorem takingLines_given {α : Type} (result : Store → Except Failure α)
    {next : α → State → Outcome} {more : α → State → List Moment}
    (hnext : ∀ value, takingLines nodes (next value) (more value)) :
    takingLines nodes (fun s => s.given (result s.store) fun value => next value s)
      fun s => Moment.given (result s.store) fun value => more value s := by
  intro s
  cases hresult : result s.store with
  | error failure =>
    have hignores : IgnoresInput (fun s => s.given (result s.store) (next · s)) s := by
      intro input
      dsimp only
      rw [hresult]
      rfl
    refine ⟨[], List.forall_mem_nil _, ?_, .of_ignoresInput hignores (List.forall_mem_nil _)⟩
    dsimp only
    rw [hresult]
    rfl
  | ok value =>
    obtain ⟨beats, hnodes, hmoments, htakes⟩ := hnext value s
    refine ⟨beats, hnodes, ?_, htakes.congr fun input => ?_⟩
    · dsimp only
      rw [hresult]
      exact hmoments
    · dsimp only
      rw [hresult]
      rfl

/-- One thing after another takes the lines of both. -/
private theorem takingLines_andThen (h : takingLines nodes run moments)
    (hnext : takingLines nodes next more) :
    takingLines nodes (fun s => (run s).andThen next)
      fun s => moments s ++ Moment.behind (run s) more := by
  intro s
  obtain ⟨beats, hnodes, hmoments, htakes⟩ := h s
  by_cases hdone : ∃ s', run s = .done s'
  · obtain ⟨s', hrun⟩ := hdone
    obtain ⟨others, hothers, hmore, hothersTake⟩ := hnext s'
    refine ⟨beats ++ others, List.forall_mem_append.mpr ⟨hnodes, hothers⟩, ?_,
      htakes.andThen hrun hothersTake⟩
    dsimp only
    rw [List.map_append, hmoments, hmore, hrun]
    rfl
  · have hne : ∀ s', run s ≠ .done s' := fun s' hs' => hdone ⟨s', hs'⟩
    have hnone : Moment.behind (run s) more = [] := by
      cases hrun : run s with
      | done s' => exact absurd hrun (hne s')
      | failed | unfinished => rfl
    refine ⟨beats, hnodes, ?_, htakes.andThen_of_ne_done hne⟩
    dsimp only
    rw [hnone, List.append_nil, hmoments]

/-- To take lines is a law of runs that are put together. -/
private theorem isComposable_takingLines (nodes : List Statement) (limit : Option Int) :
    (takingLines nodes).IsComposable nodes limit where
  idle := takingLines_of_ignoresInput fun _ _ => rfl
  failed _ := takingLines_of_ignoresInput fun _ _ => rfl
  giveUp := takingLines_of_ignoresInput fun _ _ => rfl
  put _ _ := takingLines_of_ignoresInput fun _ _ => rfl
  display value := takingLines_of_ignoresInput (IgnoresInput.display value)
  begin _ hnode hne := takingLines_begin hnode hne
  ask _ _ hnode := takingLines_ask hnode
  given result _ _ hnext := takingLines_given result hnext
  andThen h hnext := takingLines_andThen h hnext

end Habit

/-- **Input is taken line by line**: the run of a program goes through beats of its nodes, one at
each of its moments, and takes lines in these. So the statement that asks in the `k`-th of the beats
that ask is answered by the `k`-th line, when it is run in the state that it finds. -/
theorem Program.input_by_lines (bounds : Bounds) (program : Program) (s : State) :
    let lines := Text.typedLines s.input
    ∃ beats : List Beat, (∀ beat ∈ beats, beat.node ∈ program.nodes) ∧
      beats.map Beat.moment = program.moments bounds s ∧
      TakesLines (program.run bounds) s beats ∧
      ∀ i beat, beats[i]? = some beat → ∀ line name, beat.node = .input line name →
        let k := Beat.asks (beats.take i)
        ∀ top room, beat.node.run bounds top (room + 1) beat.state =
          (beat.state.begin bounds.limit line .input).andThen
            (State.answered line name lines[k]? (lines.drop (k + 1)).flatten) := by
  obtain ⟨beats, hnodes, hmoments, htakes⟩ :=
    program.habit_run (Habit.isComposable_takingLines program.nodes bounds.limit)
      (fun _ hnode => hnode) { s with steps := 0 }
  refine ⟨beats, hnodes, hmoments,
    ⟨htakes.finds, htakes.leaves, htakes.fails, htakes.ignores⟩, ?_⟩
  intro i beat hbeat line name hnode k top room
  have hlines : Text.typedLines beat.state.input =
      (Text.typedLines s.input).drop k := by
    rw [htakes.finds i beat hbeat, Text.typedLines_flatten_drop]
  rw [hnode, Statement.run_succ]
  change (beat.state.begin bounds.limit line .input).andThen (State.ask line name) = _
  rcases beat.state.begin_cases bounds.limit line .input with ⟨steps, hbegin⟩ | hbegin
  · rw [hbegin]
    refine (State.ask_eq_answered _ line name).trans ?_
    change State.answered line name (Text.typedLines beat.state.input).head?
      (Text.typedLines beat.state.input).tail.flatten _ = _
    rw [hlines, List.head?_drop, List.tail_drop]
    rfl
  · rw [hbegin]
    rfl

/-- A loop that asks twice leaves what is typed behind two lines, whatever that is. -/
theorem Program.input_by_lines_of_loop :
    let condition : Condition := .compare none .lt (.var none "x") (.number none 3)
    let program : Program := ⟨[.whileLoop none condition ⟨none, [.input none "x"]⟩]⟩
    let s : State := .initial .empty "1\n5\n7"
    (program.run ⟨none, 3⟩ s).state?.map State.input = some ['7'] ∧
      ∀ rest, program.run ⟨none, 3⟩ { s with input := ['1', '\n', '5', '\n'] ++ rest } =
        (program.run ⟨none, 3⟩ s).withInput rest := by
  intro condition program s
  have hleft : (program.run ⟨none, 3⟩ s).state?.map State.input = some ['7'] := by
    decide +kernel
  obtain ⟨beats, -, -, htakes, -⟩ := input_by_lines ⟨none, 3⟩ program s
  obtain ⟨final, hfinal, hinput⟩ := Option.map_eq_some_iff.mp hleft
  have hlines : Text.typedLines s.input = [['1', '\n'], ['5', '\n'], ['7']] := by
    decide +kernel
  have hasks : Beat.asks beats = 2 := by
    have hrest := htakes.leaves final hfinal
    rw [hinput, hlines] at hrest
    generalize Beat.asks beats = k at hrest ⊢
    rcases k with _ | _ | _ | k
    · cases hrest
    · cases hrest
    · rfl
    · rw [List.drop_eq_nil_of_le (Nat.le_add_left 3 k)] at hrest
      cases hrest
  have hdone : (program.run ⟨none, 3⟩ s).failure? = none := by
    decide +kernel
  have hwhole : ∀ typed ∈ [['1', '\n'], ['5', '\n']], typed.getLast? = some '\n' :=
    List.forall_mem_cons.mpr ⟨rfl, List.forall_mem_singleton.mpr rfl⟩
  have hignores := htakes.ignores
  rw [hlines, hasks] at hignores
  refine ⟨hleft, hignores (fun line name s' hfailed => ?_) hwhole⟩
  rw [hfailed] at hdone
  cases hdone

end Offside

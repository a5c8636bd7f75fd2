import Offside.Proofs.Relabeling.Running
import Offside.Proofs.Tree.Nodes

/-!
# Runs side by side

Two runs from states that are **related**: they have the same input and the same count of
statements, while their stores and their logs need only be in some given relations. Where all nodes
of a program **respect** the relation of stores, that is, where what a node computes is the same in
related stores and what it sets keeps them related, the two runs stay related and come to an end in
the same way (`Program.keepPace_run`).
-/

namespace Offside

variable {stores : Store → Store → Prop} {logs : List Event → List Event → Prop}

/-- States **related**: the same input and count, and stores and logs in the given relations. -/
structure State.Related (stores : Store → Store → Prop) (logs : List Event → List Event → Prop)
    (s s' : State) : Prop where
  store : stores s.store s'.store
  input : s'.input = s.input
  steps : s'.steps = s.steps
  log : logs s.log s'.log

/-- An event **extends** a relation of logs if logs stay related when it is logged in both. -/
def Event.Extends (logs : List Event → List Event → Prop) (event : Event) : Prop :=
  ∀ log log', logs log log' → logs (event :: log) (event :: log')

/-- A node **respects** a relation of stores: it computes the same in related stores, and what it
sets keeps them related. -/
structure Statement.Respects (stores : Store → Store → Prop) (node : Statement) : Prop where
  exprs : ∀ e ∈ node.exprs, ∀ {store store'}, stores store store' → e.value store' = e.value store
  conditions : ∀ condition ∈ node.conditions, ∀ {store store'}, stores store store' →
    condition.holds store' = condition.holds store
  target : ∀ name ∈ node.target?, ∀ value {store store'}, stores store store' →
    stores (store.put name value) (store'.put name value)

/-- Two parts of runs **keep pace** in a relation of states: from related states they come to
related states, done or failed by the same failure, or both are unfinished. -/
def Outcome.KeepPace (related : State → State → Prop) (first second : State → Outcome) : Prop :=
  ∀ s s', related s s' → (first s).Agrees Eq related (second s')

/-! ### One thing after another -/

section Pieces

variable {related : State → State → Prop} {first second next next' : State → Outcome} {s s' : State}

/-- What outcomes agree in they also agree in as far as a relation of states goes that follows. -/
theorem Outcome.Agrees.imp {weaker : State → State → Prop} {outcome outcome' : Outcome}
    (h : outcome.Agrees Eq related outcome')
    (himp : ∀ s s', outcome.state? = some s → related s s' → weaker s s') :
    outcome.Agrees Eq weaker outcome' := by
  cases h with
  | done h => exact .done (himp _ _ rfl h)
  | failed hfailure h => exact .failed hfailure (himp _ _ rfl h)
  | unfinished => exact .unfinished

/-- Two outcomes that agree with a third one agree with each other, by way of its state. -/
theorem Outcome.Agrees.meet {related' : State → State → Prop} {outcome outcome' outcome'' : Outcome}
    (h : outcome.Agrees Eq related outcome') (h' : outcome.Agrees Eq related' outcome'') :
    outcome'.Agrees Eq (fun s' s'' => ∃ s, related s s' ∧ related' s s'') outcome'' := by
  cases h with
  | done h =>
    cases h' with
    | done h' => exact .done ⟨_, h, h'⟩
  | failed hfailure h =>
    cases h' with
    | failed hfailure' h' => exact .failed (hfailure.symm.trans hfailure') ⟨_, h, h'⟩
  | unfinished =>
    cases h' with
    | unfinished => exact .unfinished

/-- The states that outcomes leave are related. -/
theorem Outcome.Agrees.of_state? {outcome outcome' : Outcome}
    (h : outcome.Agrees Eq related outcome') (hs : outcome.state? = some s)
    (hs' : outcome'.state? = some s') : related s s' := by
  cases h with
  | done h | failed _ h =>
    cases hs
    cases hs'
    exact h
  | unfinished => cases hs

/-- What goes on from outcomes that agree may agree in something else, which has to follow where
nothing goes on. -/
theorem Outcome.Agrees.andThen_of_imp {weaker : State → State → Prop} {outcome outcome' : Outcome}
    (h : outcome.Agrees Eq related outcome') (himp : ∀ s s', related s s' → weaker s s')
    (hnext : ∀ s s', related s s' → (next s).Agrees Eq weaker (next' s')) :
    (outcome.andThen next).Agrees Eq weaker (outcome'.andThen next') := by
  cases h with
  | done h => exact hnext _ _ h
  | failed hfailure h => exact .failed hfailure (himp _ _ h)
  | unfinished => exact .unfinished

/-- Outcomes that agree go on to outcomes that agree. -/
private theorem Outcome.Agrees.andThen {outcome outcome' : Outcome}
    (h : outcome.Agrees Eq related outcome') (hnext : Outcome.KeepPace related next next') :
    (outcome.andThen next).Agrees Eq related (outcome'.andThen next') :=
  h.andThen_of_imp (fun _ _ hs => hs) hnext

/-- Related states go on with the same result of a computation. -/
private theorem State.agrees_given {α : Type} {result result' : Except Failure α}
    {next next' : α → Outcome}
    (h : related s s') (hresult : result' = result)
    (hnext : ∀ value, (next value).Agrees Eq related (next' value)) :
    (s.given result next).Agrees Eq related (s'.given result' next') := by
  cases hresult
  cases result with
  | error failure => exact .failed rfl h
  | ok value => exact hnext value

namespace Outcome.KeepPace

/-- Parts that keep pace may be put one behind the other. -/
theorem andThen (hfirst : KeepPace related first second) (hnext : KeepPace related next next') :
    KeepPace related (fun s => (first s).andThen next) (fun s => (second s).andThen next') :=
  fun s s' h => (hfirst s s' h).andThen hnext

theorem sequence {α : Type} {run run' : α → State → Outcome} {items : List α}
    (h : ∀ item ∈ items, KeepPace related (run item) (run' item)) :
    KeepPace related (Outcome.sequence run items) (Outcome.sequence run' items) := by
  induction items with
  | nil => exact fun s s' hs => .done hs
  | cons item items ih =>
    obtain ⟨hitem, hitems⟩ := List.forall_mem_cons.mp h
    intro s s' hs
    rw [Outcome.sequence_cons, Outcome.sequence_cons]
    exact (hitem s s' hs).andThen (ih hitems)

/-- Repetitions keep pace round by round, where their tests agree. -/
theorem repeatWhile {test test' : State → Except Failure Bool}
    (htest : ∀ s s', related s s' → test' s' = test s) (hbody : KeepPace related first second)
    (fuel : Nat) :
    KeepPace related (Outcome.repeatWhile test first fuel)
      (Outcome.repeatWhile test' second fuel) := by
  induction fuel with
  | zero => exact fun s s' hs => .unfinished
  | succ fuel ih =>
    intro s s' hs
    rw [Outcome.repeatWhile_succ, Outcome.repeatWhile_succ]
    refine State.agrees_given hs (htest s s' hs) fun holds => ?_
    cases holds with
    | false => exact .done hs
    | true => exact (hbody s s' hs).andThen ih

theorem countUp {body body' : Int → State → Outcome}
    (h : ∀ i, KeepPace related (body i) (body' i)) (rounds : Nat) (i : Int) :
    KeepPace related (Outcome.countUp body rounds i) (Outcome.countUp body' rounds i) := by
  induction rounds generalizing i with
  | zero => exact fun s s' hs => .done hs
  | succ rounds ih =>
    intro s s' hs
    rw [Outcome.countUp_succ, Outcome.countUp_succ]
    exact (h i s s' hs).andThen (ih (i + 1))

end Outcome.KeepPace

end Pieces

open Outcome (KeepPace)

/-! ### What statements do themselves -/

namespace State.Related

variable {s s' : State} (h : s.Related stores logs s')

include h

theorem put {name : String} {value : Int}
    (htarget : stores (s.store.put name value) (s'.store.put name value)) :
    (s.put name value).Related stores logs (s'.put name value) where
  store := htarget
  input := h.input
  steps := h.steps
  log := h.log

private theorem record {event : Event} (hevent : event.Extends logs) :
    (s.record event).Related stores logs (s'.record event) where
  store := h.store
  input := h.input
  steps := h.steps
  log := hevent s.log s'.log h.log

private theorem begin (limit : Option Int) {line : Option Int} {form : Form}
    (hevent : (Event.started line form).Extends logs) :
    (s.begin limit line form).Agrees Eq (Related stores logs) (s'.begin limit line form) := by
  have hsteps : ∀ n, Related stores logs { s with steps := n } { s' with steps := n } :=
    fun n => ⟨h.store, h.input, rfl, h.log⟩
  cases limit with
  | none => exact .done (h.record hevent)
  | some bound =>
    unfold State.begin
    dsimp only
    rw [h.steps]
    split
    · exact .done ((hsteps _).record hevent)
    · exact .failed rfl (hsteps _)

private theorem display {value : Int} (hevent : (Event.displayed value).Extends logs) :
    (s.display value).Agrees Eq (Related stores logs) (s'.display value) := by
  unfold State.display
  split
  · exact .failed rfl h
  · exact .done (h.record hevent)

private theorem ask (line : Option Int) {name : String} (hevent : (Event.asked name).Extends logs)
    (htarget : ∀ value, stores (s.store.put name value) (s'.store.put name value)) :
    (s.ask line name).Agrees Eq (Related stores logs) (s'.ask line name) := by
  have htaken : State.Related stores logs { s with input := (Text.takeLine s.input).2 }
      { s' with input := (Text.takeLine s.input).2 } := ⟨h.store, rfl, h.steps, h.log⟩
  have hasked := htaken.record hevent
  unfold State.ask
  dsimp only
  rw [h.input]
  split
  · exact .failed rfl hasked
  · split
    · exact .failed rfl hasked
    · split
      · exact .failed rfl hasked
      · exact .done (hasked.put (htarget _))

end State.Related

/-! ### Runs -/

/-- Clauses keep pace where their conditions agree and their bodies keep pace. -/
private theorem Clauses.keepPace_run {body body' : Body → State → Outcome} {clauses : Clauses}
    (hconditions : ∀ condition ∈ clauses.conditions, ∀ {store store'}, stores store store' →
      condition.holds store' = condition.holds store)
    (hbodies : ∀ inner ∈ clauses.bodies,
      KeepPace (State.Related stores logs) (body inner) (body' inner)) :
    KeepPace (State.Related stores logs) (clauses.run body) (clauses.run body') := by
  induction clauses with
  | done => exact fun s s' h => .done h
  | otherwise block => exact hbodies block (List.mem_singleton_self block)
  | guarded condition block rest ih =>
    obtain ⟨hcondition, hconditions⟩ := List.forall_mem_cons.mp hconditions
    obtain ⟨hblock, hbodies⟩ := List.forall_mem_cons.mp hbodies
    intro s s' h
    refine State.agrees_given h (hcondition h.store) fun holds => ?_
    cases holds with
    | false => exact ih hconditions hbodies s s' h
    | true => exact hblock s s' h

namespace Statement

variable {fuel : Nat} {body body' : Body → State → Outcome} {node statement : Statement}

/-- What a node does keeps pace if the node asks for nothing. -/
theorem Respects.keepPace_act_of_ne (hnode : node.Respects stores)
    (hlogs : ∀ value, (Event.displayed value).Extends logs)
    (hbodies : ∀ inner ∈ node.bodies,
      KeepPace (State.Related stores logs) (body inner) (body' inner))
    (hne : ∀ line name, node ≠ .input line name) :
    KeepPace (State.Related stores logs) (node.act fuel body) (node.act fuel body') := by
  intro s s' h
  cases node with
  | assign line name e =>
    refine State.agrees_given h (hnode.exprs e (List.mem_singleton_self e) h.store) fun value => ?_
    exact .done (h.put (hnode.target name rfl value h.store))
  | display line e =>
    refine State.agrees_given h (hnode.exprs e (List.mem_singleton_self e) h.store) fun value => ?_
    exact h.display (hlogs value)
  | input line name => exact absurd rfl (hne line name)
  | branch line clauses => exact Clauses.keepPace_run hnode.conditions hbodies s s' h
  | whileLoop line condition inner =>
    refine KeepPace.repeatWhile (fun s s' h => ?_) (hbodies inner (List.mem_singleton_self inner))
      fuel s s' h
    exact hnode.conditions condition (List.mem_singleton_self condition) h.store
  | forLoop line name first last inner =>
    obtain ⟨hfirst, hlast⟩ := List.forall_mem_cons.mp hnode.exprs
    refine State.agrees_given h (hfirst h.store) fun lower => ?_
    refine State.agrees_given h (hlast last (List.mem_singleton_self last) h.store) fun upper => ?_
    refine KeepPace.countUp (fun i s s' h => ?_) _ lower s s' h
    exact hbodies inner (List.mem_singleton_self inner) _ _
      (h.put (hnode.target name rfl i h.store))
  | block inner => exact hbodies inner (List.mem_singleton_self inner) s s' h
  | misplaced line form => exact .failed rfl h

variable (hlogs : ∀ event : Event, event.Extends logs)

include hlogs

/-- A node that respects the relation keeps pace where its bodies do. -/
private theorem Respects.keepPace_act (hnode : node.Respects stores)
    (hbodies : ∀ inner ∈ node.bodies,
      KeepPace (State.Related stores logs) (body inner) (body' inner)) :
    KeepPace (State.Related stores logs) (node.act fuel body) (node.act fuel body') := by
  by_cases hinput : ∃ line name, node = .input line name
  · obtain ⟨line, name, rfl⟩ := hinput
    exact fun s s' h => h.ask line (hlogs _) fun value => hnode.target name rfl value h.store
  · exact hnode.keepPace_act_of_ne (fun value => hlogs _) hbodies fun line name heq =>
      hinput ⟨line, name, heq⟩

/-- **A statement** run from related states, if all its nodes respect the relation of stores. -/
theorem keepPace_run (bounds : Bounds) (top : Option Int) (room : Nat)
    (hnodes : ∀ node ∈ statement.nodes, node.Respects stores) :
    KeepPace (State.Related stores logs) (statement.run bounds top room)
      (statement.run bounds top room) := by
  induction room generalizing statement with
  | zero => exact fun s s' h => .failed rfl h
  | succ room ih =>
    have hbodies : ∀ inner ∈ statement.bodies, KeepPace (State.Related stores logs)
        (inner.run bounds top room) (inner.run bounds top room) := by
      intro inner hinner
      refine KeepPace.sequence fun item hitem => ih fun node hnode => ?_
      exact hnodes node (mem_nodes_of_mem_body hinner hitem hnode)
    have hself := hnodes statement List.mem_cons_self
    intro s s' h
    rw [run_succ, run_succ]
    exact (h.begin _ (hlogs _)).andThen (hself.keepPace_act hlogs hbodies)

end Statement

/-- **A program** run from related states, if all its nodes respect the relation of stores. -/
theorem Program.keepPace_run (hlogs : ∀ event : Event, event.Extends logs) {program : Program}
    (bounds : Bounds)
    (hnodes : ∀ node ∈ program.nodes, node.Respects stores) :
    KeepPace (State.Related stores logs) (program.run bounds) (program.run bounds) := by
  intro s s' h
  refine KeepPace.sequence (fun statement hstatement => ?_) _ _ ⟨h.store, h.input, rfl, h.log⟩
  exact Statement.keepPace_run hlogs bounds statement.line runningLimit fun node hnode =>
    hnodes node (Statement.mem_nodesOf.mpr ⟨statement, hstatement, hnode⟩)

end Offside

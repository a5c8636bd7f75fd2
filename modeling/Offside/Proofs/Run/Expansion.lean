import Offside.Proofs.Run.Composition
import Offside.Proofs.Run.Dependence
import Offside.Proofs.Run.Fuel

/-!
# The loop that counts, written out

A loop that counts can be **written out** with a loop that tests a condition: two variables that
occur nowhere else take its bounds, and the first of them counts up to the second. The loop and what
it is written out to have the same effect on everything but these two variables
(`Statement.forLoop_writtenOut`).

Along the two runs the stores are the same apart from the two variables, and in the second store
these hold the number of the round and the upper bound. The body knows nothing of them, so it keeps
pace with itself and leaves them as they are, whatever it does to the variable of the loop and to
those that the bounds were computed from. What is written out takes fuel for its rounds, which the
loop that counts does not, so the two agree once there is fuel for the rounds and for one more test.
-/

namespace Offside

/-- The names that occur in a statement itself, apart from those inside its bodies. -/
def Statement.mentions (statement : Statement) : List String :=
  statement.reads ++ statement.target?.toList

/-- A round of a loop that is written out: it begins by setting the variable of the loop and ends by
counting up. -/
def Body.writtenOut (inner : Body) (line : Option Int) (counter name : String) : Body :=
  .mk line (.assign line name (.var line counter) :: (inner.statements ++
    [.assign line counter (.binary line .add (.var line counter) (.number line 1))]))

/-- The loop that counts, **written out** on one line, with the bounds in the variables `counter`
and `bound`. -/
def Statement.writtenOut (line : Option Int) (counter bound name : String) (first last : Expr)
    (inner : Body) : List Statement :=
  [.assign line counter first,
    .assign line bound last,
    .whileLoop line (.compare line .le (.var line counter) (.var line bound))
      (inner.writtenOut line counter name)]

/-! ### Logs that write the same -/

/-- Logs that **write the same**, with prompts and without. -/
def Event.WriteSame (log log' : List Event) : Prop :=
  ∀ prompts, String.join (log'.reverse.map (Event.output prompts)) =
    String.join (log.reverse.map (Event.output prompts))

private theorem Event.output_cons (prompts : Bool) (event : Event) (log : List Event) :
    String.join ((event :: log).reverse.map (Event.output prompts)) =
      String.join (log.reverse.map (Event.output prompts)) ++ event.output prompts := by
  rw [List.reverse_cons, List.map_append, String.join_append, List.map_singleton,
    String.join_cons, String.join_nil, String.append_empty]

private theorem Event.extends_writeSame (event : Event) : event.Extends Event.WriteSame := by
  intro log log' h prompts
  rw [output_cons, output_cons, h prompts]

namespace State.Related

variable {stores : Store → Store → Prop} {s s' : State}

/-- That a statement begins is not written. -/
private theorem started_left (h : s.Related stores Event.WriteSame s') (line : Option Int)
    (form : Form) :
    (s.record (.started line form)).Related stores Event.WriteSame s' := by
  refine ⟨h.store, h.input, h.steps, fun prompts => ?_⟩
  exact (h.log prompts).trans ((Event.output_cons prompts _ _).trans String.append_empty).symm

private theorem started_right (h : s.Related stores Event.WriteSame s') (line : Option Int)
    (form : Form) :
    s.Related stores Event.WriteSame (s'.record (.started line form)) := by
  refine ⟨h.store, h.input, h.steps, fun prompts => ?_⟩
  exact ((Event.output_cons prompts _ _).trans String.append_empty).trans (h.log prompts)

/-- Setting a variable in the second state alone is a matter of the stores. -/
private theorem put_right {stores' : Store → Store → Prop} (h : s.Related stores Event.WriteSame s')
    {name : String} {value : Int} (hstores : stores' s.store (s'.store.put name value)) :
    s.Related stores' Event.WriteSame (s'.put name value) :=
  ⟨hstores, h.input, h.steps, h.log⟩

private theorem imp {weaker : Store → Store → Prop} (h : s.Related stores Event.WriteSame s')
    (himp : stores s.store s'.store → weaker s.store s'.store) :
    s.Related weaker Event.WriteSame s' :=
  ⟨himp h.store, h.input, h.steps, h.log⟩

end State.Related

/-! ### Stores that are the same apart from two variables -/

namespace Store

variable {counter bound name : String} {i upper value : Int} {store store' : Store}

/-- Two stores are the **same apart** from two variables. -/
def SameApart (counter bound : String) (store store' : Store) : Prop :=
  ∀ key, Text.lowercase key ≠ Text.lowercase counter → Text.lowercase key ≠ Text.lowercase bound →
    store'.get? key = store.get? key

/-- Two stores **in a round**: they are the same apart from two variables, which hold the number of
the round and the upper bound in the second one. -/
structure InRound (counter bound : String) (i upper : Int) (store store' : Store) : Prop where
  apart : SameApart counter bound store store'
  counter : store'.get counter = i
  bound : store'.get bound = upper

private theorem get_put_of_ne (hne : Text.lowercase name ≠ Text.lowercase counter) :
    (store.put name value).get counter = store.get counter := by
  rw [get, get, get?_put, if_neg hne.symm]

theorem get_put_self : (store.put name value).get name = value := by
  rw [get, get?_put, if_pos rfl, Option.getD_some]

namespace SameApart

private theorem put (h : SameApart counter bound store store') (name : String) (value : Int) :
    SameApart counter bound (store.put name value) (store'.put name value) := by
  intro key hcounter hbound
  rw [get?_put, get?_put, h key hcounter hbound]

/-- Setting the counter changes nothing apart from it. -/
private theorem put_counter (h : SameApart counter bound store store') (value : Int) :
    SameApart counter bound store (store'.put counter value) := by
  intro key hcounter hbound
  rw [get?_put, if_neg hcounter, h key hcounter hbound]

/-- Setting the bound changes nothing apart from it. -/
private theorem put_bound (h : SameApart counter bound store store') (value : Int) :
    SameApart counter bound store (store'.put bound value) := by
  intro key hcounter hbound
  rw [get?_put, if_neg hbound, h key hcounter hbound]

end SameApart

/-- Stores stay in a round when any other variable is set. -/
private theorem InRound.put (h : InRound counter bound i upper store store')
    (hcounter : Text.lowercase name ≠ Text.lowercase counter)
    (hbound : Text.lowercase name ≠ Text.lowercase bound) (value : Int) :
    InRound counter bound i upper (store.put name value) (store'.put name value) where
  apart := h.apart.put name value
  counter := (get_put_of_ne hcounter).trans h.counter
  bound := (get_put_of_ne hbound).trans h.bound

/-- The round is over when the counter has gone up. -/
theorem InRound.next (h : InRound counter bound i upper store store')
    (hne : Text.lowercase counter ≠ Text.lowercase bound) :
    InRound counter bound (i + 1) upper store (store'.put counter (i + 1)) where
  apart := h.apart.put_counter (i + 1)
  counter := get_put_self
  bound := (get_put_of_ne hne).trans h.bound

end Store

/-- A node that does not mention the two variables respects stores in a round. -/
private theorem Statement.respects_inRound {counter bound : String} {i upper : Int}
    {node : Statement}
    (hfresh : ∀ name ∈ node.mentions, Text.lowercase name ≠ Text.lowercase counter ∧
      Text.lowercase name ≠ Text.lowercase bound) :
    node.Respects (Store.InRound counter bound i upper) := by
  refine respects_of_reads (fun h name hname => ?_) fun name hname value _ _ h => ?_
  · obtain ⟨hcounter, hbound⟩ := hfresh name (List.mem_append_left _ hname)
    exact congrArg (Option.getD · 0) (h.apart name hcounter hbound)
  · obtain ⟨hcounter, hbound⟩ :=
      hfresh name (List.mem_append_right _ (Option.mem_toList.mpr hname))
    exact h.put hcounter hbound value

/-! ### One round -/

section Rounds

variable {counter bound name : String} {line top : Option Int} {inner : Body} {fuel room : Nat}
  {i upper : Int}

/-- An assignment, without a limit on statements. -/
private theorem Statement.run_assign (e : Expr) (s : State) :
    (assign line name e).run ⟨none, fuel⟩ top (room + 1) s =
      (s.record (.started line .assign)).given (e.value s.store) fun value =>
        .done ((s.record (.started line .assign)).put name value) :=
  rfl

/-- A loop that counts, without a limit on statements. -/
private theorem Statement.run_forLoop (first last : Expr) (s : State) :
    (forLoop line name first last inner).run ⟨none, fuel⟩ top (room + 1) s =
      (s.record (.started line .forLoop)).given (first.value s.store) fun lower =>
        (s.record (.started line .forLoop)).given (last.value s.store) fun upper =>
          Outcome.countUp (fun i s => inner.run ⟨none, fuel⟩ top room (s.put name i))
            (upper + 1 - lower).toNat lower (s.record (.started line .forLoop)) :=
  rfl

/-- What is the same in a round that is written out and in one of the loop that counts: the stores
apart from the two variables, and what is written. -/
abbrev State.SameWrittenOut (counter bound : String) (s s' : State) : Prop :=
  s.Related (Store.SameApart counter bound) Event.WriteSame s'

/-- States in a round: the same, and the second one has the number of the round and the upper
bound. -/
abbrev State.InRound (counter bound : String) (i upper : Int) (s s' : State) : Prop :=
  s.Related (Store.InRound counter bound i upper) Event.WriteSame s'

private theorem State.InRound.sameWrittenOut {s s' : State}
    (h : s.InRound counter bound i upper s') :
    s.SameWrittenOut counter bound s' :=
  h.imp Store.InRound.apart

variable (hne : Text.lowercase counter ≠ Text.lowercase bound)
  (hcounter : Text.lowercase name ≠ Text.lowercase counter)
  (hbound : Text.lowercase name ≠ Text.lowercase bound)
  (hfresh : ∀ node ∈ inner.nodes, ∀ used ∈ node.mentions,
    Text.lowercase used ≠ Text.lowercase counter ∧ Text.lowercase used ≠ Text.lowercase bound)

include hne hcounter hbound hfresh

/-- **One round**, and what goes on from there in both runs. -/
private theorem Body.agrees_round {next next' : State → Outcome} {s s' : State}
    (h : s.InRound counter bound i upper s')
    (hnext : ∀ s s', s.InRound counter bound (i + 1) upper s' →
      (next s).Agrees Eq (State.SameWrittenOut counter bound) (next' s')) :
    ((inner.run ⟨none, fuel⟩ top (room + 1) (s.put name i)).andThen next).Agrees Eq
      (State.SameWrittenOut counter bound)
      (((inner.writtenOut line counter name).run ⟨none, fuel⟩ top (room + 1) s').andThen
        next') := by
  have hrun : ∀ statement ∈ inner.statements, Outcome.KeepPace (State.InRound counter bound i upper)
      (statement.run ⟨none, fuel⟩ top (room + 1)) (statement.run ⟨none, fuel⟩ top (room + 1)) := by
    intro statement hstatement
    refine Statement.keepPace_run Event.extends_writeSame _ top (room + 1) fun node hnode => ?_
    have hmem : node ∈ inner.nodes := Body.mem_nodes.mpr ⟨statement, hstatement, hnode⟩
    exact Statement.respects_inRound (hfresh node hmem)
  have hset : (s.put name i).InRound counter bound i upper
      ((s'.record (.started line .assign)).put name i) :=
    (h.started_right line .assign).put (h.store.put hcounter hbound i)
  have hsetting :
      (Statement.assign line name (.var line counter)).run ⟨none, fuel⟩ top (room + 1) s' =
        .done ((s'.record (.started line .assign)).put name i) := by
    rw [Statement.run_assign, Expr.value_eq_evaluate, Expr.evaluate, h.store.counter, State.given]
  change Outcome.Agrees _ _ _
    ((Outcome.sequence _ (.assign line name _ :: (inner.statements ++ [_])) s').andThen _)
  rw [Outcome.sequence_cons, hsetting, Outcome.andThen.eq_1, Outcome.sequence_append,
    Outcome.andThen_assoc]
  refine (Outcome.KeepPace.sequence hrun _ _ hset).andThen_of_imp
    (fun _ _ h => h.sameWrittenOut) fun s s' h => ?_
  have hcounting : (Statement.assign line counter (.binary line .add (.var line counter)
      (.number line 1))).run ⟨none, fuel⟩ top (room + 1) s' =
      .done ((s'.record (.started line .assign)).put counter (i + 1)) := by
    have hsum : (Expr.binary line .add (.var line counter) (.number line 1)).evaluate s'.store =
        .ok (s'.store.get counter + 1) := rfl
    rw [Statement.run_assign, Expr.value_eq_evaluate, hsum, h.store.counter, State.given]
  rw [Outcome.sequence_cons, hcounting]
  exact hnext _ _ ((h.started_right line .assign).put_right (h.store.next hne))

/-- **The rounds**, with fuel for all of them and for one more test. -/
private theorem Outcome.agrees_rounds {left : Nat} {s s' : State}
    (h : s.InRound counter bound i upper s') (hleft : (upper + 1 - i).toNat ≤ left) :
    (Outcome.countUp (fun i s => inner.run ⟨none, fuel⟩ top (room + 1) (s.put name i))
      (upper + 1 - i).toNat i s).Agrees Eq (State.SameWrittenOut counter bound)
      (Outcome.repeatWhile
        (fun s => (Condition.compare line .le (.var line counter) (.var line bound)).holds s.store)
        ((inner.writtenOut line counter name).run ⟨none, fuel⟩ top (room + 1)) (left + 1) s') := by
  generalize hrounds : (upper + 1 - i).toNat = rounds at hleft
  have htest : ∀ {i : Int} {s s' : State}, s.InRound counter bound i upper s' →
      (Condition.compare line .le (.var line counter) (.var line bound)).holds s'.store =
        .ok (decide (i ≤ upper)) := by
    intro i s s' h
    rw [← h.store.counter, ← h.store.bound]
    exact Condition.holds_compare ..
  induction rounds generalizing i s s' left with
  | zero =>
    have hover : ¬ i ≤ upper := by omega
    rw [Outcome.repeatWhile_succ, htest h, decide_eq_false hover]
    exact .done h.sameWrittenOut
  | succ rounds ih =>
    have hwithin : i ≤ upper := by omega
    obtain ⟨left, rfl⟩ := Nat.exists_eq_add_one.mpr (show 0 < left by omega)
    rw [Outcome.countUp_succ, Outcome.repeatWhile_succ, htest h, decide_eq_true hwithin]
    refine Body.agrees_round hne hcounter hbound hfresh h fun s s' h => ?_
    exact ih h (by omega) (by omega)

/-- The loop and what it is written out to, with fuel for the rounds. -/
theorem Statement.agrees_writtenOut (line' : Option Int) {first last : Expr} {s : State}
    (hlast : ∀ used ∈ last.reads, Text.lowercase used ≠ Text.lowercase counter)
    (hfuel : ∀ lower upper, first.value s.store = .ok lower → last.value s.store = .ok upper →
      (upper + 1 - lower).toNat < fuel) :
    ((forLoop line' name first last inner).run ⟨none, fuel⟩ top (room + 2) s).Agrees Eq
      (State.SameWrittenOut counter bound)
      (Outcome.sequence (run ⟨none, fuel⟩ top (room + 2))
        (writtenOut line counter bound name first last inner) s) := by
  have hsame : s.SameWrittenOut counter bound s := ⟨fun _ _ _ => rfl, rfl, rfl, fun _ => rfl⟩
  have hbegun := (hsame.started_left line' .forLoop).started_right line .assign
  rw [writtenOut, Outcome.sequence_cons, run_assign, run_forLoop]
  cases hlower : first.value s.store with
  | error failure => exact .failed rfl hbegun
  | ok lower =>
    have hfirst : (s.record (.started line' .forLoop)).SameWrittenOut counter bound
        ((s.record (.started line .assign)).put counter lower) :=
      hbegun.put_right (hbegun.store.put_counter lower)
    have hvalue : last.value (s.store.put counter lower) = last.value s.store := by
      rw [Expr.value_eq_evaluate, Expr.value_eq_evaluate]
      exact Expr.evaluate_congr fun used hused => Store.get_put_of_ne (hlast used hused).symm
    rw [State.given, State.given, Outcome.andThen.eq_1, Outcome.sequence_cons, run_assign]
    change Outcome.Agrees _ _ _
      ((State.given _ (last.value (s.store.put counter lower)) _).andThen _)
    rw [hvalue]
    cases hupper : last.value s.store with
    | error failure => exact .failed rfl (hfirst.started_right line .assign)
    | ok upper =>
      have hround : (s.record (.started line' .forLoop)).InRound counter bound lower upper
          ((((s.record (.started line .assign)).put counter lower).record
            (.started line .assign)).put bound upper) := by
        refine (hfirst.started_right line .assign).put_right ⟨?_, ?_, Store.get_put_self⟩
        · exact hfirst.store.put_bound upper
        · exact (Store.get_put_of_ne hne.symm).trans Store.get_put_self
      have hample : (upper + 1 - lower).toNat < fuel := hfuel lower upper hlower hupper
      obtain ⟨left, rfl⟩ := Nat.exists_eq_add_one.mpr (Nat.zero_lt_of_lt hample)
      change Outcome.Agrees _ _ _ (Outcome.sequence _ [_] _)
      rw [Outcome.sequence_singleton]
      exact Outcome.agrees_rounds hne hcounter hbound hfresh
        (hround.started_right line .whileLoop) (Nat.le_of_lt_succ hample)

end Rounds

/-! ### Enough fuel -/

namespace Outcome

variable {related : State → State → Prop} {run run' : Nat → Outcome}

/-- With more and more fuel, a run **keeps its end** once it has come to it. -/
def KeepsEnd (run : Nat → Outcome) : Prop :=
  ∀ fuel fuel', fuel ≤ fuel' → run fuel ≠ .unfinished → run fuel' = run fuel

private theorem ne_unfinished_of_state? {outcome : Outcome} {s : State}
    (h : outcome.state? = some s) :
    outcome ≠ .unfinished := by
  rintro rfl
  cases h

/-- Of outcomes that agree, both are unfinished or neither is. -/
private theorem Agrees.eq_unfinished_iff {outcome outcome' : Outcome}
    (h : outcome.Agrees Eq related outcome') : outcome = .unfinished ↔ outcome' = .unfinished := by
  cases h with
  | done | failed => exact iff_of_false nofun nofun
  | unfinished => exact Iff.rfl

/-- Two runs that agree with ample fuel never come to an end both, or come to ends that agree. -/
private theorem agrees_of_ample (hrun : KeepsEnd run) (hrun' : KeepsEnd run') {ample : Nat}
    (h : ∀ fuel, ample ≤ fuel → (run fuel).Agrees Eq related (run' fuel)) :
    ((∀ fuel, run fuel = .unfinished) ↔ ∀ fuel, run' fuel = .unfinished) ∧
      ∀ fuel fuel', run fuel ≠ .unfinished → run' fuel' ≠ .unfinished →
        (run fuel).Agrees Eq related (run' fuel') := by
  refine ⟨⟨fun hnever fuel => ?_, fun hnever fuel => ?_⟩, fun fuel fuel' hends hends' => ?_⟩
  · by_contra hends
    have heq := hrun' fuel (max ample fuel) (Nat.le_max_right ample fuel) hends
    have hiff := (h (max ample fuel) (Nat.le_max_left ample fuel)).eq_unfinished_iff
    exact hends (heq ▸ hiff.mp (hnever _))
  · by_contra hends
    have heq := hrun fuel (max ample fuel) (Nat.le_max_right ample fuel) hends
    have hiff := (h (max ample fuel) (Nat.le_max_left ample fuel)).eq_unfinished_iff
    exact hends (heq ▸ hiff.mpr (hnever _))
  · have heq := hrun fuel (max ample (max fuel fuel')) (by omega) hends
    have heq' := hrun' fuel' (max ample (max fuel fuel')) (by omega) hends'
    rw [← heq, ← heq']
    exact h _ (Nat.le_max_left ample _)

/-- To count up is to go through the numbers one after another. -/
private theorem countUp_eq_sequence (body : Int → State → Outcome) (rounds : Nat) (i : Int) :
    countUp body rounds i =
      sequence body ((List.range rounds).map fun k : Nat => i + (k : Int)) := by
  induction rounds generalizing i with
  | zero => rfl
  | succ rounds ih =>
    funext s
    have hshift : (List.range rounds).map (fun k : Nat => i + 1 + (k : Int)) =
        (List.range rounds).map ((fun k : Nat => i + (k : Int)) ∘ Nat.succ) := by
      refine List.map_congr_left fun k _ => ?_
      change i + 1 + (k : Int) = i + ((k + 1 : Nat) : Int)
      omega
    rw [countUp_succ, List.range_succ_eq_map, List.map_cons, sequence_cons, List.map_map, ih,
      hshift, Int.natCast_zero, Int.add_zero]

end Outcome

/-- There is fuel for the rounds of a loop between two bounds, if they can be computed. -/
private theorem Expr.exists_ample (first last : Expr) (store : Store) :
    ∃ ample, ∀ lower upper, first.value store = .ok lower → last.value store = .ok upper →
      (upper + 1 - lower).toNat < ample := by
  cases first.value store with
  | error failure => exact ⟨0, nofun⟩
  | ok lower =>
    cases last.value store with
    | error failure => exact ⟨0, fun _ _ _ => nofun⟩
    | ok upper =>
      refine ⟨(upper + 1 - lower).toNat + 1, ?_⟩
      rintro _ _ ⟨⟩ ⟨⟩
      exact Nat.lt_succ_self _

/-- The rounds of a loop that counts are settled when its bounds are computed. -/
theorem Statement.run_forLoop_eq_sequence {line top : Option Int} {name : String}
    {first last : Expr} {inner : Body} {fuel room : Nat} {s : State} {lower upper : Int}
    (hlower : first.value s.store = .ok lower) (hupper : last.value s.store = .ok upper) :
    (forLoop line name first last inner).run ⟨none, fuel⟩ top (room + 1) s =
      Outcome.sequence (fun i s => inner.run ⟨none, fuel⟩ top room (s.put name i))
        ((List.range (upper + 1 - lower).toNat).map fun k : Nat => lower + (k : Int))
        (s.record (.started line .forLoop)) := by
  rw [run_forLoop, hlower, hupper, State.given, State.given, Outcome.countUp_eq_sequence]

/-- **A loop that counts, written out.** For two different variables that occur nowhere in the loop,
the loop and what it is written out to never come to an end both, or they end in the same way: done
or by the same failure, having written the same, with the same input left and with the same store
apart from the two variables. And the rounds of the loop are settled when its bounds are computed:
it goes through the numbers between them one after another, whatever its body does to its variable
or to those that the bounds were computed from. There has to be room for the statements of the
body. -/
theorem Statement.forLoop_writtenOut (line line' top : Option Int) {room : Nat} (hroom : room ≠ 0)
    {counter bound name : String} {first last : Expr} {inner : Body}
    (hne : Text.lowercase counter ≠ Text.lowercase bound)
    (hfresh : ∀ node ∈ (forLoop line name first last inner).nodes, ∀ used ∈ node.mentions,
      Text.lowercase used ≠ Text.lowercase counter ∧ Text.lowercase used ≠ Text.lowercase bound)
    (s : State) :
    let run (fuel : Nat) : Outcome :=
      (forLoop line name first last inner).run ⟨none, fuel⟩ top (room + 1) s
    let run' (fuel : Nat) : Outcome :=
      Outcome.sequence (Statement.run ⟨none, fuel⟩ top (room + 1))
        (writtenOut line' counter bound name first last inner) s
    ((∀ fuel, run fuel = .unfinished) ↔ ∀ fuel, run' fuel = .unfinished) ∧
    (∀ fuel fuel', run fuel ≠ .unfinished → run' fuel' ≠ .unfinished →
      (run fuel).Agrees Eq
        (fun final final' => (∀ prompts, final'.output prompts = final.output prompts) ∧
          final'.input = final.input ∧
          ∀ key, Text.lowercase key ≠ Text.lowercase counter →
            Text.lowercase key ≠ Text.lowercase bound →
            final'.store.get? key = final.store.get? key)
        (run' fuel')) ∧
    ∀ fuel lower upper, first.value s.store = .ok lower → last.value s.store = .ok upper →
      run fuel = Outcome.sequence (fun i s => inner.run ⟨none, fuel⟩ top room (s.put name i))
        ((List.range (upper + 1 - lower).toNat).map fun k : Nat => lower + (k : Int))
        (s.record (.started line .forLoop)) := by
  intro run run'
  obtain ⟨room, rfl⟩ := Nat.exists_eq_succ_of_ne_zero hroom
  have hself := hfresh _ List.mem_cons_self
  have hname := hself name (List.mem_append_right _ List.mem_cons_self)
  have hlast : ∀ used ∈ last.reads, Text.lowercase used ≠ Text.lowercase counter := by
    intro used hused
    have hreads : used ∈ (forLoop line name first last inner).reads := by
      refine List.mem_append_left _ (List.mem_flatMap.mpr ⟨last, ?_, hused⟩)
      exact List.mem_cons_of_mem _ List.mem_cons_self
    exact (hself used (List.mem_append_left _ hreads)).1
  have hinner : ∀ node ∈ inner.nodes, ∀ used ∈ node.mentions,
      Text.lowercase used ≠ Text.lowercase counter ∧ Text.lowercase used ≠ Text.lowercase bound :=
    fun node hnode => hfresh node (List.mem_cons_of_mem _ hnode)
  obtain ⟨ample, hample⟩ := Expr.exists_ample first last s.store
  have hagrees : ∀ fuel, ample ≤ fuel →
      (run fuel).Agrees Eq (State.SameWrittenOut counter bound) (run' fuel) := by
    intro fuel hfuel
    refine agrees_writtenOut hne hname.1 hname.2 hinner line hlast ?_
    intro lower upper hlower hupper
    exact Nat.lt_of_lt_of_le (hample lower upper hlower hupper) hfuel
  obtain ⟨hnever, hends⟩ := Outcome.agrees_of_ample
    (fun _ _ hfuel hends => run_eq_of_fuel_le hfuel hends)
    (fun _ _ hfuel hends => sequence_eq_of_fuel_le hfuel hends) hagrees
  refine ⟨hnever, fun fuel fuel' hfuel hfuel' => ?_, fun fuel lower upper hlower hupper => ?_⟩
  · exact (hends fuel fuel' hfuel hfuel').imp fun final final' _ h => ⟨h.log, h.input, h.store⟩
  · exact run_forLoop_eq_sequence hlower hupper

/-- A loop whose body sets the variable of the loop and the one that the upper bound was computed
from, run at the top level as it is and written out. -/
theorem Statement.forLoop_writtenOut_of_reassigning :
    let inner : Body := .mk none [.display (some 1) (.var (some 1) "i"),
      .assign (some 2) "I" (.number (some 2) 7), .assign (some 3) "n" (.number (some 3) 0)]
    let loop := forLoop (some 0) "i" (.number (some 0) 2) (.var (some 0) "n") inner
    let row := writtenOut (some 0) "T" "u" "i" (.number (some 0) 2) (.var (some 0) "n") inner
    let s : State := .initial (.ofList [("N", 3)]) ""
    (∀ node ∈ loop.nodes, ∀ used ∈ node.mentions,
      Text.lowercase used ≠ Text.lowercase "T" ∧ Text.lowercase used ≠ Text.lowercase "u") ∧
    ∃ final final', (loop.run ⟨none, 0⟩ (some 0) runningLimit s).state? = some final ∧
      (Outcome.sequence (run ⟨none, 3⟩ (some 0) runningLimit) row s).state? = some final' ∧
      final.output true = "2\n3\n" ∧ final'.output true = "2\n3\n" ∧
      final.store.get? "N" = some 0 ∧ final'.store.get? "N" = some 0 := by
  intro inner loop row s
  have hne : Text.lowercase "T" ≠ Text.lowercase "u" := by decide +kernel
  have hfresh : ∀ node ∈ loop.nodes, ∀ used ∈ node.mentions,
      Text.lowercase used ≠ Text.lowercase "T" ∧ Text.lowercase used ≠ Text.lowercase "u" := by
    decide +kernel
  obtain ⟨-, hends, -⟩ := forLoop_writtenOut (some 0) (some 0) (some 0)
    (show runningLimit - 1 ≠ 0 by decide) hne hfresh s
  obtain ⟨final, hfinal⟩ := Option.isSome_iff_exists.mp
    (show (loop.run ⟨none, 0⟩ (some 0) runningLimit s).state?.isSome by decide +kernel)
  obtain ⟨final', hfinal'⟩ := Option.isSome_iff_exists.mp
    (show (Outcome.sequence (run ⟨none, 3⟩ (some 0) runningLimit) row s).state?.isSome by
      decide +kernel)
  have hseen : (loop.run ⟨none, 0⟩ (some 0) runningLimit s).state?.map
      (fun final => (final.output true, final.store.get? "N")) = some ("2\n3\n", some 0) := by
    decide +kernel
  rw [hfinal, Option.map_some, Option.some.injEq, Prod.mk.injEq] at hseen
  have hagrees := hends 0 3 (Outcome.ne_unfinished_of_state? hfinal)
    (Outcome.ne_unfinished_of_state? hfinal')
  obtain ⟨houtput, -, hstore⟩ := hagrees.of_state? hfinal hfinal'
  refine ⟨hfresh, final, final', hfinal, hfinal', hseen.1, (houtput true).trans hseen.1, hseen.2,
    ?_⟩
  exact (hstore "N" (by decide +kernel) (by decide +kernel)).trans hseen.2

end Offside

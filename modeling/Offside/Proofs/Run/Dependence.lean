import Offside.Proofs.Run.History
import Offside.Proofs.Run.Simulation

/-!
# What a run depends on

A run depends on its store by the variables that the program **reads**, the names that occur in its
expressions, and changes it in the variables that the program sets. Two runs from stores that agree
on all that is read cannot be told apart, and the stores they leave differ only where they differed
before: a variable is worth the same in both, or the program does not read it and neither run has
set it (`Program.run_depends`).

Along the two runs it is this last statement that is kept up, for every name: setting a variable
makes it worth the same in both stores, whether it is read or not.
-/

namespace Offside

/-! ### What is read -/

/-- The names that an expression reads. -/
def Expr.reads : Expr → List String
  | number .. | misplaced _ => []
  | var _ name => [name]
  | negate _ operand => operand.reads
  | paren _ inner => inner.reads
  | binary _ _ left right => left.reads ++ right.reads

/-- The names that a condition reads. -/
def Condition.reads : Condition → List String
  | compare _ _ left right => left.reads ++ right.reads
  | misplaced _ => []

/-- The names that a statement reads itself, apart from those inside its bodies. -/
def Statement.reads (statement : Statement) : List String :=
  statement.exprs.flatMap Expr.reads ++ statement.conditions.flatMap Condition.reads

/-- The names that a program reads: all those that occur in its expressions. -/
def Program.reads (program : Program) : List String :=
  program.nodes.flatMap Statement.reads

variable {store store' : Store}

theorem Expr.evaluate_congr {e : Expr} (h : ∀ name ∈ e.reads, store'.get name = store.get name) :
    e.evaluate store' = e.evaluate store := by
  induction e with
  | number line value => rfl
  | var line name => exact congrArg Except.ok (h name (List.mem_singleton_self name))
  | negate line operand ih => rw [evaluate, evaluate, ih h]
  | paren line inner ih => exact ih h
  | binary line op left right ihl ihr =>
    obtain ⟨hleft, hright⟩ := List.forall_mem_append.mp h
    rw [evaluate, evaluate, ihl hleft, ihr hright]
  | misplaced form => rfl

private theorem Condition.holds_congr {condition : Condition}
    (h : ∀ name ∈ condition.reads, store'.get name = store.get name) :
    condition.holds store' = condition.holds store := by
  cases condition with
  | compare line relation left right =>
    obtain ⟨hleft, hright⟩ := List.forall_mem_append.mp h
    rw [holds_compare, holds_compare, Expr.evaluate_congr hleft, Expr.evaluate_congr hright]
  | misplaced form => rfl

/-- A node respects a relation of stores that agree on what the node reads, if the relation is kept
when its variable is set. -/
theorem Statement.respects_of_reads {stores : Store → Store → Prop} {node : Statement}
    (hreads : ∀ {store store'}, stores store store' →
      ∀ name ∈ node.reads, store'.get name = store.get name)
    (htarget : ∀ name ∈ node.target?, ∀ value {store store'}, stores store store' →
      stores (store.put name value) (store'.put name value)) : node.Respects stores where
  exprs e he {store store'} h := by
    rw [Expr.value_eq_evaluate, Expr.value_eq_evaluate]
    exact Expr.evaluate_congr fun name hname =>
      hreads h name (List.mem_append_left _ (List.mem_flatMap.mpr ⟨e, he, hname⟩))
  conditions condition hcondition {store store'} h :=
    Condition.holds_congr fun name hname =>
      hreads h name (List.mem_append_right _ (List.mem_flatMap.mpr ⟨condition, hcondition, hname⟩))
  target := htarget

/-! ### Stores that differ where nothing is read -/

namespace Store

/-- The value of a variable is the same under all spellings of its name. -/
private theorem get_congr {name key : String} (h : Text.lowercase key = Text.lowercase name) :
    store.get key = store.get name := by
  rw [get, get, get?, get?, h]

/-- Two stores **differ outside** of some names, as two others do: a variable is worth the same in
both, or it goes by none of the names and is bound in each as it was in the other. -/
def DifferOutside (names : List String) (first second : Store) (store store' : Store) : Prop :=
  ∀ name, store'.get name = store.get name ∨
    (∀ read ∈ names, Text.lowercase read ≠ Text.lowercase name) ∧
      store.get? name = first.get? name ∧ store'.get? name = second.get? name

variable {names : List String} {first second : Store}

/-- Stores that agree on some names differ outside of them. -/
private theorem differOutside_of_agree (h : ∀ name ∈ names, second.get name = first.get name) :
    DifferOutside names first second first second := by
  intro name
  by_cases hread : ∃ read ∈ names, Text.lowercase read = Text.lowercase name
  · obtain ⟨read, hmem, hread⟩ := hread
    exact .inl ((get_congr hread).symm.trans ((h read hmem).trans (get_congr hread)))
  · exact .inr ⟨fun read hmem heq => hread ⟨read, hmem, heq⟩, rfl, rfl⟩

namespace DifferOutside

variable (h : DifferOutside names first second store store')

include h

private theorem agree {name : String} (hname : name ∈ names) :
    store'.get name = store.get name := by
  rcases h name with heq | ⟨hunread, -⟩
  · exact heq
  · exact absurd rfl (hunread name hname)

private theorem put (name : String) (value : Int) :
    DifferOutside names first second (store.put name value) (store'.put name value) := by
  intro key
  rw [get, get, get?_put, get?_put]
  split
  · exact .inl rfl
  · exact h key

end DifferOutside

end Store

/-! ### Runs -/

section Runs

variable {program : Program} {s : State}

/-- Two runs from stores that agree on what the program reads keep pace, and their stores differ
outside of that. -/
theorem Program.agrees_of_reads (bounds : Bounds)
    (h : ∀ name ∈ program.reads, store'.get name = s.store.get name) :
    (program.run bounds s).Agrees Eq
      (State.Related (Store.DifferOutside program.reads s.store store') Eq)
      (program.run bounds { s with store := store' }) := by
  have hnodes : ∀ node ∈ program.nodes,
      node.Respects (Store.DifferOutside program.reads s.store store') := by
    intro node hnode
    refine Statement.respects_of_reads (fun hdiffer name hname => ?_)
      fun name _ value _ _ hdiffer => hdiffer.put name value
    exact hdiffer.agree (List.mem_flatMap.mpr ⟨node, hnode, hname⟩)
  exact keepPace_run (fun event _ _ heq => congrArg (event :: ·) heq) bounds hnodes s
    { s with store := store' } ⟨Store.differOutside_of_agree h, rfl, rfl, rfl⟩

/-- A variable that no node of a program sets keeps its binding. -/
theorem Program.get?_of_run {bounds : Bounds} {name : String}
    (hname : ∀ node ∈ program.nodes, ∀ target ∈ node.target?,
      Text.lowercase target ≠ Text.lowercase name)
    {final : State} (hfinal : (program.run bounds s).state? = some final) :
    final.store.get? name = s.store.get? name := by
  -- the run beside itself, in stores that are the same and have the binding still
  let kept (store store' : Store) : Prop := store' = store ∧ store.get? name = s.store.get? name
  have hnodes : ∀ node ∈ program.nodes, node.Respects kept := by
    intro node hnode
    refine Statement.respects_of_reads (fun hkept _ _ => congrArg (Store.get · _) hkept.1) ?_
    rintro target htarget value store _ ⟨rfl, hkept⟩
    refine ⟨rfl, ?_⟩
    rw [Store.get?_put, if_neg (hname node hnode target htarget).symm]
    exact hkept
  have hagrees : (program.run bounds s).Agrees Eq (State.Related kept Eq) (program.run bounds s) :=
    keepPace_run (fun event _ _ heq => congrArg (event :: ·) heq) bounds hnodes s s
      ⟨⟨rfl, rfl⟩, rfl, rfl, rfl⟩
  exact (hagrees.of_state? hfinal hfinal).store.2

/-- **Dependence and frame.** A run depends on its store only by what the program reads: from two
stores that agree on that, the runs write the same, count the same statements, leave the same input
and fail in the same way, or are both unfinished, and the stores that they leave differ only in
variables that are not read and still have the bindings they had. And whatever a run comes to, a
variable that the program does not set keeps its binding. -/
theorem Program.run_depends (bounds : Bounds) (program : Program) (s : State) :
    (∀ store' : Store, (∀ name ∈ program.reads, store'.get name = s.store.get name) →
      (program.run bounds s).Agrees Eq
        (fun final final' =>
          (∀ prompts, final'.output prompts = final.output prompts) ∧ final'.trace = final.trace ∧
          final'.steps = final.steps ∧ final'.input = final.input ∧
          ∀ name, final'.store.get name = final.store.get name ∨
            (∀ read ∈ program.reads, Text.lowercase read ≠ Text.lowercase name) ∧
              final.store.get? name = s.store.get? name ∧
              final'.store.get? name = store'.get? name)
        (program.run bounds { s with store := store' })) ∧
    ∀ name, (∀ node ∈ program.nodes, ∀ target ∈ node.target?,
        Text.lowercase target ≠ Text.lowercase name) →
      ∀ final, (program.run bounds s).state? = some final →
        final.store.get? name = s.store.get? name := by
  refine ⟨fun store' hreads => ?_, fun name hname final => get?_of_run hname⟩
  refine (agrees_of_reads bounds hreads).imp fun final final' _ h => ?_
  have hlog : final'.log = final.log := h.log.symm
  refine ⟨fun prompts => ?_, State.trace_congr hlog, h.steps, h.input, h.store⟩
  rw [State.output, State.output, State.events, State.events, hlog]

/-- The program displays the same whether there is a variable that it knows nothing of, and leaves
that variable alone. -/
theorem Program.run_depends_with_unread :
    let program : Program :=
      ⟨[.assign (some 0) "w" (.var (some 0) "y"), .display (some 1) (.var (some 1) "W")]⟩
    let s : State := .initial (.ofList [("Y", 2)]) ""
    let store' : Store := .ofList [("y", 2), ("z", 5)]
    (∀ name ∈ program.reads, store'.get name = s.store.get name) ∧
      ∃ final final', (program.run ⟨none, 0⟩ s).state? = some final ∧
        (program.run ⟨none, 0⟩ { s with store := store' }).state? = some final' ∧
        final'.output true = final.output true ∧
        final.store.get? "z" = none ∧ final'.store.get? "Z" = some 5 := by
  intro program s store'
  have hreads : ∀ name ∈ program.reads, store'.get name = s.store.get name := by decide +kernel
  have hunset : ∀ node ∈ program.nodes, ∀ target ∈ node.target?,
      Text.lowercase target ≠ Text.lowercase "Z" := by decide +kernel
  obtain ⟨final, hfinal⟩ := Option.isSome_iff_exists.mp
    (show (program.run ⟨none, 0⟩ s).state?.isSome by decide +kernel)
  obtain ⟨final', hfinal'⟩ := Option.isSome_iff_exists.mp
    (show (program.run ⟨none, 0⟩ { s with store := store' }).state?.isSome by decide +kernel)
  have hagrees := (run_depends ⟨none, 0⟩ program s).1 store' hreads
  refine ⟨hreads, final, final', hfinal, hfinal', ?_, ?_, ?_⟩
  · exact (hagrees.of_state? hfinal hfinal').1 true
  · refine ((run_depends ⟨none, 0⟩ program s).2 "z" hunset final hfinal).trans ?_
    decide +kernel
  · refine ((run_depends ⟨none, 0⟩ program _).2 "Z" hunset final' hfinal').trans ?_
    decide +kernel

end Runs

end Offside

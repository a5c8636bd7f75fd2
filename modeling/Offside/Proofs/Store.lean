import Mathlib.Data.List.Dedup
import Mathlib.Data.List.Induction
import Mathlib.Data.List.Nodup
import Offside.Store

/-!
# What a store remembers

A store is made use of by **operations**: variables are set, and questions are asked. Of all the
operations done on a new store, its **history**, an answer only goes by the values that were put,
and of these only by the last one for each name in lower case. So a store is as good as its history,
and `answers_by_history` says so for every row of operations and for every answer in it.

A store **reflects** a history if it binds each name to the last value put there, and lists nothing
but names in lower case. Every operation keeps this up, and every answer is read off it.
-/

namespace Offside.Store

/-! ### Operations -/

/-- What is done with a store: a variable is set, or something is asked. -/
inductive Operation
  | put (name : String) (value : Int)
  | get (name : String)
  | contains (name : String)
  | size
  | list
  deriving DecidableEq, Repr

/-- What comes back from an operation. -/
inductive Answer
  | done
  | value (v : Int)
  | truth (holds : Bool)
  | count (n : Nat)
  | listing (entries : List (String × Int))
  deriving DecidableEq, Repr

/-- Does an operation: the answer to it, and the store behind it. -/
def perform (store : Store) : Operation → Answer × Store
  | .put name value => (.done, store.put name value)
  | .get name => (.value (store.get name), store)
  | .contains name => (.truth (store.contains name), store)
  | .size => (.count store.size, store)
  | .list => (.listing store.entries, store)

/-- The store behind operations that are done one after another. -/
def after (store : Store) (operations : List Operation) : Store :=
  operations.foldl (fun store operation => (store.perform operation).2) store

/-- The answers to operations that are done one after another. -/
def answers (store : Store) : List Operation → List Answer
  | [] => []
  | operation :: rest =>
    (store.perform operation).1 :: answers (store.perform operation).2 rest

private theorem after_concat (store : Store) (operations : List Operation) (operation : Operation) :
    store.after (operations ++ [operation]) = ((store.after operations).perform operation).2 :=
  List.foldl_concat ..

/-- An operation is answered by the store that those in front of it leave behind. -/
private theorem getElem?_answers (store : Store) (operations : List Operation) (i : Nat) :
    (store.answers operations)[i]? =
      operations[i]?.map fun operation =>
        ((store.after (operations.take i)).perform operation).1 := by
  induction operations generalizing store i with
  | nil => rfl
  | cons operation rest ih =>
    cases i with
    | zero => rfl
    | succ i => exact ih (store.perform operation).2 i

/-! ### Histories -/

namespace Operation

/-- The value that an operation puts under a name, in whatever case, if it does that. -/
def valueFor? (name : String) : Operation → Option Int
  | put key value => if Text.lowercase key = Text.lowercase name then some value else none
  | get _ | contains _ | size | list => none

/-- The name that an operation sets, in lower case, if it sets one. -/
def key? : Operation → Option String
  | put name _ => some (Text.lowercase name)
  | get _ | contains _ | size | list => none

private theorem isSome_valueFor?_iff {name : String} {operation : Operation} :
    (operation.valueFor? name).isSome ↔ operation.key? = some (Text.lowercase name) := by
  cases operation with
  | put key value => simp [valueFor?, key?]
  | get | contains | size | list => simp [valueFor?, key?]

end Operation

/-- The values put under a name, in whatever case, in a history. -/
def valuesFor (name : String) (history : List Operation) : List Int :=
  history.filterMap (Operation.valueFor? name)

/-- The last value put under a name in a history, if there is any. -/
def lastValue? (name : String) (history : List Operation) : Option Int :=
  (valuesFor name history).getLast?

/-- The names set in a history, in lower case, as often as they are set. -/
def keys (history : List Operation) : List String :=
  history.filterMap Operation.key?

/-- What is the right answer to an operation that has a history in front of it. -/
def Answer.IsRight (history : List Operation) : Operation → Answer → Prop
  | .put _ _, answer => answer = .done
  | .get name, answer => answer = .value ((lastValue? name history).getD 0)
  | .contains name, answer =>
    ∃ holds, answer = .truth holds ∧ (holds = true ↔ Text.lowercase name ∈ keys history)
  | .size, answer => answer = .count (keys history).dedup.length
  | .list, answer =>
    ∃ entries, answer = .listing entries ∧ (entries.Pairwise fun a b => a.1 < b.1) ∧
      ∀ key value, (key, value) ∈ entries ↔
        ∃ name, Text.lowercase name = key ∧ lastValue? name history = some value

variable {history : List Operation} {store : Store}

private theorem lastValue?_concat (name : String) (history : List Operation)
    (operation : Operation) :
    lastValue? name (history ++ [operation]) =
      (operation.valueFor? name).or (lastValue? name history) := by
  rw [lastValue?, valuesFor, List.filterMap_append, List.getLast?_append]
  cases h : operation.valueFor? name <;> simp [h, lastValue?, valuesFor]

/-- Some value was put under the names that were set, and under no others. -/
theorem isSome_lastValue?_iff {name : String} :
    (lastValue? name history).isSome ↔ Text.lowercase name ∈ keys history := by
  simp only [Option.isSome_iff_ne_none, lastValue?, valuesFor, ne_eq, List.getLast?_eq_none_iff,
    List.filterMap_eq_nil_iff, not_forall, keys, List.mem_filterMap, exists_prop,
    ← Operation.isSome_valueFor?_iff]

private theorem exists_of_mem_keys {key : String} (h : key ∈ keys history) :
    ∃ name, Text.lowercase name = key := by
  obtain ⟨operation, -, hkey⟩ := List.mem_filterMap.mp h
  cases operation with
  | put name value => exact ⟨name, Option.some.inj hkey⟩
  | get | contains | size | list => cases hkey

/-! ### Stores that reflect a history -/

/-- Every name is listed once. -/
theorem nodup_names (store : Store) : (store.entries.map Prod.fst).Nodup :=
  List.pairwise_map.mpr (store.sorted.imp String.ne_of_lt)

/-- An entry is listed exactly where its name is bound to its value. -/
private theorem mem_entries_iff_lookup {entry : String × Int} :
    entry ∈ store.entries ↔ store.entries.lookup entry.1 = some entry.2 := by
  rw [List.lookup_eq_some_iff]
  constructor
  · intro h
    obtain ⟨before, behind, heq⟩ := List.append_of_mem h
    refine ⟨before, behind, heq, fun other hother => ?_⟩
    have hsorted := store.sorted
    rw [heq] at hsorted
    have hlt := (List.pairwise_append.mp hsorted).2.2 other hother entry List.mem_cons_self
    simpa using (String.ne_of_lt hlt).symm
  · rintro ⟨before, behind, heq, -⟩
    rw [heq]
    exact List.mem_append_right before List.mem_cons_self

/-- A store **reflects** a history. -/
structure Reflects (store : Store) (history : List Operation) : Prop where
  /-- Each name is bound to the last value that was put there. -/
  get?_eq : ∀ name, store.get? name = lastValue? name history
  /-- Names are listed in lower case. -/
  lowercase_eq : ∀ entry ∈ store.entries, Text.lowercase entry.1 = entry.1

private theorem reflects_empty : Reflects empty [] where
  get?_eq _ := rfl
  lowercase_eq _ h := absurd h List.not_mem_nil

namespace Reflects

variable (h : Reflects store history)

include h

/-- An operation is reflected, too. -/
theorem perform (operation : Operation) :
    Reflects (store.perform operation).2 (history ++ [operation]) := by
  cases operation with
  | put name value =>
    refine ⟨fun key => ?_, fun entry hentry => ?_⟩
    · rw [lastValue?_concat, Operation.valueFor?, ← h.get?_eq]
      refine (get?_put store name key value).trans ?_
      by_cases hkey : Text.lowercase key = Text.lowercase name
      · rw [if_pos hkey, if_pos hkey.symm, Option.some_or]
      · rw [if_neg hkey, if_neg (Ne.symm hkey), Option.none_or]
    · rcases mem_insertEntry hentry with rfl | hold
      · exact Text.lowercase_lowercase name
      · exact h.lowercase_eq entry hold
  | get | contains | size | list =>
    -- what only asks is no part of what was put
    refine ⟨fun key => ?_, h.lowercase_eq⟩
    rw [lastValue?_concat]
    exact h.get?_eq key

/-- What is listed are the names that were set, in lower case, each with its last value. -/
private theorem mem_entries_iff {key : String} {value : Int} :
    (key, value) ∈ store.entries ↔
      ∃ name, Text.lowercase name = key ∧ lastValue? name history = some value := by
  rw [mem_entries_iff_lookup]
  constructor
  · intro hlookup
    have hkey : Text.lowercase key = key :=
      h.lowercase_eq (key, value) (mem_entries_iff_lookup.mpr hlookup)
    refine ⟨key, hkey, ?_⟩
    rw [← h.get?_eq, get?, hkey]
    exact hlookup
  · rintro ⟨name, rfl, hvalue⟩
    rw [← h.get?_eq] at hvalue
    exact hvalue

/-- What is listed under a name is what the name is worth. -/
private theorem get_of_mem_entries {entry : String × Int} (hentry : entry ∈ store.entries) :
    store.get entry.1 = entry.2 := by
  rw [get, get?, h.lowercase_eq entry hentry, mem_entries_iff_lookup.mp hentry, Option.getD_some]

/-- The names that are listed are those that were set, in lower case. -/
private theorem mem_names_iff {key : String} :
    key ∈ store.entries.map Prod.fst ↔ key ∈ keys history := by
  simp only [List.mem_map, Prod.exists, exists_and_right, exists_eq_right, h.mem_entries_iff]
  constructor
  · rintro ⟨value, name, rfl, hvalue⟩
    exact isSome_lastValue?_iff.mp (Option.isSome_of_eq_some hvalue)
  · intro hkey
    obtain ⟨name, rfl⟩ := exists_of_mem_keys hkey
    obtain ⟨value, hvalue⟩ := Option.isSome_iff_exists.mp (isSome_lastValue?_iff.mpr hkey)
    exact ⟨value, name, rfl, hvalue⟩

/-- There are as many variables as different names that were set. -/
private theorem size_eq : store.size = (keys history).dedup.length := by
  have hperm : (store.entries.map Prod.fst).Perm (keys history).dedup :=
    (List.perm_ext_iff_of_nodup store.nodup_names (List.nodup_dedup _)).mpr fun key =>
      h.mem_names_iff.trans List.mem_dedup.symm
  rw [size, ← hperm.length_eq, List.length_map]

/-- Every answer is right by the history. -/
private theorem isRight (operation : Operation) :
    Answer.IsRight history operation (store.perform operation).1 := by
  cases operation with
  | put name value => exact rfl
  | get name => exact congrArg (fun value => Answer.value (value.getD 0)) (h.get?_eq name)
  | contains name =>
    refine ⟨store.contains name, rfl, ?_⟩
    rw [contains, h.get?_eq]
    exact isSome_lastValue?_iff
  | size => exact congrArg Answer.count h.size_eq
  | list => exact ⟨store.entries, rfl, store.sorted, fun key value => h.mem_entries_iff⟩

/-- Histories in which the same values are put under each name, in the same order, make the same
listing. -/
private theorem entries_eq {store' : Store} {history' : List Operation}
    (h' : Reflects store' history')
    (hvalues : ∀ name, valuesFor name history' = valuesFor name history) :
    store'.entries = store.entries := by
  have hmem : ∀ entry, entry ∈ store'.entries ↔ entry ∈ store.entries := by
    rintro ⟨key, value⟩
    simp only [h.mem_entries_iff, h'.mem_entries_iff, lastValue?, hvalues]
  have hperm : store'.entries.Perm store.entries :=
    (List.perm_ext_iff_of_nodup store'.nodup_names.of_map store.nodup_names.of_map).mpr hmem
  refine hperm.eq_of_pairwise (fun a b _ _ hab hba => ?_) store'.sorted store.sorted
  exact absurd (String.lt_trans hab hba) (String.lt_irrefl _)

end Reflects

/-- A new store reflects all that is done with it. -/
private theorem reflects_after (operations : List Operation) :
    Reflects (empty.after operations) operations := by
  induction operations using List.reverseRecOn with
  | nil => exact reflects_empty
  | append_singleton operations operation ih =>
    rw [after_concat]
    exact ih.perform operation

/-- **A store answers by its history.** When operations are done on a new store, one after another,
each of them is answered as it is right by the operations in front of it: a name is worth the last
value put there, or zero if there is none, and the listing is in the order of the names. Whatever
was done, a name that is listed is worth what is listed for it, and a listing only depends on which
values were put under each name, in which order, and not on how the names take turns. -/
theorem answers_by_history (operations : List Operation) :
    (∀ (i : Nat) (operation : Operation), operations[i]? = some operation →
      ∃ answer, (empty.answers operations)[i]? = some answer ∧
        answer.IsRight (operations.take i) operation) ∧
    (∀ entries, ((empty.after operations).perform .list).1 = .listing entries →
      ∀ entry ∈ entries, ((empty.after operations).perform (.get entry.1)).1 = .value entry.2) ∧
    ∀ operations' : List Operation,
      (∀ name, valuesFor name operations' = valuesFor name operations) →
        ((empty.after operations').perform .list).1 =
          ((empty.after operations).perform .list).1 := by
  refine ⟨fun i operation hi => ?_, fun entries hlisting entry hentry => ?_,
    fun operations' h => ?_⟩
  · refine ⟨_, ?_, (reflects_after (operations.take i)).isRight operation⟩
    rw [getElem?_answers, hi, Option.map_some]
  · cases hlisting
    exact congrArg Answer.value ((reflects_after operations).get_of_mem_entries hentry)
  · exact congrArg Answer.listing
      ((reflects_after operations).entries_eq (reflects_after operations') h)

/-- Names that differ in case are one variable, and it does not matter when the other one is set. -/
theorem answers_by_history_of_two_names :
    let operations : List Operation :=
      [.put "b" 1, .put "A" 2, .get "B", .put "B" 3, .contains "c", .list]
    let operations' : List Operation := [.put "A" 2, .put "b" 1, .put "B" 3]
    (empty.answers operations)[2]? = some (.value 1) ∧
      ((empty.after operations).perform (.get "a")).1 = .value 2 ∧
      ((empty.after operations').perform .list).1 = .listing [("a", 2), ("b", 3)] := by
  intro operations operations'
  obtain ⟨hanswers, hlisted, hreordered⟩ := answers_by_history operations
  have hlisting : ((empty.after operations).perform .list).1 = .listing [("a", 2), ("b", 3)] := by
    decide +kernel
  refine ⟨?_, hlisted _ hlisting ("a", 2) List.mem_cons_self, ?_⟩
  · obtain ⟨answer, hanswer, hright⟩ := hanswers 2 (.get "B") rfl
    have hlast : lastValue? "B" (operations.take 2) = some 1 := by decide +kernel
    rw [hanswer, show answer = _ from hright, hlast, Option.getD_some]
  · refine (hreordered operations' fun name => ?_).trans hlisting
    have hb : Text.lowercase "b" = "b" := by decide +kernel
    have hB : Text.lowercase "B" = "b" := by decide +kernel
    have hA : Text.lowercase "A" = "a" := by decide +kernel
    simp only [valuesFor, operations, operations', List.filterMap_cons, Operation.valueFor?, hb, hB,
      hA]
    -- a name is one of the two, or neither
    by_cases ha : "a" = Text.lowercase name
    · have hne : "b" ≠ Text.lowercase name := ha ▸ by decide
      simp only [if_pos ha, if_neg hne]
    · simp only [if_neg ha]

end Offside.Store

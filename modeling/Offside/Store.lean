import Offside.Text.Lowercase

/-!
# The store of variables

A store gives the variables of a program their values. Names that differ only in case are one
variable, and a variable that was never set has the value zero.

A store lists its **entries** by lower-case name, strictly increasing, so that it is determined
by what it says about each name, and listing it needs no sorting.
-/

namespace Offside

/-- The values of variables, by lower-case name in increasing order. -/
structure Store where
  entries : List (String × Int)
  sorted : entries.Pairwise fun a b => a.1 < b.1
  deriving DecidableEq, Repr

namespace Store

/-- No variable set. -/
def empty : Store := ⟨[], .nil⟩

/-- Entries with one more, in its place; an entry of the same name gives way to it. -/
def insertEntry (name : String) (value : Int) : List (String × Int) → List (String × Int)
  | [] => [(name, value)]
  | entry :: rest =>
    if name < entry.1 then (name, value) :: entry :: rest
    else if name = entry.1 then (name, value) :: rest
    else entry :: insertEntry name value rest

/-- Inserting adds no names but the one inserted. -/
theorem mem_insertEntry {name : String} {value : Int} {entries : List (String × Int)}
    {e : String × Int} (h : e ∈ insertEntry name value entries) :
    e = (name, value) ∨ e ∈ entries := by
  induction entries with
  | nil => exact Or.inl (List.mem_singleton.mp h)
  | cons entry rest ih =>
    rw [insertEntry] at h
    split at h
    · exact List.mem_cons.mp h
    · split at h
      · exact (List.mem_cons.mp h).imp id (List.mem_cons_of_mem _)
      · rcases List.mem_cons.mp h with rfl | h
        · exact Or.inr List.mem_cons_self
        · exact (ih h).imp id (List.mem_cons_of_mem _)

theorem pairwise_insertEntry {name : String} {value : Int} {entries : List (String × Int)}
    (h : entries.Pairwise fun a b => a.1 < b.1) :
    (insertEntry name value entries).Pairwise fun a b => a.1 < b.1 := by
  induction entries with
  | nil => exact List.pairwise_singleton _ _
  | cons entry rest ih =>
    obtain ⟨hentry, hrest⟩ := List.pairwise_cons.mp h
    rw [insertEntry]
    split
    · next hlt =>
      refine List.pairwise_cons.mpr ⟨fun e he => ?_, h⟩
      rcases List.mem_cons.mp he with rfl | he
      · exact hlt
      · exact String.lt_trans hlt (hentry e he)
    · next hnlt =>
      split
      · next heq =>
        exact List.pairwise_cons.mpr ⟨fun e he => by simpa [heq] using hentry e he, hrest⟩
      · next hne =>
        refine List.pairwise_cons.mpr ⟨fun e he => ?_, ih hrest⟩
        rcases mem_insertEntry he with rfl | he
        · exact String.not_le.mp fun hle =>
            hne (String.le_antisymm hle (String.not_lt.mp hnlt))
        · exact hentry e he

/-- The store with the variable set to the value. -/
def put (store : Store) (name : String) (value : Int) : Store :=
  ⟨insertEntry (Text.lowercase name) value store.entries, pairwise_insertEntry store.sorted⟩

/-- The value that a variable was set to, if it was. -/
def get? (store : Store) (name : String) : Option Int :=
  store.entries.lookup (Text.lowercase name)

/-- The value of a variable. -/
def get (store : Store) (name : String) : Int :=
  (store.get? name).getD 0

/-- Whether a variable was set. -/
def contains (store : Store) (name : String) : Bool :=
  (store.get? name).isSome

/-- The number of variables that were set. -/
def size (store : Store) : Nat :=
  store.entries.length

/-! ### What a store says after a variable is set -/

theorem lookup_insertEntry (name : String) (value : Int) (entries : List (String × Int))
    (key : String) :
    (insertEntry name value entries).lookup key =
      if key = name then some value else entries.lookup key := by
  induction entries with
  | nil => grind [insertEntry]
  | cons entry rest ih => grind [insertEntry]

/-- Setting a variable gives that variable the value, under all spellings of its name, and
leaves every other one alone. -/
theorem get?_put (store : Store) (name key : String) (value : Int) :
    (store.put name value).get? key =
      if Text.lowercase key = Text.lowercase name then some value else store.get? key :=
  lookup_insertEntry ..

/-- A store with the given variables set, one after another. -/
def ofList (vars : List (String × Int)) : Store :=
  vars.foldl (fun store (name, value) => store.put name value) empty

end Store

end Offside

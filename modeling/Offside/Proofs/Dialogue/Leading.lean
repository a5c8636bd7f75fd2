import Offside.Proofs.Dialogue.Snippet

/-!
# Leading a dialogue

A dialogue asks for a line, takes it off the input and does with it what its role says. The number
of lines that it may take is no limit to it: each line takes something of the input, whatever is
done with it, so the input ends first. So leading a dialogue is taking a line and leading on
(`Dialogue.lead_eq`).
-/

namespace Offside

open Numeral (IsWritable)
open Text (takeLine)

variable {bounds : Bounds} {line : String}

namespace Dialogue

variable {d d' : Dialogue}

/-! ### One line -/

/-- The line that comes next, unless the input is at its end. -/
def nextLine? (d : Dialogue) : Option String :=
  match (takeLine d.input).1 with
  | [] => none
  | typed =>
    some (.ofList (if typed.getLast? = some '\n' then typed.dropLast else typed))

/-- The dialogue that has asked for a line, the first one of a segment or a further one, and has
taken it. -/
def hear (further : Bool) (d : Dialogue) : Dialogue :=
  { d.say (.prompt further) with input := (takeLine d.input).2 }

/-- What a line makes of a dialogue that has taken it. -/
def obey (bounds : Bounds) (line : String) (d : Dialogue) : Turn :=
  match Role.ofLine d.pending line with
  | .quit => .over .quit d
  | .list => list d.store.entries d
  | .skip => .next d
  | .keep => .next { d with pending := line :: d.pending }
  | .submit lines => { d with pending := [] }.submit bounds lines

theorem nextLine?_eq_none_iff : d.nextLine? = none ↔ d.input = [] := by
  rw [nextLine?]
  constructor
  · intro h
    by_contra hinput
    split at h
    · next htyped => exact Text.takeLine_fst_ne_nil hinput htyped
    · cases h
  · intro h
    rw [h]
    rfl

/-- At the end of the input the dialogue is over. -/
theorem step_of_input_eq_nil (h : d.input = []) :
    d.step bounds =
      .over .endOfInput ((d.say (.prompt !d.pending.isEmpty)).say (.message "")) := by
  have hinput : (d.say (.prompt !d.pending.isEmpty)).input = [] := h
  simp only [step, hinput, takeLine]

/-- A line that is heard is obeyed. -/
theorem step_of_nextLine? (h : d.nextLine? = some line) :
    d.step bounds = (d.hear !d.pending.isEmpty).obey bounds line := by
  unfold nextLine? at h
  unfold step hear obey
  dsimp only [say]
  generalize takeLine d.input = taken at h ⊢
  obtain ⟨typed, rest⟩ := taken
  cases typed with
  | nil => cases h
  | cons c typed =>
    cases h
    rfl

/-- A line takes something of the input. -/
theorem length_hear_lt (h : d.nextLine? = some line) (further : Bool) :
    (d.hear further).input.length < d.input.length := by
  have hinput : d.input ≠ [] := fun hnil => by
    rw [nextLine?_eq_none_iff.mpr hnil] at h
    cases h
  exact Text.length_takeLine_snd_lt hinput

/-! ### Listings -/

/-- The dialogue with more entries, in order. -/
def enter (entries : List Entry) (d : Dialogue) : Dialogue :=
  { d with entries := entries.reverse ++ d.entries }

/-- The entries that list variables with their values. -/
def listings (pairs : List (String × Int)) : List Entry :=
  pairs.map fun (name, value) => .listing name value

private theorem enter_listings_cons (name : String) (value : Int) (pairs : List (String × Int))
    (d : Dialogue) :
    d.enter (listings ((name, value) :: pairs)) =
      (d.say (.listing name value)).enter (listings pairs) := by
  simp [enter, listings, say]

-- the limit on digits is too large a power to be computed
attribute [local irreducible] Numeral.write in
private theorem list_cons (name : String) (value : Int) (pairs : List (String × Int))
    (d : Dialogue) :
    list ((name, value) :: pairs) d =
      match Numeral.write value with
      | .error b => .over (.broken b) d
      | .ok _ => list pairs (d.say (.listing name value)) :=
  rfl

/-- A variable that can be written is listed, -/
private theorem list_of_isWritable {name : String} {value : Int} (h : IsWritable value)
    (pairs : List (String × Int)) (d : Dialogue) :
    list ((name, value) :: pairs) d = list pairs (d.say (.listing name value)) := by
  rw [list_cons, Numeral.write_of_isWritable h]

/-- and one that cannot be ends the dialogue. -/
private theorem list_of_not_isWritable {name : String} {value : Int} (h : ¬ IsWritable value)
    (pairs : List (String × Int)) (d : Dialogue) :
    list ((name, value) :: pairs) d = .over (.broken .valueTooLong) d := by
  rw [list_cons, Numeral.write_of_not_isWritable h]

/-- Variables are listed, up to the first whose value cannot be written. -/
theorem list_eq (pairs : List (String × Int)) (d : Dialogue) :
    ((∀ pair ∈ pairs, IsWritable pair.2) ∧
      list pairs d = .next (d.enter (listings pairs))) ∨
    ∃ front long back, pairs = front ++ long :: back ∧
      (∀ pair ∈ front, IsWritable pair.2) ∧ ¬ IsWritable long.2 ∧
      list pairs d = .over (.broken .valueTooLong) (d.enter (listings front)) := by
  induction pairs generalizing d with
  | nil => exact .inl ⟨List.forall_mem_nil _, rfl⟩
  | cons first rest ih =>
    obtain ⟨name, value⟩ := first
    by_cases hfirst : IsWritable value
    · rw [list_of_isWritable hfirst]
      rcases ih (d.say (.listing name value)) with
        ⟨hrest, heq⟩ | ⟨front, long, back, rfl, hfront, hlong, heq⟩
      · exact .inl ⟨List.forall_mem_cons.mpr ⟨hfirst, hrest⟩, by rw [heq, enter_listings_cons]⟩
      · refine .inr ⟨(name, value) :: front, long, back, rfl, ?_, hlong, ?_⟩
        · exact List.forall_mem_cons.mpr ⟨hfirst, hfront⟩
        · rw [heq, enter_listings_cons]
    · rw [list_of_not_isWritable hfirst]
      exact .inr ⟨[], (name, value), rest, rfl, List.forall_mem_nil _, hfirst, rfl⟩

private theorem input_suffix_of_list (pairs : List (String × Int)) (d : Dialogue) :
    (list pairs d).dialogue.input <:+ d.input := by
  rcases list_eq pairs d with ⟨-, heq⟩ | ⟨_, _, _, -, -, -, heq⟩ <;>
    exact heq ▸ List.suffix_rfl

/-! ### One line after another -/

/-- A command takes lines from the front of the input. -/
private theorem input_suffix_of_obey (bounds : Bounds) (line : String) (d : Dialogue) :
    (d.obey bounds line).dialogue.input <:+ d.input := by
  unfold obey
  split
  · exact List.suffix_rfl
  · exact input_suffix_of_list d.store.entries d
  · exact List.suffix_rfl
  · exact List.suffix_rfl
  · next lines _ => exact (takes_submit bounds { d with pending := [] } lines).input_suffix

/-- **Each line** takes something of the input. -/
theorem input_lt_of_step (h : d.step bounds = .next d') : d'.input.length < d.input.length := by
  cases hline : d.nextLine? with
  | none =>
    rw [step_of_input_eq_nil (nextLine?_eq_none_iff.mp hline)] at h
    cases h
  | some line =>
    rw [step_of_nextLine? hline] at h
    have hobey := (input_suffix_of_obey bounds line (d.hear !d.pending.isEmpty)).length_le
    rw [h] at hobey
    exact Nat.lt_of_le_of_lt hobey (length_hear_lt hline _)

/-- More lines than the input has characters are not needed. -/
private theorem steps_eq_steps {n m : Nat} (hn : d.input.length < n) (hm : d.input.length < m) :
    steps bounds n d = steps bounds m d := by
  induction n generalizing d m with
  | zero => cases hn
  | succ n ih =>
    cases m with
    | zero => cases hm
    | succ m =>
      rw [steps, steps]
      split
      · next d' hstep =>
        have hlt := input_lt_of_step hstep
        exact ih (by omega) (by omega)
      · rfl

end Dialogue

/-- Goes on to the end of the dialogue. -/
def Turn.lead (bounds : Bounds) : Turn → Ending × Dialogue
  | .next d => d.lead bounds
  | .over ending d => (ending, d)

namespace Dialogue

/-- **Leading** a dialogue is taking a line and leading on. -/
theorem lead_eq (bounds : Bounds) (d : Dialogue) :
    d.lead bounds = (d.step bounds).lead bounds := by
  rw [lead, steps]
  split
  · next d' hstep =>
    rw [hstep]
    exact steps_eq_steps (input_lt_of_step hstep) (Nat.lt_succ_self _)
  · next ending d' hstep =>
    rw [hstep]
    rfl

end Dialogue

end Offside

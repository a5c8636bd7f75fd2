/-!
# Computations that fail

A sequence of computations succeeds when each of them does.
-/

namespace Offside

variable {ε α β : Type}

theorem ok_bind (a : α) (next : α → Except ε β) : (Except.ok a >>= next) = next a :=
  rfl

/-- A computation succeeds with what follows it when both do. -/
theorem bind_eq_ok_iff {first : Except ε α} {next : α → Except ε β} {result : β} :
    (first >>= next) = .ok result ↔ ∃ a, first = .ok a ∧ next a = .ok result := by
  cases first with
  | error failure => simp [bind, Except.bind]
  | ok a => simp [bind, Except.bind]

/-- A sequence fails as its first part does, or else as what follows it. -/
theorem bind_eq_error_iff {first : Except ε α} {next : α → Except ε β} {failure : ε} :
    (first >>= next) = .error failure ↔
      first = .error failure ∨ ∃ a, first = .ok a ∧ next a = .error failure := by
  cases first with
  | error e => simp [bind, Except.bind]
  | ok a => simp [bind, Except.bind]

theorem map_eq_ok_iff {first : Except ε α} {f : α → β} {result : β} :
    first.map f = .ok result ↔ ∃ a, first = .ok a ∧ f a = result := by
  cases first with
  | error failure => simp [Except.map]
  | ok a => simp [Except.map]

theorem exists_eq_ok {first : Except ε α} (h : first.isOk = true) : ∃ a, first = .ok a := by
  cases first with
  | error failure => cases h
  | ok a => exact ⟨a, rfl⟩

/-- A computation whose result has a property that can be decided. -/
theorem exists_eq_ok_and (first : Except ε α) (p : α → Prop) [DecidablePred p]
    (h : (first.map fun a => decide (p a)).toOption = some true) :
    ∃ a, first = .ok a ∧ p a := by
  cases first with
  | error failure => cases h
  | ok a => exact ⟨a, rfl, of_decide_eq_true (Option.some.inj h)⟩

end Offside

import Mathlib.Algebra.Group.Nat.Defs
import Mathlib.Data.List.Basic
import Mathlib.Data.List.Induction
import Offside.Numeral.Decimal
import Offside.Text.Cased
import Offside.Token.Kind

/-!
# Numerals within the limit

The canonical text of a number is a numeral, and it is within the limit on digits exactly when
the number is below the bound. A numeral within the limit stands for a number below the bound.

An integer has just one text without needless zeros that stands for it, its **decimal**, and that
is what is written for it (`isDecimal_iff`).
-/

namespace Offside.Numeral

theorem bound_eq : bound = 10 ^ digitLimit := by
  delta bound
  -- the power is too large to be computed
  generalize digitLimit = limit
  exact Nat.pow_eq

private theorem digit_lt {c : Char} (h : c.isDigit = true) : c.toNat - '0'.toNat < 10 := by
  have hrange := Text.isDigit_iff.mp h
  have hzero : '0'.toNat = 48 := rfl
  omega

/-- So many digits make a number below that power of ten. -/
private theorem value_lt {digits : List Char} (h : ∀ c ∈ digits, c.isDigit = true) :
    value digits < 10 ^ digits.length := by
  induction digits with
  | nil => simp [value]
  | cons c digits ih =>
    obtain ⟨hc, hdigits⟩ := List.forall_mem_cons.mp h
    have hle : c.toNat - '0'.toNat ≤ 9 := Nat.le_of_lt_succ (digit_lt hc)
    have hrest := ih hdigits
    have hscaled := Nat.mul_le_mul_left (10 ^ digits.length) hle
    rw [value, Nat.ofDigitChars_cons, Nat.ofDigitChars_eq_ofDigitChars_zero, Nat.mul_zero,
      Nat.zero_add, List.length_cons, Nat.pow_succ]
    rw [value] at hrest
    omega

/-- What is read as a number is below the bound. -/
theorem lt_bound_of_read {digits : List Char} {n : Nat}
    (hdigits : ∀ c ∈ digits, c.isDigit = true) (h : read digits = .ok n) : n < bound := by
  unfold read at h
  split at h
  · next hlength =>
    cases h
    rw [bound_eq]
    exact Nat.lt_of_lt_of_le (value_lt hdigits) (Nat.pow_le_pow_right (by decide) hlength)
  · cases h

/-- The canonical text of a number is a numeral. -/
theorem isNumeral_repr (n : Nat) : Kind.isNumeral n.repr.toList = true := by
  rw [Kind.isNumeral, Nat.toList_repr, Bool.and_eq_true]
  refine ⟨by simp, List.all_eq_true.mpr fun c hc => ?_⟩
  exact Nat.isDigit_of_mem_toDigits (by decide) (by decide) hc

/-- A number below the bound takes no more digits than the limit. -/
theorem length_repr_le {n : Nat} (h : n < bound) : n.repr.toList.length ≤ digitLimit := by
  rw [bound_eq] at h
  rw [String.length_toList]
  exact (Nat.length_repr_le_iff (by decide)).mpr h

/-- A value is **writable** when its text has no more digits than the limit allows. -/
def IsWritable (value : Int) : Prop :=
  value.natAbs < bound

/-- A number within the bound is written in decimal, -/
theorem write_of_isWritable {value : Int} (h : IsWritable value) :
    write value = .ok (render value) :=
  if_pos h

/-- and any other is not written. -/
theorem write_of_not_isWritable {value : Int} (h : ¬ IsWritable value) :
    write value = .error .valueTooLong :=
  if_neg h

/-! ### Decimals -/

/-- Digits are **canonical** when there is at least one of them, and no zero in front of others. -/
def IsCanonical (digits : List Char) : Prop :=
  Kind.isNumeral digits = true ∧ (digits.head? = some '0' → digits = ['0'])

/-- The **decimal** of an integer: the canonical digits of its magnitude, with a minus sign in
front if it is negative. -/
def IsDecimal (v : Int) (text : String) : Prop :=
  ∃ digits, IsCanonical digits ∧ value digits = v.natAbs ∧
    text.toList = if v < 0 then '-' :: digits else digits

/-- Decimal digits that are written are canonical. -/
private theorem isCanonical_repr (n : Nat) : IsCanonical n.repr.toList := by
  refine ⟨isNumeral_repr n, ?_⟩
  rw [Nat.toList_repr]
  induction n using Nat.strongRecOn with
  | ind n ih =>
    rw [Nat.toDigits_eq_if (by decide)]
    split
    · simp
    · next hlarge =>
      intro hzero
      rw [List.head?_append_of_ne_nil _ Nat.toDigits_ne_nil] at hzero
      have hfront := ih (n / 10) (by omega) hzero
      -- then the digits in front stand for zero
      have hvalue : Nat.ofDigitChars 10 (Nat.toDigits 10 (n / 10)) 0 = n / 10 :=
        Nat.ofDigitChars_ten_toDigits
      rw [hfront] at hvalue
      have hnone : n / 10 = 0 := hvalue.symm
      omega

/-- A digit is what its value is written with. -/
private theorem digitChar_of_isDigit {c : Char} (h : c.isDigit = true) :
    Nat.digitChar (c.toNat - '0'.toNat) = c := by
  have htable : ∀ d < 10, Nat.digitChar d = Char.ofNat ('0'.toNat + d) := by decide
  have hzero : '0'.toNat ≤ c.toNat := (Text.isDigit_iff.mp h).1
  rw [htable _ (digit_lt h), Nat.add_sub_cancel' hzero, Char.ofNat_toNat]

/-- Canonical digits are what their value is written with. -/
theorem IsCanonical.toDigits_value {digits : List Char} (h : IsCanonical digits) :
    Nat.toDigits 10 (value digits) = digits := by
  obtain ⟨hnumeral, hlead⟩ := h
  rw [Kind.isNumeral, Bool.and_eq_true, List.all_eq_true] at hnumeral
  obtain ⟨hne, hdigits⟩ := hnumeral
  induction digits using List.reverseRecOn with
  | nil => cases hne
  | append_singleton front c ih =>
    obtain ⟨hfront, hc⟩ := List.forall_mem_append.mp hdigits
    have hd := digit_lt (hc c List.mem_cons_self)
    have hchar := digitChar_of_isDigit (hc c List.mem_cons_self)
    have hvalue : value (front ++ [c]) = 10 * value front + (c.toNat - '0'.toNat) := by
      rw [value, Nat.ofDigitChars_append]
      rfl
    cases front with
    | nil =>
      rw [hvalue]
      change Nat.toDigits 10 (0 + _) = _
      rw [Nat.zero_add, Nat.toDigits_of_lt_base hd, hchar]
      rfl
    | cons first front =>
      have hfirst : (first :: front).head? ≠ some '0' := fun hzero => by
        have hall := hlead hzero
        simp at hall
      have hwritten := ih (fun hzero => absurd hzero hfirst) rfl hfront
      have hpos : 0 < value (first :: front) := by
        refine Nat.pos_of_ne_zero fun hzero => hfirst ?_
        rw [← hwritten, hzero]
        rfl
      rw [hvalue, ← Nat.toDigits_append_toDigits (by decide) hpos hd, hwritten,
        Nat.toDigits_of_lt_base hd, hchar]

private theorem toList_render (v : Int) : (render v).toList =
    if v < 0 then '-' :: v.natAbs.repr.toList else v.natAbs.repr.toList := by
  cases v with
  | ofNat n =>
    rw [if_neg (by simp)]
    rfl
  | negSucc n =>
    rw [if_pos (by omega), render, String.toList_append]
    rfl

/-- **An integer has one decimal**, and that is what is written for it. -/
theorem isDecimal_iff {v : Int} {text : String} : IsDecimal v text ↔ text = render v := by
  constructor
  · rintro ⟨digits, hcanonical, hvalue, htext⟩
    have hdigits : v.natAbs.repr.toList = digits := by
      rw [Nat.toList_repr, ← hvalue, hcanonical.toDigits_value]
    rw [← String.toList_inj, htext, toList_render, hdigits]
  · rintro rfl
    exact ⟨v.natAbs.repr.toList, isCanonical_repr _, value_repr _, toList_render v⟩

end Offside.Numeral

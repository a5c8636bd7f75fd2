import Offside.Breakdown

/-!
# Decimal numerals

Numbers as text, in both directions, and the limit on their length. Reading counts the digits
as they are written, leading zeros included, and never the sign. Writing gives the canonical
numeral, without leading zeros and with a minus sign for a negative number, and counts the
digits of that. A number within the limit that is written reads back as itself.
-/

namespace Offside.Numeral

/-- The least magnitude that takes more digits to write than the limit allows. -/
def bound : Nat := Nat.pow 10 digitLimit

/-- The number that a string of decimal digits stands for. -/
def value (digits : List Char) : Nat :=
  Nat.ofDigitChars 10 digits 0

/-- Reads a string of decimal digits, if it is within the limit. -/
def read (digits : List Char) : Except Breakdown Nat :=
  if digits.length ≤ digitLimit then .ok (value digits) else .error (.numeralTooLong digits.length)

/-- The canonical decimal text of a number, of whatever length. -/
def render : Int → String
  | .ofNat n => n.repr
  | .negSucc n => "-" ++ (n + 1).repr

/-- Writes a number, if it is within the limit. -/
def write (v : Int) : Except Breakdown String :=
  if v.natAbs < bound then .ok (render v) else .error .valueTooLong

/-- Takes a sign off the front of a text: whether there is a minus sign, and what is behind the
sign, if there is one. -/
def splitSign : List Char → Bool × List Char
  | '-' :: rest => (true, rest)
  | '+' :: rest => (false, rest)
  | text => (false, text)

/-- A signed numeral taken apart: whether it has a minus sign, and its digits. The sign is
optional, a digit is not, and nothing else may stand there. -/
def signed? (text : List Char) : Option (Bool × List Char) :=
  let (negative, digits) := splitSign text
  if !digits.isEmpty && digits.all Char.isDigit then some (negative, digits) else none

/-- The number of a magnitude and a sign. -/
def withSign (negative : Bool) (magnitude : Nat) : Int :=
  if negative then -magnitude else magnitude

/-! ### What is written reads back -/

theorem value_repr (n : Nat) : value n.repr.toList = n := by
  rw [Nat.repr, String.toList_ofList]
  exact Nat.ofDigitChars_toDigits (by decide) (by decide)

end Offside.Numeral

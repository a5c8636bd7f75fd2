/-!
# Blank characters

Which characters count as white space, and what is left of a text when the white space at
its ends is taken away. The same class serves everywhere white space matters: between the
tokens of a line, around a number that is typed in, and in deciding whether a line is blank.

Texts are lists of characters here, so that scanning a text is recursion on a list.
-/

namespace Offside.Text

/-- White space: the Unicode separators, the ASCII control characters from tabulation to
carriage return and from file separator to space, and the next-line control. -/
def isBlank (c : Char) : Bool :=
  let n := c.toNat
  (0x09 ≤ n && n ≤ 0x0D) || (0x1C ≤ n && n ≤ 0x20) || n == 0x85 || n == 0xA0 || n == 0x1680 ||
    (0x2000 ≤ n && n ≤ 0x200A) || n == 0x2028 || n == 0x2029 || n == 0x202F || n == 0x205F ||
    n == 0x3000

/-- Nothing but white space; the empty text is blank. -/
def isBlankText (cs : List Char) : Bool :=
  cs.all isBlank

/-- A text without its leading white space. -/
def trimStart (cs : List Char) : List Char :=
  cs.dropWhile isBlank

/-- A text without its trailing white space. -/
def trimEnd : List Char → List Char
  | [] => []
  | c :: cs =>
    match trimEnd cs with
    | [] => if isBlank c then [] else [c]
    | kept => c :: kept

/-- A text without the white space at its two ends. -/
def trim (cs : List Char) : List Char :=
  trimEnd (trimStart cs)

/-! ### Blank texts are those of which nothing is left -/

theorem trimEnd_eq_nil_iff {cs : List Char} : trimEnd cs = [] ↔ isBlankText cs = true := by
  induction cs with
  | nil => simp [trimEnd, isBlankText]
  | cons c cs ih =>
    simp only [trimEnd, isBlankText, List.all_cons, Bool.and_eq_true] at ih ⊢
    rw [← ih]
    split <;> simp_all

theorem isBlankText_trimStart (cs : List Char) :
    isBlankText (trimStart cs) = isBlankText cs := by
  induction cs with
  | nil => rfl
  | cons c cs ih =>
    simp only [trimStart, isBlankText] at ih ⊢
    cases h : isBlank c <;> simp [h, ih]

theorem trim_eq_nil_iff {cs : List Char} : trim cs = [] ↔ isBlankText cs = true := by
  rw [trim, trimEnd_eq_nil_iff, isBlankText_trimStart]

end Offside.Text

/-!
# Lines of a text

Two ways of cutting a text into lines, for its two sources. A **program text** ends its lines
at any of the Unicode line boundaries (`lines`), and a boundary at the very end opens no
further line. **Typed input** ends its lines at the line feed alone (`takeLine`), one line at a
time, and a line keeps its line feed, so that only the end of the input reads as empty.
-/

namespace Offside.Text

/-- The characters that end a line of a program text. -/
def isLineBreak (c : Char) : Bool :=
  let n := c.toNat
  (0x0A ≤ n && n ≤ 0x0D) || (0x1C ≤ n && n ≤ 0x1E) || n == 0x85 || n == 0x2028 || n == 0x2029

/-- Cuts a text at its line boundaries; a carriage return and the line feed behind it are one
boundary. -/
def splitLines : List Char → List (List Char)
  | [] => []
  | '\r' :: '\n' :: cs => [] :: splitLines cs
  | c :: cs =>
    if isLineBreak c then [] :: splitLines cs
    else
      match splitLines cs with
      | [] => [[c]]
      | line :: rest => (c :: line) :: rest

/-- The lines of a program text. -/
def lines (source : String) : List String :=
  (splitLines source.toList).map String.ofList

/-- The first line of typed input, its line feed included, and the input behind it. -/
def takeLine : List Char → List Char × List Char
  | [] => ([], [])
  | '\n' :: cs => (['\n'], cs)
  | c :: cs => (c :: (takeLine cs).1, (takeLine cs).2)

/-! ### Taking a line off the input -/

/-- Nothing of the input is lost. -/
theorem takeLine_append (cs : List Char) : (takeLine cs).1 ++ (takeLine cs).2 = cs := by
  fun_induction takeLine cs with
  | case1 => rfl
  | case2 cs => rfl
  | case3 c cs _ ih => simp [ih]

theorem takeLine_fst_ne_nil {cs : List Char} (h : cs ≠ []) : (takeLine cs).1 ≠ [] := by
  fun_cases takeLine cs with
  | case1 => exact absurd rfl h
  | case2 cs => simp
  | case3 c cs _ => simp

/-- Taking a line makes the input shorter, until there is none. -/
theorem length_takeLine_snd_lt {cs : List Char} (h : cs ≠ []) :
    (takeLine cs).2.length < cs.length := by
  have happ := congrArg List.length (takeLine_append cs)
  have hpos := List.length_pos_iff.mpr (takeLine_fst_ne_nil h)
  rw [List.length_append] at happ
  omega

end Offside.Text

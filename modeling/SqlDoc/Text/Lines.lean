/-
# Lines of a text

A line feed, a carriage return and the two together as `\r\n` each end a line. A text has one
more line than it has line ends, so the empty text is one empty line.

Key definitions: `splitLines`, `joinLines`, `tidyLines`.
Key theorems: `splitLines_ne_nil`, `splitLines_of_unbroken`.
-/
import SqlDoc.Text.Blank

namespace SqlDoc.Text

/-- The character ends a line, alone or as half of `\r\n`. -/
def isLineEnd (c : Char) : Bool :=
  c == '\n' || c == '\r'

/-- Puts a character in front of the first line. -/
def consLine (c : Char) : List (List Char) → List (List Char)
  | [] => [[c]]
  | line :: lines => (c :: line) :: lines

/-- The lines of a text, without what ends them. -/
def splitLines : List Char → List (List Char)
  | [] => [[]]
  | '\r' :: '\n' :: rest => [] :: splitLines rest
  | c :: rest => if isLineEnd c then [] :: splitLines rest else consLine c (splitLines rest)

/-- The lines as one text, a line feed between each two. -/
def joinLines (lines : List (List Char)) : List Char :=
  ['\n'].intercalate lines

/-- The text with every line trimmed and no blank lines at its ends. Line feeds alone end lines. -/
def tidyLines (text : List Char) : List Char :=
  let lines := (text.splitOn '\n').map trimChars
  joinLines (dropTrailing List.isEmpty (lines.dropWhile List.isEmpty))

theorem consLine_ne_nil (c : Char) (lines : List (List Char)) : consLine c lines ≠ [] := by
  cases lines <;> simp [consLine]

/-- Every text has a line. -/
theorem splitLines_ne_nil (text : List Char) : splitLines text ≠ [] := by
  fun_induction splitLines text with
  | case1 => simp
  | case2 => simp
  | case3 => simp
  | case4 => exact consLine_ne_nil _ _

/-- A text in which no character ends a line is one line. -/
theorem splitLines_of_unbroken {text : List Char} (h : ∀ c ∈ text, isLineEnd c = false) :
    splitLines text = [text] := by
  fun_induction splitLines text with
  | case1 => rfl
  | case2 => exact absurd (h '\r' (by simp)) (by decide)
  | case3 c rest _ hc => exact absurd (h c (by simp)) (by simp [hc])
  | case4 c rest _ _ ih =>
    rw [ih fun d hd => h d (List.mem_cons_of_mem c hd)]
    rfl

end SqlDoc.Text

/-
# Positions and spans

A position is a line and a column, both counted from one, and the file it lies in, if that is
known. Columns count characters. Positions are ordered by line and column alone: the file is
carried along for messages and takes no part in comparisons.

Reading a text moves a position to the place just past it: down by one line for each line end in
the text, and along by the characters after the last of them.

Key definitions: `Position`, `Position.advance`, `Position.display`, `Span`, `Span.merge`.
Key theorem: `Position.advance_of_unbroken`.
-/
import SqlDoc.Text.Lines

namespace SqlDoc

/-- How a position is written in a message. -/
inductive PositionFormat where
  /-- `file:line:column`, the file as given. -/
  | full
  /-- `line:column`. -/
  | lineColumn
  /-- `file:line:column`, the file without its directories. -/
  | name
  deriving DecidableEq, Repr

/-- A place in a source file. -/
structure Position where
  line : Nat
  column : Nat
  filename : Option String := none
  deriving DecidableEq, Repr

/-- The last part of a path. Empty parts and `.` do not count; `..` is no name. -/
def baseName (path : String) : Option String :=
  match ((path.splitOn "/").filter fun part => part != "" && part != ".").getLast? with
  | none => none
  | some part => if part = ".." then none else some part

namespace Position

/-- The first character of a file. -/
def start : Position where
  line := 1
  column := 1

/-- The same place in another file. -/
def inFile (p : Position) (filename : Option String) : Position :=
  { p with filename }

/-- The place just past `text`, which begins at `p`. -/
def advance (p : Position) (text : List Char) : Position :=
  match Text.splitLines text with
  | [] => p
  | [line] => { p with column := p.column + line.length }
  | line :: next :: lines =>
    { p with
      line := p.line + (lines.length + 1)
      column := 1 + ((next :: lines).getLastD line).length }

/-- Both are the same line and column, in whatever file. -/
def samePlace (p q : Position) : Bool :=
  p.line == q.line && p.column == q.column

/-- `p` comes before `q` in a file. -/
def before (p q : Position) : Bool :=
  p.line < q.line || (p.line == q.line && p.column < q.column)

/-- Line and column, without the file. -/
def coordinates (p : Position) : String :=
  s!"{p.line}:{p.column}"

/-- The position as a message writes it. -/
def display (p : Position) (format : PositionFormat := .full) : String :=
  match format, p.filename with
  | .full, some file => s!"{file}:{p.coordinates}"
  | .name, some file => s!"{(baseName file).getD file}:{p.coordinates}"
  | _, _ => p.coordinates

@[simp] theorem advance_nil (p : Position) : p.advance [] = p := rfl

/-- A text without a line end moves the column by its length. -/
theorem advance_of_unbroken (p : Position) {text : List Char}
    (h : ∀ c ∈ text, Text.isLineEnd c = false) :
    p.advance text = { p with column := p.column + text.length } := by
  rw [advance, Text.splitLines_of_unbroken h]

/-- Reading a text does not leave the file. -/
@[simp] theorem advance_filename (p : Position) (text : List Char) :
    (p.advance text).filename = p.filename := by
  unfold advance
  split <;> rfl

end Position

/-- The text from `start` up to, and not including, `stop`. -/
structure Span where
  start : Position
  stop : Position
  filename : Option String
  deriving DecidableEq, Repr

namespace Span

/-- The span between two positions, in the file of the first. -/
def between (start stop : Position) : Span where
  start
  stop
  filename := start.filename

/-- The span of no text at a position. -/
def point (p : Position) : Span :=
  between p p

/-- The same span, reported in another file. -/
def inFile (s : Span) (filename : Option String) : Span :=
  { s with filename }

/-- The span covers no text. -/
def isEmpty (s : Span) : Bool :=
  s.start.samePlace s.stop

/-- The position lies in the span. -/
def contains (s : Span) (p : Position) : Bool :=
  !p.before s.start && p.before s.stop

/-- Both cover the same lines and columns and are reported in the same file. -/
def same (s t : Span) : Bool :=
  s.start.samePlace t.start && s.stop.samePlace t.stop && s.filename == t.filename

/-- The least span that covers both. -/
def merge (s t : Span) : Span where
  start := if t.start.before s.start then t.start else s.start
  stop := if s.stop.before t.stop then t.stop else s.stop
  filename := s.filename.or t.filename

/-- `start-line:column`, the start with its file. -/
def display (s : Span) : String :=
  s!"{s.start.display}-{s.stop.coordinates}"

end Span
end SqlDoc

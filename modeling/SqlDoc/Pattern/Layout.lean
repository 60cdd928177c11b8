/-
# Patterns for layout

The two kinds of layout that scripts and comments have in common: a line end, which may be a line
feed, a carriage return or both, and a run of blanks that ends no line.

Key definitions: `Pattern.lineEnd`, `Pattern.blanks`.
-/
import SqlDoc.Pattern.Basic

namespace SqlDoc.Pattern

/-- One line end. The two characters of `\r\n` are one. -/
def lineEnd : Pattern :=
  choice [literal "\r\n", literal "\r", literal "\n"]

/-- The blanks that end no line. -/
def innerBlank : CharSet :=
  .diff (.property .blank) (.ofList ['\r', '\n'])

/-- A run of blanks inside a line. -/
def blanks : Pattern :=
  many (set innerBlank)

end SqlDoc.Pattern

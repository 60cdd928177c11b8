/-
# Blanks

The characters with the Unicode property `White_Space`, and what is left of a text when the
blanks at its ends are taken away.

Key definitions: `isBlank`, `trim`, `trimEnd`.
-/
import SqlDoc.Text.Ranges

namespace SqlDoc.Text

/-- The ranges of `White_Space`. -/
def blankRanges : Ranges := [
  (0x9, 0xD), (0x20, 0x20), (0x85, 0x85), (0xA0, 0xA0), (0x1680, 0x1680), (0x2000, 0x200A),
  (0x2028, 0x2029), (0x202F, 0x202F), (0x205F, 0x205F), (0x3000, 0x3000)]

/-- The character has the property `White_Space`. -/
def isBlank (c : Char) : Bool :=
  blankRanges.contains c

/-- The characters up to the last that does not satisfy `p`. -/
def dropTrailing {α : Type} (p : α → Bool) (items : List α) : List α :=
  (items.reverse.dropWhile p).reverse

/-- The characters without the blanks at both ends. -/
def trimChars (text : List Char) : List Char :=
  dropTrailing isBlank (text.dropWhile isBlank)

/-- The text without the blanks at both ends. -/
def trim (text : String) : String :=
  String.ofList (trimChars text.toList)

/-- The text without the blanks at its end. -/
def trimEnd (text : String) : String :=
  String.ofList (dropTrailing isBlank text.toList)

end SqlDoc.Text

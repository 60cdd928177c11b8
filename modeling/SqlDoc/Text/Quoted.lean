/-
# Doubled quotes

Inside a quoted name or string the quote itself is written twice. Reading the text back replaces
each pair, from the left, by one.

Key definition: `undouble`.
-/

namespace SqlDoc.Text

/-- Replaces each two `quote`s in a row by one. -/
def undouble (quote : Char) : List Char → List Char
  | c :: d :: rest =>
    if c = quote ∧ d = quote then quote :: undouble quote rest
    else c :: undouble quote (d :: rest)
  | rest => rest

end SqlDoc.Text

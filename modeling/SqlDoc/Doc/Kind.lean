/-
# Kinds of token of a documentation comment

Key definitions: `DocKind`, `DocToken`.
-/
import SqlDoc.Token

namespace SqlDoc

/-- The kinds of token of a documentation comment. -/
inductive DocKind where
  /-- `/**`. -/
  | commentStart
  /-- `*/`, with the stars before it. -/
  | commentEnd
  /-- The stars at the start of a line. -/
  | decoration
  | newline
  | whitespace
  /-- `@name`; its normal form is the name in lower case. -/
  | tag
  | url
  | identifier
  | number
  /-- A text in quotes, between braces or brackets only. -/
  | string
  /-- Anything else. -/
  | text
  /-- A character after a backslash; its normal form is the character. -/
  | escape
  | hash
  | lbrace
  | rbrace
  | lbracket
  | rbracket
  | lparen
  | rparen
  | equals
  | comma
  | dot
  | pipe
  | colon
  deriving DecidableEq, Repr

namespace DocKind

/-- A blank or a line end. -/
def isLayout : DocKind → Bool
  | whitespace | newline => true
  | _ => false

/-- Layout matters in running text, but not between braces or brackets. -/
instance : TokenKind DocKind where
  trivia
    | commentStart | commentEnd | decoration => .yes
    | newline | whitespace => .structured
    | _ => .no

end DocKind

/-- A token of a documentation comment. -/
abbrev DocToken := Token DocKind

end SqlDoc

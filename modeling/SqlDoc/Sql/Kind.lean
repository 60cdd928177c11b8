/-
# Kinds of token of a script

The lexer first splits a script into raw tokens: words that have not been looked up and the pieces
of comments. Joining the pieces and looking up the words gives the tokens that the grammar of
statements reads, so it never sees the last five kinds.

Key definitions: `SqlKind`, `SqlToken`, `SqlGroup`.
-/
import SqlDoc.Token

namespace SqlDoc

/-- The kinds of token of a script. -/
inductive SqlKind where
  | whitespace
  | newline
  /-- `-- ...` up to the line end. -/
  | lineComment
  /-- `/* ... */`. -/
  | blockComment
  /-- `/** ... */`. -/
  | docComment
  /-- A word that never names anything. -/
  | reserved
  /-- A word with a meaning of its own that may still name things. -/
  | keyword
  | identifier
  /-- A name in double quotes. -/
  | quotedIdentifier
  | string
  | number
  /-- `:name`. -/
  | bind
  /-- `&name` or `&&name`. -/
  | substitution
  | lparen
  | rparen
  | comma
  | semicolon
  | dot
  | percent
  | atSign
  | slash
  /-- Any other operator; the text says which. -/
  | operator
  /-- A character that nothing else accepts. -/
  | unknown
  /-- A word that has not been looked up. -/
  | word
  | lineOpen
  | blockOpen
  | commentText
  | blockClose
  deriving DecidableEq, Repr

namespace SqlKind

instance : TokenKind SqlKind where
  trivia
    | whitespace | newline | lineComment | blockComment | docComment
    | lineOpen | blockOpen | commentText | blockClose => .yes
    | _ => .no

/-- A comment with all its pieces. -/
def isComment : SqlKind → Bool
  | lineComment | blockComment | docComment => true
  | _ => false

/-- The kind can name a declaration. -/
def isName : SqlKind → Bool
  | identifier | quotedIdentifier | keyword => true
  | _ => false

/-- A word without quotes. -/
def isWord : SqlKind → Bool
  | reserved | keyword | identifier => true
  | _ => false

/-- The kind is for raw tokens only. -/
def isRaw : SqlKind → Bool
  | word | lineOpen | blockOpen | commentText | blockClose => true
  | _ => false

end SqlKind

/-- A token of a script. -/
abbrev SqlToken := Token SqlKind

/-- A group of tokens of a script. -/
abbrev SqlGroup := TokenGroup SqlKind

end SqlDoc

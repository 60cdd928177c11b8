/-
# The tokens of a script

The raw tokens of a script become the tokens that the grammar of statements reads. The pieces of a
comment are joined to one token, whose normal form is the text between its delimiters. A word is
looked up and gets its upper case as normal form; a name or a string in quotes gets the text that
the quotes hold.

Joining goes on to the end of a comment. If the script ends before that, the error takes the place
of the comment, so a script gives tokens up to an error, and no more after it.

Key definitions: `unquoteString`, `joinLine`, `joinBlock`, `cook`, `lexSql`.
-/
import SqlDoc.Lexer.Run
import SqlDoc.Name
import SqlDoc.Sql.Grammar
import SqlDoc.Sql.Keyword

namespace SqlDoc

/-- The characters without the first `n` and the last `n`. -/
def dropEnds {α : Type} (n : Nat) (items : List α) : List α :=
  (items.drop n).take (items.length - 2 * n)

/-- The text that a string literal stands for. -/
def unquoteString (text : String) : String :=
  let chars :=
    match text.toList with
    | 'n' :: rest => rest
    | 'N' :: rest => rest
    | chars => chars
  match chars with
  | 'q' :: rest => String.ofList (dropEnds 2 rest)
  | 'Q' :: rest => String.ofList (dropEnds 2 rest)
  | chars => String.ofList (Text.undouble '\'' (dropEnds 1 chars))

/-- A word looked up, with its upper case as normal form. -/
def cookWord (t : SqlToken) : SqlToken where
  kind :=
    match classify t.text with
    | some .reserved => .reserved
    | some .keyword => .keyword
    | _ => .identifier
  text := t.text
  value := Text.upper t.text
  span := t.span

/-- A raw token that is no piece of a comment, with its kind and its normal form. -/
def cookOne (t : SqlToken) : SqlToken :=
  match t.kind with
  | .word => cookWord t
  | .quotedIdentifier => { t with value := normalizeIdentifier t.text }
  | .string => { t with value := unquoteString t.text }
  | _ => t

/-- The pieces of a comment as one token. -/
def joinPieces (kind : SqlKind) (value : List Char → List Char) (first : SqlToken)
    (more : List SqlToken) : SqlToken :=
  let text := tokensText (first :: more)
  { kind
    text
    value := String.ofList (value text.toList)
    span := more.foldl (fun span t => span.merge t.span) first.span }

/-- A comment from `--` to the end of its line. -/
def joinLine (first : SqlToken) (more : List SqlToken) : SqlToken :=
  joinPieces .lineComment (·.drop 2) first more

/-- The comment's text begins with `/**` and is more than `/**/`. -/
def isDocText (text : List Char) : Bool :=
  "/**".toList.isPrefixOf text && 4 < text.length

/-- A comment from `/*` to `*/`. -/
def joinBlock (first : SqlToken) (more : List SqlToken) : SqlToken :=
  if isDocText (tokensText (first :: more)).toList then
    joinPieces .docComment (fun text => (text.drop 3).take (text.length - 5)) first more
  else
    joinPieces .blockComment (fun text => (text.drop 2).take (text.length - 4)) first more

/-- The tokens up to and with the first that closes a comment, and those after it. -/
def throughClose : List SqlToken → Option (List SqlToken × List SqlToken)
  | [] => none
  | t :: rest =>
    if t.kind = .blockClose then some ([t], rest)
    else (throughClose rest).map fun (pieces, rest) => (t :: pieces, rest)

theorem throughClose_append {tokens pieces rest : List SqlToken}
    (h : throughClose tokens = some (pieces, rest)) : tokens = pieces ++ rest := by
  induction tokens generalizing pieces with
  | nil => cases h
  | cons t tokens ih =>
    rw [throughClose] at h
    split at h
    · cases h
      rfl
    · obtain ⟨⟨p, r⟩, hp, heq⟩ := Option.map_eq_some_iff.1 h
      cases heq
      rw [ih hp]
      rfl

/-- The tokens of a script from its raw tokens. A comment that is not closed gives no token. -/
def cook : List SqlToken → List SqlToken
  | [] => []
  | t :: rest =>
    match t.kind with
    | .lineOpen =>
      let pieces := rest.takeWhile (·.kind = .commentText)
      joinLine t pieces :: cook (rest.drop pieces.length)
    | .blockOpen =>
      match _h : throughClose rest with
      | some (pieces, rest') => joinBlock t pieces :: cook rest'
      | none => []
    | _ => cookOne t :: cook rest
termination_by tokens => tokens.length
decreasing_by
  · simp only [List.length_drop, List.length_cons]
    omega
  · rw [throughClose_append _h]
    simp only [List.length_append, List.length_cons]
    omega
  · simp

/-- What a script is split into: its tokens, and the error that ends them, if there is one. -/
structure Lexed where
  tokens : List SqlToken
  error : Option LexError
  deriving DecidableEq, Repr

/-- The raw tokens of a script. -/
def lexRaw (source : String) (filename : Option String := none) :
    List SqlToken × Option LexError :=
  (Lexer.start sqlGrammar source.toList (Position.start.inFile filename)).run

/-- The tokens of a script. -/
def lexSql (source : String) (filename : Option String := none) : Lexed :=
  let (raw, error) := lexRaw source filename
  { tokens := cook raw, error }

end SqlDoc

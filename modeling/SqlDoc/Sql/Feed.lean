/-
# Tokens on demand

The tokens of a script may also be asked for one after the other. A feed reads raw tokens only as
far as the next token needs them: of a line comment its pieces and one raw token more, which it puts
back, and of a block comment the pieces up to its end. Asking gives a token, an error, or nothing;
after an error and after nothing the lexer is not asked again.

Key definitions: `SqlFeed`, `SqlFeed.pullRaw`, `SqlFeed.pull`, `SqlFeed.pullAt`.
-/
import SqlDoc.Sql.Lex

namespace SqlDoc

/-- What asking for a token gives: a token, an error, or nothing. -/
abbrev Pulled := Option (Except LexError SqlToken)

/-- A block comment that the raw tokens end in. -/
def joinUnclosed (first : SqlToken) (more : List SqlToken) : SqlToken :=
  if isDocText (tokensText (first :: more)).toList then joinPieces .docComment (·.drop 3) first more
  else joinPieces .blockComment (·.drop 2) first more

/-- A script whose tokens are asked for one after the other. -/
structure SqlFeed where
  lexer : Lexer sqlGrammar
  /-- The lexer has given an error or nothing. -/
  finished : Bool := false
  /-- What the lexer has given that is to be read again. -/
  putBack : Option Pulled := none

namespace SqlFeed

/-- The feed at the start of a script. -/
def ofSource (source : String) (filename : Option String := none) : SqlFeed where
  lexer := .start sqlGrammar source.toList (Position.start.inFile filename)

/-- The next raw token. -/
def pullRaw (f : SqlFeed) : Pulled × SqlFeed :=
  match f.putBack with
  | some pulled => (pulled, { f with putBack := none })
  | none =>
    if f.finished then (none, f)
    else
      match f.lexer.step with
      | .token t lexer => (some (.ok t), { f with lexer })
      | .failed e => (some (.error e), { f with finished := true })
      | .finished => (none, { f with finished := true })

/-- How much is left: the characters, and what is to be read again. -/
def size (f : SqlFeed) : Nat :=
  f.lexer.rest.length + if f.putBack.isSome then 1 else 0

theorem pullRaw_shorter {f next : SqlFeed} {t : SqlToken}
    (h : f.pullRaw = (some (.ok t), next)) : next.size < f.size := by
  unfold pullRaw at h
  split at h
  next pulled hback =>
    cases h
    simp [size, hback]
  next hback =>
    split at h
    · cases h
    · split at h <;> cases h
      rename_i hstep
      simpa [size, hback] using Lexer.step_shorter hstep

/-- The pieces of a line comment. What comes after them is put back. -/
def pullLine (f : SqlFeed) : List SqlToken × SqlFeed :=
  match _h : f.pullRaw with
  | (some (.ok t), next) =>
    if t.kind = .commentText then
      let (pieces, last) := next.pullLine
      (t :: pieces, last)
    else ([], { next with putBack := some (some (.ok t)) })
  | (pulled, next) => ([], { next with putBack := some pulled })
termination_by f.size
decreasing_by exact pullRaw_shorter _h

/-- The pieces of a block comment up to its end, and whether there is one. -/
def pullBlock (f : SqlFeed) : Except LexError (List SqlToken × Bool) × SqlFeed :=
  match _h : f.pullRaw with
  | (none, next) => (.ok ([], false), next)
  | (some (.error e), next) => (.error e, next)
  | (some (.ok t), next) =>
    if t.kind = .blockClose then (.ok ([t], true), next)
    else
      let (more, last) := next.pullBlock
      (more.map fun (pieces, closed) => (t :: pieces, closed), last)
termination_by f.size
decreasing_by exact pullRaw_shorter _h

/-- The next token. -/
def pull (f : SqlFeed) : Pulled × SqlFeed :=
  match f.pullRaw with
  | (none, next) => (none, next)
  | (some (.error e), next) => (some (.error e), next)
  | (some (.ok t), next) =>
    match t.kind with
    | .lineOpen =>
      let (pieces, last) := next.pullLine
      (some (.ok (joinLine t pieces)), last)
    | .blockOpen =>
      match next.pullBlock with
      | (.error e, last) => (some (.error e), last)
      | (.ok (pieces, closed), last) =>
        (some (.ok (if closed then joinBlock t pieces else joinUnclosed t pieces)), last)
    | _ => (some (.ok (cookOne t)), next)

/-- What is given when a token is asked for after `n` times before. -/
def pullAt (f : SqlFeed) : Nat → Pulled
  | 0 => f.pull.1
  | n + 1 => f.pull.2.pullAt n

end SqlFeed
end SqlDoc

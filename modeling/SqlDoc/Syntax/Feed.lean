/-
# Statements on demand

The statements of a script may also be asked for one after the other. A feed reads no further than
the end of the statement that it gives and what was looked at for it. Asking gives a tree, an error,
or nothing; after an error and after nothing no statement is read again.

Key definitions: `StatementFeed`, `StatementFeed.pull`, `StatementFeed.pullAt`.
-/
import SqlDoc.Syntax.Statement

namespace SqlDoc

/-- The error that ends the tokens, if it has been noticed; it is given only once. -/
def ParseState.takeError (s : ParseState) : Option LexError × ParseState :=
  let (error, stream) := s.stream.takeError
  (error, { s with stream })

/-- A script whose statements are asked for one after the other. -/
structure StatementFeed where
  state : ParseState
  /-- An error or nothing has been given. -/
  finished : Bool := false

namespace StatementFeed

/-- The feed at the start of a script that has been split into tokens. -/
def ofLexed (lexed : Lexed) : StatementFeed where
  state := .ofLexed lexed

/-- The feed at the start of a script. -/
def ofSource (source : String) (filename : Option String := none) : StatementFeed :=
  ofLexed (lexSql source filename)

/-- The next statement. An error that ends the tokens comes before one of the grammar. -/
def pull (f : StatementFeed) : Option (Except ParseError SyntaxTree) × StatementFeed :=
  if f.finished then (none, f)
  else
    match f.state.key 0 with
    | (none, s) =>
      let (error, s) := s.takeError
      (error.map fun e => .error (.lex e), { state := s, finished := true })
    | (some _, s) =>
      match GrammarRule.statement.run s.openNode with
      | (.ok (), s) => (some (.ok s.current.toTree), { f with state := s })
      | (.error e, s) =>
        let (error, s) := s.takeError
        (some (.error (error.elim (.grammar e) .lex)), { state := s, finished := true })

/-- What is given when a statement is asked for after `n` times before. -/
def pullAt (f : StatementFeed) : Nat → Option (Except ParseError SyntaxTree)
  | 0 => f.pull.1
  | n + 1 => f.pull.2.pullAt n

end StatementFeed
end SqlDoc

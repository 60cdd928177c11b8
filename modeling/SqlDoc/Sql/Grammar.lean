/-
# The grammar of tokens of a script

Three states. In `main` a script is split into words, literals, operators and layout; `--` and `/*`
enter the states of the two forms of comment. A line comment ends where its line does; a comment in
`/*` and `*/` has to be closed. A character that no rule reads becomes a token of its own.

Key definition: `sqlGrammar`.
-/
import SqlDoc.Lexer.Grammar
import SqlDoc.Pattern.Layout
import SqlDoc.Sql.Kind

namespace SqlDoc
namespace Sql

open Pattern (set seq alt opt star many concat choice literal oneOf noneOf)

/-- The letters a word begins with. -/
def letter : CharSet := .property .alphabetic

/-- The characters after a word's first letter. -/
def wordRest : CharSet :=
  .union letter (.union (.property .decimal) (.ofList ['_', '$', '#']))

/-- A word without quotes. -/
def word : Pattern := seq (set letter) (star (set wordRest))

/-- A run of digits. -/
def digits : Pattern := many (set (.property .decimal))

/-- A text between two of `quote`, inside which the quote is written twice. -/
def quoted (quote : Char) : Pattern :=
  concat [set (.single quote),
    star (alt (set (.compl (.single quote))) (literal (String.ofList [quote, quote]))),
    set (.single quote)]

/-- The delimiters after `q'`, opening and closing. -/
def quoteDelimiters : List (Char × Char) :=
  [('[', ']'), ('\x7b', '\x7d'), ('(', ')'), ('<', '>'), ('!', '!'), ('|', '|'), ('#', '#'),
    ('~', '~')]

/-- A string such as `q'[it's]'`: it runs to the first closing delimiter with a quote after it. -/
def alternativeQuoted : Pattern :=
  concat [opt (oneOf "nN"), oneOf "qQ", literal "'",
    choice (quoteDelimiters.map fun (first, last) =>
      concat [set (.single first), star (set .any) false, literal (String.ofList [last, '\''])])]

/-- A string such as `'it''s'`. -/
def plainString : Pattern := seq (opt (oneOf "nN")) (quoted '\'')

/-- A number, with a fraction, an exponent and a suffix if it has them. -/
def number : Pattern :=
  concat [
    alt (seq digits (opt (seq (literal ".") digits))) (seq (literal ".") digits),
    opt (concat [oneOf "eE", opt (oneOf "+-"), digits]),
    opt (oneOf "fFdD")]

/-- The operators of two characters. -/
def longOperators : List String :=
  [":=", "=>", "..", "||", "**", "<>", "!=", "^=", "~=", "<=", ">=", "<<", ">>"]

/-- The operators of one character. -/
def shortOperators : String := "-+*<>=|!^~:?[]\x7b\x7d"

/-- A rule for the tokens that a pattern describes. -/
def rule (kind : SqlKind) (p : Pattern) (transition : Transition (Fin 3) := .stay) :
    Rule SqlKind Matcher (Fin 3) where
  kind
  matcher := .pattern p
  transition

/-- A rule for one spelling. -/
def spelling (kind : SqlKind) (text : String) (transition : Transition (Fin 3) := .stay) :
    Rule SqlKind Matcher (Fin 3) where
  kind
  matcher := .literal text.toList
  transition

/-- Outside comments. -/
def mainState : LexState SqlKind Matcher (Fin 3) where
  name := "main"
  rules := [
    rule .newline .lineEnd,
    rule .whitespace .blanks,
    spelling .lineOpen "--" (.push 1),
    spelling .blockOpen "/*" (.push 2),
    rule .quotedIdentifier (quoted '"'),
    rule .string alternativeQuoted,
    rule .string plainString,
    rule .number number,
    rule .word word,
    rule .bind (seq (literal ":") (alt word digits)),
    rule .substitution
      (concat [literal "&", opt (literal "&"), alt word digits, opt (literal ".")]),
    rule .operator (choice (longOperators.map literal)),
    spelling .lparen "(",
    spelling .rparen ")",
    spelling .comma ",",
    spelling .semicolon ";",
    spelling .dot ".",
    spelling .percent "%",
    spelling .atSign "@",
    spelling .slash "/",
    rule .operator (oneOf shortOperators)]
  fallback := .token .unknown

/-- After `--`, up to the line end. -/
def lineCommentState : LexState SqlKind Matcher (Fin 3) where
  name := "line_comment"
  rules := [rule .commentText (many (noneOf "\r\n"))]
  fallback := .pop

/-- After `/*`, up to `*/`. -/
def blockCommentState : LexState SqlKind Matcher (Fin 3) where
  name := "block_comment"
  rules := [
    spelling .blockClose "*/" .pop,
    rule .commentText (alt (many (noneOf "*")) (literal "*"))]
  mustClose := some "block comment"

end Sql

/-- The grammar of tokens of a script. -/
def sqlGrammar : Grammar SqlKind where
  size := 3
  states := #v[Sql.mainState, Sql.lineCommentState, Sql.blockCommentState]
  size_pos := by decide

end SqlDoc

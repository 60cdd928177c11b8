/-
# Engines for regular expressions

A grammar may describe tokens by regular expressions. How these are written and what they match is
up to an engine: it compiles the text of an expression, or says what is wrong with it, and of what
it has compiled a lexer asks whether a text has a match and where the first match ends. All that is
said about grammars and lexers is said of any engine.

Ends are counted in bytes, and a text can be cut only where a character ends. That engines end their
matches there is the one thing that a lexer relies on (`RegexEngine.EndsOnCharacters`).

Key definitions: `Regex`, `RegexEngine`, `Regex.EndsOnCharacters`, `RegexEngine.EndsOnCharacters`.
-/
import SqlDoc.Text.Bytes

namespace SqlDoc

/-- A compiled regular expression. -/
structure Regex where
  /-- The text has a match somewhere. -/
  isMatch : List Char → Bool
  /-- The number of bytes before the end of the first match in the text. -/
  matchEnd? : List Char → Option Nat

/-- What compiles regular expressions. -/
structure RegexEngine where
  /-- The expression that a text writes, or what is wrong with the text. -/
  compile : String → Except String Regex

/-- Matches end where a character of the text ends. -/
def Regex.EndsOnCharacters (r : Regex) : Prop :=
  ∀ text n, r.matchEnd? text = some n → ∃ read rest, Text.splitBytes? n text = some (read, rest)

/-- So do the matches of whatever the engine compiles. -/
def RegexEngine.EndsOnCharacters (engine : RegexEngine) : Prop :=
  ∀ expression r, engine.compile expression = .ok r → r.EndsOnCharacters

end SqlDoc

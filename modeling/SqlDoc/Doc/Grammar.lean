/-
# The grammar of tokens of a documentation comment

Four states. `main` reads running text. A line end enters `line_start`, which takes the indentation
and the stars that decorate a line. `brace` and `bracket` read what stands between braces and
brackets, where texts in quotes are tokens; they may be nested. What no rule reads becomes text, one
character at a time.

Key definition: `docGrammar`.
-/
import SqlDoc.Doc.Kind
import SqlDoc.Lexer.Run
import SqlDoc.Pattern.Layout
import SqlDoc.Text.Lower

namespace SqlDoc
namespace Doc

open Pattern (set seq alt opt star many concat choice literal oneOf noneOf)

/-- `*/`, with any stars before it. -/
def commentEnd : Pattern :=
  concat [star (literal "*"), literal "*", literal "/"]

/-- Word characters of any script. -/
def wordChar : CharSet := .property .word

/-- A marker such as `@param`. -/
def tag : Pattern :=
  concat [literal "@", set (.property .alphabetic), star (set (.union wordChar (.single '-')))]

/-- The characters that no address has. -/
def outsideUrl : CharSet :=
  .union (.property .blank) (.ofList "\x7b\x7d[]()<>\"'|".toList)

/-- The characters that no address ends with. -/
def notLastInUrl : CharSet :=
  .union outsideUrl (.ofList ".,;:!?".toList)

/-- An address on the web or of a file, without the punctuation after it. -/
def url : Pattern :=
  concat [
    choice [seq (literal "http") (opt (literal "s")), seq (literal "ftp") (opt (literal "s")),
      literal "file"],
    literal "://",
    opt (seq (star (set (.compl outsideUrl))) (set (.compl notLastInUrl)))]

/-- A name. -/
def identifier : Pattern :=
  seq (set (.union (.property .alphabetic) (.single '_')))
    (star (set (.union wordChar (.ofList ['$', '#']))))

/-- A run of digits. -/
def digits : Pattern := many (set (.property .decimal))

/-- A number, with a fraction if it has one. -/
def number : Pattern :=
  seq digits (opt (seq (literal ".") digits))

/-- A text on one line between two of `quote`, in which a backslash keeps the next character from
ending it. -/
def quoted (quote : Char) : Pattern :=
  concat [set (.single quote),
    star (alt (set (.compl (.ofList [quote, '\\', '\r', '\n'])))
      (seq (literal "\\") (set (.compl (.single '\n'))))),
    set (.single quote)]

/-- A backslash and a character that would mean something without it. -/
def escape : Pattern :=
  seq (literal "\\") (oneOf "@\x7b\x7d[]#\\*")

/-- A run of characters that mean nothing on their own. -/
def plainText : Pattern :=
  many (set (.compl (.union (.property .blank)
    (.union wordChar (.ofList "@\x7b\x7d[]()#=,.|:\\*/".toList)))))

/-- A rule for the tokens that a pattern describes. -/
def rule (kind : DocKind) (p : Pattern) (transition : Transition (Fin 4) := .stay)
    (value : String → String := id) : Rule DocKind Matcher (Fin 4) where
  kind
  matcher := .pattern p
  transition
  value

/-- A rule for one spelling. -/
def spelling (kind : DocKind) (text : String) (transition : Transition (Fin 4) := .stay) :
    Rule DocKind Matcher (Fin 4) where
  kind
  matcher := .literal text.toList
  transition

/-- The text without `c` in front. -/
def withoutLeading (c : Char) (text : String) : String :=
  String.ofList (text.toList.dropWhile (· = c))

/-- The rules for the texts that stand for one thing each, wherever they are. -/
def wordRules : List (Rule DocKind Matcher (Fin 4)) := [
  rule .commentEnd commentEnd,
  rule .newline .lineEnd (.push 1),
  rule .whitespace .blanks,
  rule .tag tag .stay fun text => Text.lower (withoutLeading '@' text),
  rule .url url,
  rule .escape escape .stay (withoutLeading '\\'),
  rule .identifier identifier,
  rule .number number]

/-- The rules for punctuation and for other text. -/
def punctuationRules : List (Rule DocKind Matcher (Fin 4)) := [
  spelling .lbrace "\x7b" (.push 2),
  spelling .lbracket "[" (.push 3),
  spelling .hash "#",
  spelling .lparen "(",
  spelling .rparen ")",
  spelling .equals "=",
  spelling .comma ",",
  spelling .dot ".",
  spelling .pipe "|",
  spelling .colon ":",
  rule .text plainText]

/-- Running text. A brace or a bracket that closes nothing is a token too. -/
def mainState : LexState DocKind Matcher (Fin 4) where
  name := "main"
  rules := spelling .commentStart "/**" (.push 1) :: wordRules ++ punctuationRules
    ++ [spelling .rbrace "\x7d", spelling .rbracket "]"]
  fallback := .token .text

/-- The start of a line. -/
def lineStartState : LexState DocKind Matcher (Fin 4) where
  name := "line_start"
  rules := [
    rule .commentEnd commentEnd .pop,
    rule .whitespace .blanks,
    rule .decoration (many (literal "*")) .pop]
  fallback := .pop

/-- The rules between braces or brackets, after those for what closes them. -/
def enclosedRules : List (Rule DocKind Matcher (Fin 4)) :=
  wordRules ++ rule .string (alt (quoted '"') (quoted '\'')) :: punctuationRules

/-- Between braces. -/
def braceState : LexState DocKind Matcher (Fin 4) where
  name := "brace"
  rules := spelling .rbrace "\x7d" .pop :: spelling .rbracket "]" :: enclosedRules
  fallback := .token .text

/-- Between brackets. -/
def bracketState : LexState DocKind Matcher (Fin 4) where
  name := "bracket"
  rules := spelling .rbracket "]" .pop :: spelling .rbrace "\x7d" :: enclosedRules
  fallback := .token .text

end Doc

/-- The grammar of tokens of a documentation comment. -/
def docGrammar : Grammar DocKind where
  size := 4
  states := #v[Doc.mainState, Doc.lineStartState, Doc.braceState, Doc.bracketState]
  size_pos := by decide

/-- The tokens of a comment that begins at a position, and the error that ends them, if there is
one. -/
def lexDoc (text : String) (start : Position := .start) : List DocToken × Option LexError :=
  (Lexer.start docGrammar text.toList start).run

end SqlDoc

/-
# Tokens and groups

A token is a piece of source text with a kind, a normal form of the text and the span it covers.
The kind says whether the token carries grammatical weight or is trivia, such as blanks and
comments. A group is a run of trivia with the significant token that follows it; at the end of a
text a group may be trivia only.

Key definitions: `Trivia`, `TokenKind`, `Token`, `TokenGroup`.
-/
import SqlDoc.Position

namespace SqlDoc

/-- Whether a token carries grammatical weight. -/
inductive Trivia where
  /-- It does. -/
  | no
  /-- It does not. -/
  | yes
  /-- It does not inside a bracketed expression, and is content everywhere else. -/
  | structured
  deriving DecidableEq, Repr

/-- The kinds of token of a grammar. -/
class TokenKind (κ : Type) where
  trivia : κ → Trivia

/-- A piece of source text. -/
structure Token (κ : Type) where
  kind : κ
  /-- The piece as it is written. -/
  text : String
  /-- Its normal form: a word in upper case, a string without its quotes. -/
  value : String
  span : Span
  deriving DecidableEq, Repr

namespace Token

variable {κ : Type}

/-- The token whose normal form is its text. -/
def plain (kind : κ) (text : String) (span : Span) : Token κ where
  kind
  text
  value := text
  span

/-- Where the token begins. -/
def start (t : Token κ) : Position :=
  t.span.start

variable [TokenKind κ]

/-- What the kind says about the token's weight. -/
def trivia (t : Token κ) : Trivia :=
  TokenKind.trivia t.kind

/-- The token carries grammatical weight. -/
def isSignificant (t : Token κ) : Bool :=
  t.trivia == .no

/-- The token never carries grammatical weight. -/
def isTrivia (t : Token κ) : Bool :=
  t.trivia == .yes

/-- The token is trivia inside bracketed expressions only. -/
def isStructuredTrivia (t : Token κ) : Bool :=
  t.trivia == .structured

end Token

/-- The texts of the tokens, one after the other. -/
def tokensText {κ : Type} (tokens : List (Token κ)) : String :=
  String.join (tokens.map (·.text))

@[simp] theorem tokensText_cons {κ : Type} (t : Token κ) (tokens : List (Token κ)) :
    tokensText (t :: tokens) = t.text ++ tokensText tokens := by
  simp [tokensText]

@[simp] theorem tokensText_append {κ : Type} (first second : List (Token κ)) :
    tokensText (first ++ second) = tokensText first ++ tokensText second := by
  simp [tokensText]

/-- A run of trivia and the significant token after it, or trivia alone at the end of a text. -/
inductive TokenGroup (κ : Type) where
  | keyed (leading : List (Token κ)) (key : Token κ)
  | trailing (first : Token κ) (rest : List (Token κ))
  deriving DecidableEq, Repr

namespace TokenGroup

variable {κ : Type}

/-- The tokens of the group, in order. -/
def tokens : TokenGroup κ → List (Token κ)
  | keyed leading key => leading ++ [key]
  | trailing first rest => first :: rest

/-- The significant token, if the group has one. -/
def key? : TokenGroup κ → Option (Token κ)
  | keyed _ key => some key
  | trailing .. => none

/-- The significant token, or the first of a group that is trivia only. -/
def key : TokenGroup κ → Token κ
  | keyed _ key => key
  | trailing first _ => first

/-- The group has no significant token. -/
def isTriviaOnly (g : TokenGroup κ) : Bool :=
  g.key?.isNone

/-- The trivia of the group. -/
def leading : TokenGroup κ → List (Token κ)
  | keyed leading _ => leading
  | trailing first rest => first :: rest

/-- From the first token's start to the last token's end. -/
def span : TokenGroup κ → Span
  | keyed leading key => .between (leading.headD key).span.start key.span.stop
  | trailing first rest => .between first.span.start (rest.getLastD first).span.stop

/-- The group as it is written. -/
def text (g : TokenGroup κ) : String :=
  tokensText g.tokens

/-- The group as it is written, from its significant token on. -/
def textFromKey (g : TokenGroup κ) : String :=
  g.key?.elim "" (·.text)

@[simp] theorem tokens_keyed (leading : List (Token κ)) (key : Token κ) :
    (keyed leading key).tokens = leading ++ [key] :=
  rfl

@[simp] theorem tokens_trailing (first : Token κ) (rest : List (Token κ)) :
    (trailing first rest).tokens = first :: rest :=
  rfl

end TokenGroup
end SqlDoc

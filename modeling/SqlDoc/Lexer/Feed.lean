/-
# Tokens of any grammar on demand

The tokens of a text may be asked for one after the other. A feed holds the whole text and how many
bytes of it have been read. A state is a plain number here, and nothing in the records says that
there is a state on the stack, that a state has the number, or that a token ends inside the text and
where a character ends: where that is not so, asking breaks off. Proofs/Lexer/Feed shows that with
the states of a grammar that has been built this never happens, if the engine that compiled its
patterns ends matches on characters.

A feed counts the fallbacks that it follows for one token, and takes more of them than there are
states for a circle. An error is given once, and after it or the end of the text there is nothing
more.

Key definitions: `Grammar.buildStates`, `LexerFeed`, `LexerFeed.act?`, `LexerFeed.pull?`,
`LexerFeed.after?`, `LexerFeed.pullAt?`.
-/
import SqlDoc.Lexer.Build
import SqlDoc.Lexer.Run

namespace SqlDoc

/-- The states of a table, with the numbers of states for their names. -/
def Grammar.buildStates {κ : Type} (engine : RegexEngine)
    (table : List (LexState κ MatcherText String)) :
    Except GrammarError (List (LexState κ Matcher Nat)) := do
  if table.isEmpty then throw .noStates
  let numbers ← number stateLimit 0 ∅ (table.map (·.name))
  table.mapM (compileState engine fun name => numbers[name]?)

/-- The number of bytes of the match at the start of a text. A pattern may match the empty text, which
counts as no match; a literal is not asked. -/
def Matcher.matchLength? (m : Matcher) (text : List Char) : Option Nat :=
  match m with
  | .literal chars => if chars.isPrefixOf text then some (Text.byteLength chars) else none
  | .pattern p =>
    ((p.matchAt? (.start text)).map fun stop =>
      Text.byteLength (text.take stop.seen)).filter (0 < ·)
  | .regex r => (r.matchEnd? text).filter (0 < ·)

/-- A level of the stack: the number of a state, and the start of the token that entered it. -/
structure StackLevel where
  state : Nat
  entered : Position
  deriving DecidableEq, Repr

/-- A text whose tokens are asked for one after the other. -/
structure LexerFeed (κ : Type) where
  states : List (LexState κ Matcher Nat)
  source : List Char
  /-- The number of bytes that have been read. -/
  offset : Nat := 0
  position : Position
  /-- The innermost level comes first. -/
  stack : List StackLevel
  /-- An error or the end has been given. -/
  finished : Bool := false

namespace LexerFeed

variable {κ : Type}

/-- What asking gives: a token, an error, or nothing. -/
abbrev Item (κ : Type) := Option (Except LexError (Token κ))

/-- The feed at the start of a text that begins at a position. -/
def start (states : List (LexState κ Matcher Nat)) (source : List Char) (position : Position) :
    LexerFeed κ where
  states
  source
  position
  stack := [{ state := 0, entered := position }]

/-- The text that is left. -/
def rest? (f : LexerFeed κ) : Option (List Char) :=
  (Text.splitBytes? f.offset f.source).map (·.2)

/-- The current state. -/
def state? (f : LexerFeed κ) : Option (LexState κ Matcher Nat) := do
  let level ← f.stack.head?
  f.states[level.state]?

/-- The error at the end of the text, if a level has to be closed. -/
def endError? (states : List (LexState κ Matcher Nat)) :
    List StackLevel → Option (Option LexError)
  | [] => some none
  | level :: below => do
    let state ← states[level.state]?
    match state.mustClose with
    | some label => return some (.unterminated label level.entered)
    | none => endError? states below

/-- Leaves the current state, unless it is the only one. -/
def pop (f : LexerFeed κ) : LexerFeed κ :=
  if 1 < f.stack.length then { f with stack := f.stack.tail } else f

/-- The feed after a transition at a token that begins at `entered`. -/
def change? (f : LexerFeed κ) (transition : Transition Nat) (entered : Position) :
    Option (LexerFeed κ) :=
  match transition with
  | .stay => some f
  | .push state => some { f with stack := { state, entered } :: f.stack }
  | .pop => some f.pop
  | .next state =>
    match f.stack with
    | [] => none
    | _ :: below => some { f with stack := { state, entered } :: below }

/-- Takes the next `length` bytes for a token. -/
def emit? (f : LexerFeed κ) (kind : κ) (length : Nat) (value : String → String) :
    Option (Token κ × LexerFeed κ) := do
  let (text, _) ← Text.splitBytes? length (← f.rest?)
  let stop := f.position.advance text
  let token := {
    kind
    text := String.ofList text
    value := value (String.ofList text)
    span := .between f.position stop }
  return (token, { f with offset := f.offset + length, position := stop })

/-- A thing that a feed does. -/
inductive Action (κ : Type) where
  | give (item : Item κ) (next : LexerFeed κ)
  /-- It follows a fallback that reads nothing. -/
  | move (next : LexerFeed κ)

/-- What the current state does with the text that is left, `found` being its first character. -/
def actOn? (f : LexerFeed κ) (found : Char) (text : List Char) : Option (Action κ) := do
  let state ← f.state?
  let rule? := state.rules.findSome? fun rule =>
    (rule.matcher.matchLength? text).map fun length => (rule, length)
  match rule? with
  | some (rule, length) =>
    let (token, next) ← f.emit? rule.kind length rule.value
    let next ← next.change? rule.transition f.position
    return .give (some (.ok token)) next
  | none =>
    match state.fallback with
    | .error =>
      let error := .unexpectedChar found state.name f.position
      return .give (some (.error error)) { f with finished := true }
    | .token kind =>
      let (token, next) ← f.emit? kind found.utf8Size id
      return .give (some (.ok token)) next
    | .pop => return .move f.pop
    | .next target =>
      let next ← f.change? (.next target) f.position
      return .move next

/-- What is done next: the current state acts, or the text has ended. -/
def act? (f : LexerFeed κ) : Option (Action κ) := do
  let text ← f.rest?
  match text with
  | [] =>
    let error ← endError? f.states f.stack
    return .give (error.map .error) { f with finished := true }
  | found :: _ => f.actOn? found text

/-- Acts until there is something to give. Fallbacks that read nothing are followed at most `budget`
times. -/
def pullWithin? (budget : Nat) (f : LexerFeed κ) : Option (Item κ × LexerFeed κ) := do
  match ← f.act? with
  | .give item next => return (item, next)
  | .move next =>
    match budget with
    | 0 =>
      let state ← next.state?
      return (some (.error (.stalled state.name next.position)), { next with finished := true })
    | budget + 1 => pullWithin? budget next

/-- Asks for the next token. -/
def pull? (f : LexerFeed κ) : Option (Item κ × LexerFeed κ) :=
  if f.finished then some (none, f) else pullWithin? f.states.length f

/-- The feed that has been asked `n` times. -/
def after? (f : LexerFeed κ) : Nat → Option (LexerFeed κ)
  | 0 => some f
  | n + 1 => do
    let (_, next) ← f.pull?
    next.after? n

/-- What is given when the feed has been asked `n` times before. -/
def pullAt? (f : LexerFeed κ) (n : Nat) : Option (Item κ) := do
  let f ← f.after? n
  let (item, _) ← f.pull?
  return item

end LexerFeed
end SqlDoc

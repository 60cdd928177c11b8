/-
# Running a grammar over a text

The lexer holds the text that is left, the position of its first character and a stack of states,
each with the position where it was entered. A step reads one token, if it can. Before that it may
follow fallbacks that read nothing; each of them visits a state, so more of them in a row than there
are states are taken for a circle, and the lexer stops.

A run gives the tokens up to the end of the text or the first error. Tokens are never empty, so a
run ends, and the texts of its tokens, one after the other, are the part of the text it has read.

Key definitions: `LexError`, `LexError.message`, `Lexer`, `Lexer.act`, `Lexer.step`, `Lexer.run`.
Key theorems: `Lexer.step_shorter`, `Lexer.step_text`.
-/
import SqlDoc.Diagnostic
import SqlDoc.Lexer.Grammar
import SqlDoc.Text.Printable
import SqlDoc.Token

namespace SqlDoc

/-- Why a text cannot be split into tokens. -/
inductive LexError where
  /-- The state has no rule and no fallback for the character. -/
  | unexpectedChar (found : Char) (state : String) (place : Position)
  /-- The text ends inside a construct that was opened at the position. -/
  | unterminated (label : String) (place : Position)
  /-- The fallbacks of the states lead round in a circle. -/
  | stalled (state : String) (place : Position)
  deriving DecidableEq, Repr

namespace LexError

/-- Where the error is reported. -/
def position : LexError → Position
  | unexpectedChar _ _ place => place
  | unterminated _ place => place
  | stalled _ place => place

/-- The code of the error's diagnostic. -/
def code : LexError → Code
  | unexpectedChar .. => .unexpectedCharacter
  | unterminated .. => .unterminatedText
  | stalled .. => .noProgress

/-- The error in words. -/
def message : LexError → String
  | unexpectedChar found state _ => s!"unexpected character {Text.quoteChar found} in {state}"
  | unterminated label _ => s!"unterminated {label}"
  | stalled state _ => s!"lexer made no progress in {state}"

/-- The error as a diagnostic. -/
def toDiagnostic (e : LexError) : Diagnostic :=
  .error e.code e.message e.position

end LexError

/-- A state on the stack, and the start of the token that entered it. -/
structure Frame {κ : Type} (g : Grammar κ) where
  state : g.StateId
  entered : Position

/-- A lexer on its way through a text. The stack is never empty. -/
structure Lexer {κ : Type} (g : Grammar κ) where
  rest : List Char
  position : Position
  top : Frame g
  below : List (Frame g)

namespace Lexer

variable {κ : Type} {g : Grammar κ}

/-- A lexer at the start of a text that begins at a position. -/
def start (g : Grammar κ) (text : List Char) (position : Position := .start) : Lexer g where
  rest := text
  position
  top := { state := g.start, entered := position }
  below := []

/-- The current state. -/
def state (lx : Lexer g) : LexState κ Matcher g.StateId :=
  g.state lx.top.state

/-- Leaves the current state, unless it is the only one. -/
def pop (lx : Lexer g) : Lexer g :=
  match lx.below with
  | [] => lx
  | frame :: below => { lx with top := frame, below }

/-- The lexer after a transition at a token that begins at `entered`. -/
def apply (lx : Lexer g) (transition : Transition g.StateId) (entered : Position) : Lexer g :=
  match transition with
  | .stay => lx
  | .push state => { lx with top := { state, entered }, below := lx.top :: lx.below }
  | .pop => lx.pop
  | .next state => { lx with top := { state, entered } }

@[simp] theorem rest_pop (lx : Lexer g) : lx.pop.rest = lx.rest := by
  unfold pop
  split <;> rfl

@[simp] theorem rest_apply (lx : Lexer g) (transition : Transition g.StateId)
    (entered : Position) : (lx.apply transition entered).rest = lx.rest := by
  cases transition <;> simp [apply]

/-- The error at the end of the text: the innermost state that must be closed, if there is one. -/
def endError? (lx : Lexer g) : Option LexError :=
  (lx.top :: lx.below).findSome? fun frame =>
    (g.state frame.state).mustClose.map fun label => .unterminated label frame.entered

/-- The first rule of the current state that reads a token, and where that ends. -/
def matchRule? (lx : Lexer g) : Option (Rule κ Matcher g.StateId × Cursor lx.rest) :=
  lx.state.rules.findSome? fun rule => (rule.matcher.tokenEnd? lx.rest).map fun stop => (rule, stop)

/-- The token of `length` characters at the start of the text. -/
def token (lx : Lexer g) (kind : κ) (length : Nat) (value : String → String) : Token κ :=
  let text := lx.rest.take length
  { kind
    text := String.ofList text
    value := value (String.ofList text)
    span := .between lx.position (lx.position.advance text) }

/-- The lexer past the first `length` characters, which leave `rest`. -/
def skip (lx : Lexer g) (length : Nat) (rest : List Char) : Lexer g :=
  { lx with rest, position := lx.position.advance (lx.rest.take length) }

/-- What the current state does where characters are left. -/
inductive Action {κ : Type} (g : Grammar κ) where
  /-- It reads a token. -/
  | read (token : Token κ) (next : Lexer g)
  /-- It follows a fallback that reads nothing. -/
  | move (next : Lexer g)
  | fail (error : LexError)

/-- What the current state does, `found` being the next character. -/
def act (lx : Lexer g) (found : Char) : Action g :=
  match lx.matchRule? with
  | some (rule, stop) =>
    .read (lx.token rule.kind stop.seen rule.value)
      ((lx.skip stop.seen stop.rest).apply rule.transition lx.position)
  | none =>
    match lx.state.fallback with
    | .error => .fail (.unexpectedChar found lx.state.name lx.position)
    | .token kind => .read (lx.token kind 1 id) (lx.skip 1 (lx.rest.drop 1))
    | .pop => .move lx.pop
    | .next state => .move (lx.apply (.next state) lx.position)

/-- What one step comes to. -/
inductive Outcome {κ : Type} (g : Grammar κ) where
  | token (token : Token κ) (next : Lexer g)
  | failed (error : LexError)
  | finished

/-- One step from a place where characters are left, `found` the first of them. Fallbacks that read
nothing are followed at most `budget` times. -/
def stepAt (found : Char) (budget : Nat) (lx : Lexer g) : Outcome g :=
  match lx.act found with
  | .read token next => .token token next
  | .fail error => .failed error
  | .move next =>
    match budget with
    | 0 => .failed (.stalled next.state.name next.position)
    | budget + 1 => stepAt found budget next

/-- One step: the next token, an error, or the end of the text. -/
def step (lx : Lexer g) : Outcome g :=
  match lx.rest with
  | [] =>
    match lx.endError? with
    | some error => .failed error
    | none => .finished
  | found :: _ => stepAt found g.size lx

/-- A rule's token has at least one character, and the cursor says what is left. -/
theorem seen_of_matchRule? {lx : Lexer g} {rule : Rule κ Matcher g.StateId}
    {stop : Cursor lx.rest} (h : lx.matchRule? = some (rule, stop)) : 0 < stop.seen := by
  obtain ⟨r, _, hr⟩ := List.exists_of_findSome?_eq_some h
  obtain ⟨c, hc, hpair⟩ := Option.map_eq_some_iff.1 hr
  cases hpair
  simpa using (Option.filter_eq_some_iff.1 hc).2

theorem act_read_shorter {lx next : Lexer g} {found : Char} {token : Token κ}
    (hrest : lx.rest ≠ []) (h : lx.act found = .read token next) :
    next.rest.length < lx.rest.length := by
  have hpos : 0 < lx.rest.length := List.length_pos_iff.2 hrest
  unfold act at h
  split at h
  · rename_i rule stop hm
    cases h
    have := seen_of_matchRule? hm
    have := stop.rest_length
    simp only [rest_apply, skip]
    omega
  · split at h <;> cases h
    simp only [skip, List.length_drop]
    omega

/-- A token's text and what is left after it are the text before it. -/
theorem act_read_text {lx next : Lexer g} {found : Char} {token : Token κ}
    (h : lx.act found = .read token next) : token.text.toList ++ next.rest = lx.rest := by
  unfold act at h
  split at h
  · rename_i rule stop hm
    cases h
    rw [rest_apply]
    simp only [Lexer.token, skip, String.toList_ofList, ← stop.rest_eq]
    exact List.take_append_drop ..
  · split at h <;> cases h
    simp only [Lexer.token, skip, String.toList_ofList]
    exact List.take_append_drop ..

theorem act_move_rest {lx next : Lexer g} {found : Char} (h : lx.act found = .move next) :
    next.rest = lx.rest := by
  unfold act at h
  split at h
  · cases h
  · split at h <;> cases h <;> simp

/-- A token takes characters away. -/
theorem stepAt_shorter {found : Char} {budget : Nat} {lx next : Lexer g} {token : Token κ}
    (hrest : lx.rest ≠ []) (h : stepAt found budget lx = .token token next) :
    next.rest.length < lx.rest.length := by
  induction budget generalizing lx with
  | zero =>
    unfold stepAt at h
    split at h
    · rename_i ha
      cases h
      exact act_read_shorter hrest ha
    · cases h
    · cases h
  | succ budget ih =>
    unfold stepAt at h
    split at h
    · rename_i ha
      cases h
      exact act_read_shorter hrest ha
    · cases h
    · rename_i mid ha
      have hmid := act_move_rest ha
      rw [← hmid]
      exact ih (by rwa [hmid]) h

theorem step_shorter {lx next : Lexer g} {token : Token κ} (h : lx.step = .token token next) :
    next.rest.length < lx.rest.length := by
  unfold step at h
  split at h
  · split at h <;> cases h
  · rename_i found rest hr
    exact stepAt_shorter (by simp [hr]) h

/-- Fallbacks that read nothing do not come between a token and the text. -/
theorem stepAt_text {found : Char} {budget : Nat} {lx next : Lexer g} {token : Token κ}
    (h : stepAt found budget lx = .token token next) :
    token.text.toList ++ next.rest = lx.rest := by
  induction budget generalizing lx with
  | zero =>
    unfold stepAt at h
    split at h <;> cases h
    exact act_read_text ‹_›
  | succ budget ih =>
    unfold stepAt at h
    split at h
    · cases h
      exact act_read_text ‹_›
    · cases h
    · rename_i mid ha
      rw [← act_move_rest ha, ih h]

/-- A step splits the text into its token and the rest. -/
theorem step_text {lx next : Lexer g} {token : Token κ} (h : lx.step = .token token next) :
    token.text.toList ++ next.rest = lx.rest := by
  unfold step at h
  split at h
  · split at h <;> cases h
  · exact stepAt_text h

/-- The tokens up to the end of the text or the first error, each with the lexer after it, and that
error. -/
def trace (lx : Lexer g) : List (Token κ × Lexer g) × Option LexError :=
  match _h : lx.step with
  | .finished => ([], none)
  | .failed error => ([], some error)
  | .token token next =>
    let (more, error) := next.trace
    ((token, next) :: more, error)
termination_by lx.rest.length
decreasing_by exact step_shorter _h

/-- The tokens up to the end of the text or the first error, and that error. -/
def run (lx : Lexer g) : List (Token κ) × Option LexError :=
  (lx.trace.1.map (·.1), lx.trace.2)

end Lexer
end SqlDoc

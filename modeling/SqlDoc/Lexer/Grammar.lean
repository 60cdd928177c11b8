/-
# Grammars of tokens

A grammar is a table of states. In a state the lexer tries the state's rules in order; the first
that reads a piece of the text makes it a token and may change the state. Entering a state puts it
on a stack, and leaving it returns to the state below. A state also says what to do with a text that
none of its rules reads.

The same records hold a grammar as it is written, where a rule's pattern is a text and its target
the name of a state, and a grammar as it runs, where the pattern has been compiled and the target is
the number of a state of the table.

Key definitions: `Transition`, `Rule`, `Fallback`, `LexState`, `Matcher`, `Grammar`.
Key theorem: `Grammar.stateId?_stateName`.
-/
import SqlDoc.Lexer.Engine
import SqlDoc.Pattern.Basic

namespace SqlDoc

/-- How a rule changes the state. -/
inductive Transition (σ : Type) where
  /-- It does not. -/
  | stay
  /-- Enters a state on top of the current one. -/
  | push (target : σ)
  /-- Returns to the state below. -/
  | pop
  /-- Puts a state in the place of the current one. -/
  | next (target : σ)
  deriving DecidableEq, Repr

/-- What a state does with a text that none of its rules reads. -/
inductive Fallback (κ σ : Type) where
  /-- It gives up. -/
  | error
  /-- One character becomes a token of the kind. -/
  | token (kind : κ)
  /-- Returns to the state below without reading. -/
  | pop
  /-- Goes on in another state without reading. -/
  | next (target : σ)
  deriving DecidableEq, Repr

/-- A way to read a token: what it looks like, its kind, the state after it and its normal form. -/
structure Rule (κ μ σ : Type) where
  kind : κ
  matcher : μ
  transition : Transition σ := .stay
  value : String → String := id

/-- A state of a grammar. -/
structure LexState (κ μ σ : Type) where
  name : String
  rules : List (Rule κ μ σ)
  fallback : Fallback κ σ := .error
  /-- What is unterminated if the text ends in this state, where that is an error. -/
  mustClose : Option String := none

/-- What a token looks like. -/
inductive Matcher where
  /-- It is this text. -/
  | literal (text : List Char)
  /-- It is a piece of the pattern. -/
  | pattern (p : Pattern)
  /-- It ends where the first match of the expression ends. -/
  | regex (r : Regex)

/-- The place after a literal at the start of a text, if the text begins with it. -/
def literalEnd? (literal text : List Char) : Option (Cursor text) :=
  if h : literal.isPrefixOf text then
    some {
      seen := literal.length
      previous := literal.getLast?
      rest := text.drop literal.length
      rest_eq := rfl
      seen_le := (List.isPrefixOf_iff_prefix.1 h).length_le }
  else none

/-- The place after the first `n` bytes of a text, if a character ends there. -/
def byteEnd? (n : Nat) (text : List Char) : Option (Cursor text) := do
  let (read, _) ← Text.splitBytes? n text
  literalEnd? read text

/-- Where the token at the start of a text ends, if it has at least one character. -/
def Matcher.tokenEnd? (m : Matcher) (text : List Char) : Option (Cursor text) :=
  let stop? : Option (Cursor text) :=
    match m with
    | .literal chars => literalEnd? chars text
    | .pattern p => p.matchAt? (.start text)
    | .regex r => (r.matchEnd? text).bind fun n => byteEnd? n text
  stop?.filter fun stop => 0 < stop.seen

/-- A grammar that runs: a table of states, the first of which is the start, whose rules name states
by their number in the table. -/
structure Grammar (κ : Type) where
  size : Nat
  states : Vector (LexState κ Matcher (Fin size)) size
  size_pos : 0 < size

namespace Grammar

variable {κ : Type} (g : Grammar κ)

/-- The number of a state. -/
abbrev StateId := Fin g.size

/-- The state in which a text begins. -/
def start : g.StateId := ⟨0, g.size_pos⟩

/-- The state with a number. -/
def state (id : g.StateId) : LexState κ Matcher g.StateId :=
  g.states[id]

/-- The name of the state with a number. -/
def stateName (id : g.StateId) : String :=
  (g.state id).name

/-- The number of the first state with a name. -/
def stateId? (name : String) : Option g.StateId :=
  (List.finRange g.size).find? fun id => g.stateName id = name

/-- The state found under a name has that name. -/
theorem stateName_of_stateId? {name : String} {id : g.StateId} (h : g.stateId? name = some id) :
    g.stateName id = name := by
  simpa using List.find?_some h

/-- When no two states share a name, a state is found under its own. -/
theorem stateId?_stateName (h : ∀ i j : g.StateId, g.stateName i = g.stateName j → i = j)
    (id : g.StateId) : g.stateId? (g.stateName id) = some id := by
  cases hf : g.stateId? (g.stateName id) with
  | none =>
    have hne := List.find?_eq_none.1 hf id (List.mem_finRange id)
    exact absurd hne (by simp)
  | some found => rw [h found id (g.stateName_of_stateId? hf)]

end Grammar
end SqlDoc

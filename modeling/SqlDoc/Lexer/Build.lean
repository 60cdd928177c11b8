/-
# Building a grammar

A grammar is written with the names of states and the texts of patterns. Building it numbers the
states, has an engine compile the patterns and refuses a table that cannot run: one without states or
with too many, one that defines a state twice or names one it does not define, a pattern that does
not compile, and one that matches the empty text, since a token has at least one character.

Key definitions: `MatcherText`, `GrammarError`, `GrammarError.message`, `Grammar.build`.
-/
import Std.Data.HashMap
import SqlDoc.Lexer.Grammar

namespace SqlDoc

/-- What a token looks like, as it is written. -/
inductive MatcherText where
  | literal (text : String)
  | pattern (text : String)
  deriving DecidableEq, Repr

/-- Why a grammar cannot be built. -/
inductive GrammarError where
  | noStates
  | tooManyStates
  | duplicateState (name : String)
  | unknownState (source target : String)
  /-- The engine says what is wrong with the pattern. -/
  | invalidPattern (state pattern reason : String)
  | emptyMatch (state pattern : String)
  deriving DecidableEq, Repr

/-- The error in words. -/
def GrammarError.message : GrammarError → String
  | noStates => "grammar has no states"
  | tooManyStates => "grammar has more than 65535 states"
  | duplicateState name => s!"state `{name}` is defined twice"
  | unknownState source target => s!"state `{source}` refers to unknown state `{target}`"
  | invalidPattern state pattern _ => s!"invalid pattern `{pattern}` in state `{state}`"
  | emptyMatch state pattern => s!"rule `{pattern}` in state `{state}` can match empty input"

namespace Grammar

/-- The number of states that a table may have. -/
def stateLimit : Nat := 65536

/-- The numbers of the states by name, counting from `n`, if all goes well. -/
def number (limit : Nat) :
    Nat → Std.HashMap String Nat → List String → Except GrammarError (Std.HashMap String Nat)
  | _, numbers, [] => .ok numbers
  | n, numbers, name :: names =>
    if limit ≤ n then .error .tooManyStates
    else if numbers.contains name then .error (.duplicateState name)
    else number limit (n + 1) (numbers.insert name n) names

section

variable {κ σ : Type} (engine : RegexEngine) (find : String → Option σ) (state : String)

/-- Compiles what a token of the state looks like. Matches of a pattern begin at the start of a
text. -/
def compileMatcher : MatcherText → Except GrammarError Matcher
  | .literal text =>
    if text.isEmpty then .error (.emptyMatch state "") else .ok (.literal text.toList)
  | .pattern text =>
    match engine.compile ("^(?:" ++ text ++ ")") with
    | .error reason => .error (.invalidPattern state text reason)
    | .ok r => if r.isMatch [] then .error (.emptyMatch state text) else .ok (.regex r)

/-- The state that `state` refers to by name. -/
def resolve (target : String) : Except GrammarError σ :=
  match find target with
  | some id => .ok id
  | none => .error (.unknownState state target)

/-- A transition with its target resolved. -/
def resolveTransition : Transition String → Except GrammarError (Transition σ)
  | .stay => .ok .stay
  | .push target => do return .push (← resolve find state target)
  | .pop => .ok .pop
  | .next target => do return .next (← resolve find state target)

/-- A fallback with its target resolved. -/
def resolveFallback : Fallback κ String → Except GrammarError (Fallback κ σ)
  | .error => .ok .error
  | .token kind => .ok (.token kind)
  | .pop => .ok .pop
  | .next target => do return .next (← resolve find state target)

/-- A rule with its pattern compiled and its target resolved, in this order. -/
def compileRule (rule : Rule κ MatcherText String) :
    Except GrammarError (Rule κ Matcher σ) := do
  let matcher ← compileMatcher engine state rule.matcher
  let transition ← resolveTransition find state rule.transition
  return { kind := rule.kind, matcher, transition, value := rule.value }

/-- A state with its rules compiled and its fallback resolved, in this order. -/
def compileState (state : LexState κ MatcherText String) :
    Except GrammarError (LexState κ Matcher σ) := do
  let rules ← state.rules.mapM (compileRule engine find state.name)
  let fallback ← resolveFallback find state.name state.fallback
  return { name := state.name, rules, fallback, mustClose := state.mustClose }

end

/-- The grammar of a table. Of several faults the states' names come first, and then the states in
order. -/
def build {κ : Type} (engine : RegexEngine) (table : List (LexState κ MatcherText String)) :
    Except GrammarError (Grammar κ) := do
  if table.isEmpty then throw .noStates
  let numbers ← number stateLimit 0 ∅ (table.map (·.name))
  let states := table.toArray
  let find (name : String) : Option (Fin states.size) :=
    numbers[name]?.bind fun i => if h : i < states.size then some ⟨i, h⟩ else none
  let compiled ← states.toVector.mapM (compileState engine find)
  if h : 0 < states.size then return { size := states.size, states := compiled, size_pos := h }
  else throw .noStates

end Grammar
end SqlDoc

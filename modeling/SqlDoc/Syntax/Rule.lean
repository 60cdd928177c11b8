/-
# Grammar rules

A rule is a program that reads groups and builds nodes. All it sees of the source are glances at the
significant tokens ahead (kind, text and normal form), whether such a token begins a line, and how
many are left; so layout, comments and positions cannot change what it does. It may take the next
group, open a node around what another rule reads, set the kind and the name of the node that is
open, and give up because a token is missing.

`run` carries a rule out on a stream of groups.

Key definitions: `Glance`, `GrammarRule`, `SyntaxError`, `ParseState`, `GrammarRule.run`.
Key theorems: `GrammarRule.bind_assoc`, `GrammarRule.run_bind`, `GrammarRule.ok_of_bind`,
`GrammarRule.ok_of_node`, `GrammarRule.ok_of_within`.
-/
import SqlDoc.Sql.Stream
import SqlDoc.Syntax.Tree

namespace SqlDoc

/-- What a rule sees of a significant token. -/
structure Glance where
  kind : SqlKind
  text : String
  value : String
  deriving DecidableEq, Repr

/-- The glance at a token. -/
def Token.glance (t : SqlToken) : Glance where
  kind := t.kind
  text := t.text
  value := t.value

/-- A program that reads groups and builds nodes. -/
inductive GrammarRule : Type → Type 1 where
  /-- Ends with a result. -/
  | done {α : Type} (result : α) : GrammarRule α
  /-- Gives up: something else was required where the next token is. -/
  | missing {α : Type} (expected : String) : GrammarRule α
  /-- Glances at the significant token `n` groups ahead, if there is one. -/
  | look {α : Type} (n : Nat) (next : Option Glance → GrammarRule α) : GrammarRule α
  /-- Asks whether the significant token `n` groups ahead begins a line. -/
  | lineStart {α : Type} (n : Nat) (next : Bool → GrammarRule α) : GrammarRule α
  /-- Asks how many significant tokens are left. -/
  | remaining {α : Type} (next : Nat → GrammarRule α) : GrammarRule α
  /-- Takes the next group into the open node. -/
  | bump {α : Type} (next : GrammarRule α) : GrammarRule α
  /-- Opens a node, reads its inside and closes it. -/
  | node {α β : Type} (kind : NodeKind) (inside : GrammarRule β) (next : β → GrammarRule α) :
      GrammarRule α
  /-- Names the open node. -/
  | setName {α : Type} (name : Name) (next : GrammarRule α) : GrammarRule α
  /-- Sets the kind of the open node. -/
  | setKind {α : Type} (kind : NodeKind) (next : GrammarRule α) : GrammarRule α
  /-- Reads a construct; an error in it says so, unless it names a smaller construct. -/
  | within {α β : Type} (construct : String) (inside : GrammarRule β) (next : β → GrammarRule α) :
      GrammarRule α

namespace GrammarRule

/-- One rule and then another. -/
def bind {α β : Type} : GrammarRule α → (α → GrammarRule β) → GrammarRule β
  | done a, f => f a
  | missing expected, _ => missing expected
  | look n next, f => look n fun seen => (next seen).bind f
  | lineStart n next, f => lineStart n fun b => (next b).bind f
  | remaining next, f => remaining fun n => (next n).bind f
  | bump next, f => bump (next.bind f)
  | node kind inside next, f => node kind inside fun b => (next b).bind f
  | setName name next, f => setName name (next.bind f)
  | setKind kind next, f => setKind kind (next.bind f)
  | within construct inside next, f => within construct inside fun b => (next b).bind f

instance : Monad GrammarRule where
  pure := done
  bind := bind

theorem bind_done {α : Type} (r : GrammarRule α) : r.bind done = r := by
  induction r with
  | done => rfl
  | missing => rfl
  | look n next ih => exact congrArg (look n) (funext ih)
  | lineStart n next ih => exact congrArg (lineStart n) (funext ih)
  | remaining next ih => exact congrArg remaining (funext ih)
  | bump next ih => exact congrArg bump ih
  | node kind inside next _ ih => exact congrArg (node kind inside) (funext ih)
  | setName name next ih => exact congrArg (setName name) ih
  | setKind kind next ih => exact congrArg (setKind kind) ih
  | within construct inside next _ ih => exact congrArg (within construct inside) (funext ih)

theorem bind_assoc {α β γ : Type} (r : GrammarRule α) (f : α → GrammarRule β)
    (g : β → GrammarRule γ) : (r.bind f).bind g = r.bind fun a => (f a).bind g := by
  induction r with
  | done => rfl
  | missing => rfl
  | look n next ih => exact congrArg (look n) (funext fun x => ih x f)
  | lineStart n next ih => exact congrArg (lineStart n) (funext fun x => ih x f)
  | remaining next ih => exact congrArg remaining (funext fun x => ih x f)
  | bump next ih => exact congrArg bump (ih f)
  | node kind inside next _ ih => exact congrArg (node kind inside) (funext fun x => ih x f)
  | setName name next ih => exact congrArg (setName name) (ih f)
  | setKind kind next ih => exact congrArg (setKind kind) (ih f)
  | within construct inside next _ ih =>
    exact congrArg (within construct inside) (funext fun x => ih x f)

instance : LawfulMonad GrammarRule :=
  LawfulMonad.mk' GrammarRule bind_done (fun _ _ => rfl) bind_assoc

end GrammarRule

/-- A token that the grammar requires is missing. -/
structure SyntaxError where
  /-- What was required. -/
  expected : String
  /-- What was there instead. -/
  found : String
  place : Position
  /-- The construct that was being read. -/
  context : Option String := none
  deriving DecidableEq, Repr

namespace SyntaxError

/-- The error for a requirement that the next token does not meet; `stop` is where the text ends if
there is no token. -/
def atToken (expected : String) (next : Option SqlToken) (stop : Position) : SyntaxError :=
  match next with
  | some t => { expected, found := s!"`{t.text}`", place := t.start }
  | none => { expected, found := "end of input", place := stop }

/-- The error with the construct around it, unless it has one. -/
def inside (e : SyntaxError) (construct : String) : SyntaxError :=
  { e with context := e.context.or (some construct) }

/-- The error in words. -/
def message (e : SyntaxError) : String :=
  s!"expected {e.expected}, found {e.found}"

/-- The error as a diagnostic. -/
def toDiagnostic (e : SyntaxError) : Diagnostic :=
  { Diagnostic.error .syntaxError e.message e.place with
    notes := e.context.toList.map ("while parsing " ++ ·) }

end SyntaxError

/-- A node that is being read: its kind, name and the forest below it, so far. -/
structure OpenNode where
  kind : NodeKind
  name : Option Name := none
  below : Forest := .nil

namespace OpenNode

/-- The node with one more group. -/
def addGroup (n : OpenNode) (g : SqlGroup) : OpenNode :=
  { n with below := n.below.append (.group g .nil) }

/-- The node with one more node below it. -/
def addNode (n child : OpenNode) : OpenNode :=
  { n with below := n.below.append (.node child.kind child.name child.below .nil) }

/-- The node as a tree. -/
def toTree (n : OpenNode) : SyntaxTree where
  kind := n.kind
  name := n.name
  below := n.below

end OpenNode

/-- Where reading has come to: the groups ahead, whether a group has been taken, where the last one
ended, and the node that is open. -/
structure ParseState where
  stream : TokenStream
  started : Bool
  stop : Position
  current : OpenNode

namespace ParseState

/-- The group `n` ahead. -/
def peek (s : ParseState) (n : Nat) : Option SqlGroup × ParseState :=
  let (group, stream) := s.stream.peek n
  (group, { s with stream })

/-- The significant token `n` groups ahead. -/
def key (s : ParseState) (n : Nat) : Option SqlToken × ParseState :=
  let (token, stream) := s.stream.peekKey n
  (token, { s with stream })

/-- The significant token `n` groups ahead begins a line. The first token of a file does. -/
def startsLine (s : ParseState) (n : Nat) : Bool × ParseState :=
  if n = 0 ∧ !s.started then (true, s)
  else
    let (group, s) := s.peek n
    (group.any fun g => g.key?.isSome && g.leading.any (·.kind = .newline), s)

/-- Asking whether a line begins leaves the open node as it is. -/
theorem startsLine_current (s : ParseState) (n : Nat) :
    (s.startsLine n).2.current = s.current := by
  unfold startsLine
  split
  · rfl
  · rfl

/-- Takes the next group into the open node. -/
def bump (s : ParseState) : ParseState :=
  match s.stream.next with
  | (none, stream) => { s with stream }
  | (some group, stream) =>
    { stream, started := true, stop := group.span.stop, current := s.current.addGroup group }

end ParseState

namespace GrammarRule

/-- Carries out a rule. -/
def run {α : Type} : GrammarRule α → ParseState → Except SyntaxError α × ParseState
  | done a, s => (.ok a, s)
  | missing expected, s =>
    let (next, s) := s.key 0
    (.error (.atToken expected next s.stop), s)
  | look n next, s =>
    let (token, s) := s.key n
    (next (token.map Token.glance)).run s
  | lineStart n next, s =>
    let (b, s) := s.startsLine n
    (next b).run s
  | remaining next, s => (next s.stream.remaining).run s
  | bump next, s => next.run s.bump
  | node kind inside next, s =>
    match inside.run { s with current := { kind } } with
    | (.error e, inner) => (.error e, inner)
    | (.ok b, inner) => (next b).run { inner with current := s.current.addNode inner.current }
  | setName name next, s => next.run { s with current := { s.current with name := some name } }
  | setKind kind next, s => next.run { s with current := { s.current with kind } }
  | within construct inside next, s =>
    match inside.run s with
    | (.error e, s) => (.error (e.inside construct), s)
    | (.ok b, s) => (next b).run s

/-- After `r` comes what its result calls for, unless it gives up. -/
theorem run_bind {α β : Type} (r : GrammarRule α) (f : α → GrammarRule β) (s : ParseState) :
    (r.bind f).run s =
      match r.run s with
      | (.ok a, s) => (f a).run s
      | (.error e, s) => (.error e, s) := by
  induction r generalizing s with
  | done => rfl
  | missing => rfl
  | look n next ih => exact ih ..
  | lineStart n next ih => exact ih ..
  | remaining next ih => exact ih ..
  | bump next ih => exact ih ..
  | node kind inside next _ ih =>
    simp only [bind, run]
    cases inside.run { s with current := { kind } } with
    | mk result inner =>
      cases result with
      | ok b => exact ih ..
      | error e => rfl
  | setName name next ih => exact ih ..
  | setKind kind next ih => exact ih ..
  | within construct inside next _ ih =>
    simp only [bind, run]
    cases inside.run s with
    | mk result inner =>
      cases result with
      | ok b => exact ih ..
      | error e => rfl

/-- Two rules that end with a result do so one after the other. -/
theorem ok_of_bind {α β : Type} {r : GrammarRule α} {f : α → GrammarRule β} {s next : ParseState}
    {b : β} (h : (r >>= f).run s = (.ok b, next)) :
    ∃ a mid, r.run s = (.ok a, mid) ∧ (f a).run mid = (.ok b, next) := by
  have hrun : (r.bind f).run s = (.ok b, next) := h
  rw [run_bind] at hrun
  split at hrun
  · rename_i a mid hfirst
    exact ⟨a, mid, hfirst, hrun⟩
  · cases hrun

/-- A node that is read to its end has an inside that is, and what comes after it goes on with the
node closed. -/
theorem ok_of_node {α β : Type} {kind : NodeKind} {inside : GrammarRule β}
    {rest : β → GrammarRule α} {s next : ParseState} {a : α}
    (h : (node kind inside rest).run s = (.ok a, next)) :
    ∃ b inner, inside.run { s with current := { kind } } = (.ok b, inner) ∧
      (rest b).run { inner with current := s.current.addNode inner.current } = (.ok a, next) := by
  simp only [run] at h
  split at h
  · cases h
  · rename_i b inner hinner
    exact ⟨b, inner, hinner, h⟩

/-- A construct that is read to its end, and what comes after it. -/
theorem ok_of_within {α β : Type} {construct : String} {inside : GrammarRule β}
    {rest : β → GrammarRule α} {s next : ParseState} {a : α}
    (h : (within construct inside rest).run s = (.ok a, next)) :
    ∃ b inner, inside.run s = (.ok b, inner) ∧ (rest b).run inner = (.ok a, next) := by
  simp only [run] at h
  split at h
  · cases h
  · rename_i b inner hinner
    exact ⟨b, inner, hinner, h⟩

end GrammarRule
end SqlDoc

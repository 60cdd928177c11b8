/-
# Building a table node by node

A builder makes the table of a statement while the statement is read. A node is opened below the one
that was opened last and closed later; the groups that are taken in between are the ones that it
covers. Carrying a rule out with a builder (`GrammarRule.build`) takes the same groups as running
it, and opens and closes a node where the rule has one, also if the rule gives up inside.

Key definitions: `TreeBuilder`, `TreeBuilder.start`, `TreeBuilder.finish`, `BuildState`,
`GrammarRule.build`, `buildSql`.
-/
import SqlDoc.Syntax.Statement
import SqlDoc.Syntax.Table

namespace SqlDoc

/-- A table that is being made: the nodes and groups so far, and the nodes that are open, the one
opened last first. -/
@[ext] structure TreeBuilder where
  nodes : List NodeRow := []
  groups : List SqlGroup := []
  opened : List Nat := []

namespace TreeBuilder

/-- Opens a node below the one opened last. -/
def start (b : TreeBuilder) (kind : NodeKind) : TreeBuilder :=
  let id := b.nodes.length
  let row : NodeRow :=
    { kind
      name := none
      parent := b.opened.head?
      children := []
      firstGroup := b.groups.length
      stopGroup := b.groups.length }
  let nodes := b.nodes ++ [row]
  { b with
    nodes :=
      match b.opened with
      | [] => nodes
      | parent :: _ => nodes.modify parent fun n => { n with children := n.children ++ [id] }
    opened := id :: b.opened }

/-- Closes the node opened last: it covers the groups up to here. -/
def finish (b : TreeBuilder) : TreeBuilder :=
  match b.opened with
  | [] => b
  | id :: opened =>
    { b with
      nodes := b.nodes.modify id fun n => { n with stopGroup := b.groups.length }
      opened }

/-- Adds a group. -/
def pushGroup (b : TreeBuilder) (g : SqlGroup) : TreeBuilder :=
  { b with groups := b.groups ++ [g] }

/-- Changes the node opened last. -/
def modifyOpen (b : TreeBuilder) (f : NodeRow → NodeRow) : TreeBuilder :=
  match b.opened with
  | [] => b
  | id :: _ => { b with nodes := b.nodes.modify id f }

/-- Sets the kind of the node opened last. -/
def setKind (b : TreeBuilder) (kind : NodeKind) : TreeBuilder :=
  b.modifyOpen fun n => { n with kind }

/-- Names the node opened last. -/
def setName (b : TreeBuilder) (name : Name) : TreeBuilder :=
  b.modifyOpen fun n => { n with name := some name }

/-- Closes the nodes that are open and gives the table. -/
def build (b : TreeBuilder) : NodeTable :=
  let b := b.opened.foldl (fun b _ => b.finish) b
  { nodes := b.nodes, groups := b.groups }

end TreeBuilder

/-- Where reading has come to, with the table that is being made. -/
structure BuildState where
  stream : TokenStream
  started : Bool
  stop : Position
  tree : TreeBuilder

namespace BuildState

/-- Where reading begins. -/
def ofLexed (lexed : Lexed) : BuildState where
  stream := .ofLexed lexed
  started := false
  stop := .start
  tree := {}

/-- The significant token `n` groups ahead. -/
def key (s : BuildState) (n : Nat) : Option SqlToken × BuildState :=
  let (token, stream) := s.stream.peekKey n
  (token, { s with stream })

/-- The significant token `n` groups ahead begins a line. The first token of a file does. -/
def startsLine (s : BuildState) (n : Nat) : Bool × BuildState :=
  if n = 0 ∧ !s.started then (true, s)
  else
    let (group, stream) := s.stream.peek n
    (group.any fun g => g.key?.isSome && g.leading.any (·.kind = .newline), { s with stream })

/-- Takes the next group into the table. -/
def bump (s : BuildState) : BuildState :=
  match s.stream.next with
  | (none, stream) => { s with stream }
  | (some group, stream) =>
    { stream, started := true, stop := group.span.stop, tree := s.tree.pushGroup group }

/-- Opens a node. -/
def start (s : BuildState) (kind : NodeKind) : BuildState :=
  { s with tree := s.tree.start kind }

/-- Closes the node opened last. -/
def finish (s : BuildState) : BuildState :=
  { s with tree := s.tree.finish }

end BuildState

/-- Carries out a rule with a builder. A node is closed also if its inside gives up. -/
def GrammarRule.build {α : Type} :
    GrammarRule α → BuildState → Except SyntaxError α × BuildState
  | done a, s => (.ok a, s)
  | missing expected, s =>
    let (next, s) := s.key 0
    (.error (.atToken expected next s.stop), s)
  | look n next, s =>
    let (token, s) := s.key n
    (next (token.map Token.glance)).build s
  | lineStart n next, s =>
    let (b, s) := s.startsLine n
    (next b).build s
  | remaining next, s => (next s.stream.remaining).build s
  | bump next, s => next.build s.bump
  | node kind inside next, s =>
    match inside.build (s.start kind) with
    | (.error e, s) => (.error e, s.finish)
    | (.ok b, s) => (next b).build s.finish
  | setName name next, s => next.build { s with tree := s.tree.setName name }
  | setKind kind next, s => next.build { s with tree := s.tree.setKind kind }
  | within construct inside next, s =>
    match inside.build s with
    | (.error e, s) => (.error (e.inside construct), s)
    | (.ok b, s) => (next b).build s

/-- The tables of the statements of a script, and the error that ends them, if there is one. -/
structure Built where
  tables : List NodeTable
  error : Option ParseError
  deriving DecidableEq, Repr

namespace BuildState

/-- Reads at most `n` statements, each into a table of its own. -/
def tablesUpTo : Nat → BuildState → Built
  | 0, _ => { tables := [], error := none }
  | n + 1, s =>
    match s.key 0 with
    | (none, s) => { tables := [], error := s.stream.error.map .lex }
    | (some _, s) =>
      match GrammarRule.statementNode.build s with
      | (.error e, s) => { tables := [], error := some (s.stream.error.elim (.grammar e) .lex) }
      | (.ok (), s) =>
        if s.tree.nodes.isEmpty then { tables := [], error := s.stream.error.map .lex }
        else
          let rest := tablesUpTo n { s with tree := {} }
          { rest with tables := s.tree.build :: rest.tables }

end BuildState

/-- The statements of a script as tables. -/
def buildSql (source : String) (filename : Option String := none) : Built :=
  let s := BuildState.ofLexed (lexSql source filename)
  s.tablesUpTo (s.stream.remaining + 1)

end SqlDoc

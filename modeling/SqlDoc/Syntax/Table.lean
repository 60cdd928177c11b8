/-
# Tables of nodes

The nodes of a statement may also be kept in a table: the nodes by number, each with the numbers of
its parent and of the nodes directly below it and with the range of the statement's groups that it
covers, and the groups beside them. What is read from a table under a number is none where an index
is out of bounds.

Key definitions: `NodeRow`, `NodeTable`, `NodeTable.groups?`, `NodeTable.header?`,
`NodeTable.walk?`, `SyntaxTree.table`.
-/
import SqlDoc.Syntax.Tree

namespace SqlDoc

/-- A node in a table. It covers the groups from `firstGroup` up to, and not including,
`stopGroup`. -/
structure NodeRow where
  kind : NodeKind
  name : Option Name
  parent : Option Nat
  children : List Nat
  firstGroup : Nat
  stopGroup : Nat
  deriving DecidableEq, Repr

/-- The nodes of a statement by number, and its groups. -/
structure NodeTable where
  nodes : List NodeRow
  groups : List SqlGroup
  deriving DecidableEq, Repr

/-- The number of the first group after the header of a node with the children. A unit has its
members after its header. -/
def NodeRow.headerStop (n : NodeRow) (children : List NodeRow) : Nat :=
  match n.kind with
  | .createUnit _ => (children.find? (·.kind.isMember)).elim n.stopGroup (·.firstGroup)
  | _ => n.stopGroup

namespace NodeTable

/-- The groups from `first` up to, and not including, `stop`. -/
def slice? (t : NodeTable) (first stop : Nat) : Option (List SqlGroup) :=
  if first ≤ stop ∧ stop ≤ t.groups.length then some ((t.groups.drop first).take (stop - first))
  else none

/-- The groups that a node covers. -/
def groups? (t : NodeTable) (id : Nat) : Option (List SqlGroup) := do
  let n ← t.nodes[id]?
  t.slice? n.firstGroup n.stopGroup

/-- The source of a node without the trivia before it. -/
def text? (t : NodeTable) (id : Nat) : Option String :=
  (t.groups? id).map textFromKey

/-- From the first significant token to the end of a node, if it covers anything. -/
def span? (t : NodeTable) (id : Nat) : Option (Option Span) :=
  (t.groups? id).map groupsSpan?

/-- The declaration that is shown to a reader. -/
def header? (t : NodeTable) (id : Nat) : Option String := do
  let n ← t.nodes[id]?
  let children ← n.children.mapM fun child => t.nodes[child]?
  (t.slice? n.firstGroup (n.headerStop children)).map headerText

/-- Visits a node and those below it, following the numbers of children, at most `fuel` nodes deep.
At a node `visit` is given its depth, number, kind and name and the results at its children. -/
def walk? {β : Type} (t : NodeTable) (visit : Nat → Nat → NodeKind → Option Name → List β → β) :
    Nat → Nat → Nat → Option β
  | 0, _, _ => none
  | fuel + 1, depth, id => do
    let n ← t.nodes[id]?
    let below ← n.children.mapM (t.walk? visit fuel (depth + 1))
    return visit depth id n.kind n.name below

/-- The numbers of a node and those below it in the order in which a walk comes to them. -/
def visited? (t : NodeTable) (id : Nat) : Option (List Nat) :=
  t.walk? (fun _ id _ _ below => id :: below.flatten) t.nodes.length 0 id

/-- One line for a node and each one below it, indented by its depth. -/
def outline? (t : NodeTable) (id : Nat) : Option String :=
  t.walk? (fun depth _ kind name below => outlineLine depth kind name ++ String.join below)
    t.nodes.length 0 id

end NodeTable

/-- The row of a node that has been placed. -/
def Placement.row (p : Placement) : NodeRow where
  kind := p.tree.kind
  name := p.tree.name
  parent := p.parent
  children := p.children
  firstGroup := p.firstGroup
  stopGroup := p.firstGroup + p.tree.groups.length

/-- The table of the nodes of a tree. -/
def SyntaxTree.table (t : SyntaxTree) : NodeTable where
  nodes := t.placements.map Placement.row
  groups := t.groups

end SqlDoc

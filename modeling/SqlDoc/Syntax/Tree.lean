/-
# Syntax trees

A syntax tree is a node with a kind, a name if it has one, and a forest below it: the groups of
tokens that the node covers, with nodes for its pieces among them. The tree holds the whole text of
a statement in order, so texts and spans are read off it.

The nodes of a tree are numbered from the root down, a node before the nodes below it and those
before the nodes to its right. `placements` lists them in this order, each with the numbers of its
parent and of its children and the range of the statement's groups that it covers.

Key definitions: `Forest`, `SyntaxTree`, `SyntaxTree.groups`, `SyntaxTree.flatText`,
`SyntaxTree.header`, `SyntaxTree.placements`, `SyntaxTree.ancestor?`.
Key theorems: `Forest.groups_append`, `Forest.place_length`, `Forest.numbered_trees`.
-/
import SqlDoc.Sql.Kind
import SqlDoc.Syntax.Kind
import SqlDoc.Name
import SqlDoc.Text.Blank

namespace SqlDoc

/-- Groups and nodes in a row. -/
inductive Forest where
  | nil
  | group (g : SqlGroup) (rest : Forest)
  | node (kind : NodeKind) (name : Option Name) (below : Forest) (rest : Forest)
  deriving DecidableEq, Repr

/-- A node and what lies below it. -/
structure SyntaxTree where
  kind : NodeKind
  name : Option Name
  below : Forest
  deriving DecidableEq, Repr

/-- The texts of significant tokens, with one blank in the place of the trivia between two of
them. -/
def flatten (started pending : Bool) : List SqlToken → List Char
  | [] => []
  | t :: tokens =>
    if t.isTrivia then flatten started true tokens
    else (if started && pending then [' '] else []) ++ t.text.toList ++ flatten true false tokens

/-- The flattened text of groups. -/
def flattenGroups (groups : List SqlGroup) : String :=
  String.ofList (flatten false false (groups.flatMap (·.tokens)))

/-- The text of groups without the trivia before the first significant token. -/
def textFromKey : List SqlGroup → String
  | [] => ""
  | first :: rest => first.textFromKey ++ String.join (rest.map (·.text))

/-- A text without the blanks at its end, and without `c` if that is its last character then. -/
def dropMark (c : Char) (text : List Char) : List Char :=
  match text.getLast? with
  | some d => if d = c then Text.dropTrailing Text.isBlank text.dropLast else text
  | none => text

/-- The text of groups as a header. A `;` at the end and the parenthesis that opens a list of
members are left out. -/
def headerText (groups : List SqlGroup) : String :=
  let text := Text.dropTrailing Text.isBlank (textFromKey groups).toList
  String.ofList (dropMark '(' (dropMark ';' text))

/-- From the first significant token of groups to their end. -/
def groupsSpan? (groups : List SqlGroup) : Option Span := do
  let first ← groups.head?
  let last ← groups.getLast?
  return .between first.key.span.start last.span.stop

/-- The line of a node in an outline. -/
def outlineLine (depth : Nat) (kind : NodeKind) (name : Option Name) : String :=
  String.ofList (List.replicate (2 * depth) ' ') ++ kind.text ++ name.elim "" (" " ++ ·.display)
    ++ "\n"

namespace Forest

/-- One forest and then another. -/
def append : Forest → Forest → Forest
  | nil, f => f
  | group g rest, f => group g (rest.append f)
  | node kind name below rest, f => node kind name below (rest.append f)

/-- The groups, those of the nodes among them, in order. -/
def groups : Forest → List SqlGroup
  | nil => []
  | group g rest => g :: rest.groups
  | node _ _ below rest => below.groups ++ rest.groups

/-- The groups before the first node at the top that `stop` accepts. -/
def groupsBefore (stop : NodeKind → Bool) : Forest → List SqlGroup
  | nil => []
  | group g rest => g :: rest.groupsBefore stop
  | node kind _ below rest => if stop kind then [] else below.groups ++ rest.groupsBefore stop

/-- The nodes at the top. -/
def trees : Forest → List SyntaxTree
  | nil => []
  | group _ rest => rest.trees
  | node kind name below rest => ⟨kind, name, below⟩ :: rest.trees

/-- How many nodes there are. -/
def size : Forest → Nat
  | nil => 0
  | group _ rest => rest.size
  | node _ _ below rest => 1 + below.size + rest.size

/-- One line for each node, indented by its depth. -/
def outline (depth : Nat) : Forest → String
  | nil => ""
  | group _ rest => rest.outline depth
  | node kind name below rest =>
    outlineLine depth kind name ++ below.outline (depth + 1) ++ rest.outline depth

@[simp] theorem append_nil (f : Forest) : f.append nil = f := by
  induction f with
  | nil => rfl
  | group g rest ih => rw [append, ih]
  | node kind name below rest _ ih => rw [append, ih]

theorem append_assoc (f g h : Forest) : (f.append g).append h = f.append (g.append h) := by
  induction f with
  | nil => rfl
  | group _ rest ih => rw [append, append, append, ih]
  | node _ _ _ rest _ ih => rw [append, append, append, ih]

@[simp] theorem groups_append (f g : Forest) : (f.append g).groups = f.groups ++ g.groups := by
  induction f with
  | nil => rfl
  | group _ _ ih => simp [append, groups, ih]
  | node _ _ _ _ _ ih => simp [append, groups, ih]

@[simp] theorem trees_append (f g : Forest) : (f.append g).trees = f.trees ++ g.trees := by
  induction f with
  | nil => rfl
  | group _ _ ih => simp [append, trees, ih]
  | node _ _ _ _ _ ih => simp [append, trees, ih]

end Forest

/-- A node of a statement, with its place among the statement's nodes and groups. -/
structure Placement where
  tree : SyntaxTree
  parent : Option Nat
  children : List Nat
  /-- The number of the statement's groups before the node. -/
  firstGroup : Nat
  deriving DecidableEq, Repr

namespace Forest

/-- The numbers of the nodes at the top, if the first has number `id`. -/
def ids (id : Nat) : Forest → List Nat
  | nil => []
  | group _ rest => rest.ids id
  | node _ _ below rest => id :: rest.ids (id + 1 + below.size)

/-- The nodes at the top with their numbers, if the first has number `id`. -/
def numbered (id : Nat) : Forest → List (Nat × SyntaxTree)
  | nil => []
  | group _ rest => rest.numbered id
  | node kind name below rest => (id, ⟨kind, name, below⟩) :: rest.numbered (id + 1 + below.size)

@[simp] theorem numbered_trees (f : Forest) (id : Nat) : (f.numbered id).map (·.2) = f.trees := by
  induction f generalizing id with
  | nil => rfl
  | group _ _ ih => exact ih id
  | node _ _ below _ _ ih => simp [numbered, trees, ih]

/-- The placements of all nodes below `parent`, if the first has number `id` and `before` groups
come first. -/
def place (parent id before : Nat) : Forest → List Placement
  | nil => []
  | group _ rest => rest.place parent id (before + 1)
  | node kind name below rest =>
    { tree := ⟨kind, name, below⟩, parent := some parent, children := below.ids (id + 1),
      firstGroup := before }
      :: (below.place id (id + 1) before
        ++ rest.place parent (id + 1 + below.size) (before + below.groups.length))

/-- Every node has a placement. -/
@[simp] theorem place_length (f : Forest) (parent id before : Nat) :
    (f.place parent id before).length = f.size := by
  induction f generalizing parent id before with
  | nil => rfl
  | group _ _ ih => exact ih ..
  | node _ _ _ _ ih₁ ih₂ =>
    simp only [place, size, List.length_cons, List.length_append, ih₁, ih₂]
    omega

end Forest

namespace SyntaxTree

/-- The groups that the node covers. -/
def groups (t : SyntaxTree) : List SqlGroup :=
  t.below.groups

/-- The nodes directly below. -/
def children (t : SyntaxTree) : List SyntaxTree :=
  t.below.trees

/-- The nodes directly below with their numbers, if this one has number `id`. -/
def numberedChildren (t : SyntaxTree) (id : Nat) : List (Nat × SyntaxTree) :=
  t.below.numbered (id + 1)

/-- The first node directly below of a kind. -/
def child? (t : SyntaxTree) (kind : NodeKind) : Option SyntaxTree :=
  t.children.find? (·.kind = kind)

/-- The number of nodes, this one included. -/
def size (t : SyntaxTree) : Nat :=
  1 + t.below.size

/-- The placements of all nodes, this one first. -/
def placements (t : SyntaxTree) : List Placement :=
  { tree := t, parent := none, children := t.below.ids 1, firstGroup := 0 } :: t.below.place 0 1 0

/-- The nearest node of a kind that `test` accepts among the node with number `id`, its parent, the
parent of that and so on. A parent has a smaller number than the nodes below it. -/
def ancestor? (t : SyntaxTree) (test : NodeKind → Bool) (id : Nat) : Option Nat :=
  match t.placements[id]? with
  | none => none
  | some p =>
    if test p.tree.kind then some id
    else
      match p.parent with
      | none => none
      | some parent => if parent < id then t.ancestor? test parent else none
termination_by id

/-- The name, or the empty one. -/
def nameOrEmpty (t : SyntaxTree) : Name :=
  t.name.getD .empty

/-- The significant tokens, in order. -/
def keys (t : SyntaxTree) : List SqlToken :=
  t.groups.filterMap (·.key?)

/-- The normal forms of the significant tokens. -/
def words (t : SyntaxTree) : List String :=
  t.keys.map (·.value)

/-- The trivia before the first significant token. -/
def leadingTrivia (t : SyntaxTree) : List SqlToken :=
  t.groups.head?.elim [] (·.leading)

/-- The documentation comments before the first significant token. -/
def docComments (t : SyntaxTree) : List SqlToken :=
  t.leadingTrivia.filter (·.kind = .docComment)

/-- From the first significant token to the end of the node. -/
def span? (t : SyntaxTree) : Option Span :=
  groupsSpan? t.groups

/-- The source of the node without the trivia before it. -/
def text (t : SyntaxTree) : String :=
  textFromKey t.groups

/-- The source of the node with one blank for each run of trivia and comments. -/
def flatText (t : SyntaxTree) : String :=
  flattenGroups t.groups

/-- The flattened source after the first significant token whose normal form is `word`. -/
def flatTextAfter? (t : SyntaxTree) (word : String) : Option String :=
  match t.groups.dropWhile fun g => g.key?.all (·.value ≠ word) with
  | [] => none
  | _ :: rest => some (flattenGroups rest)

/-- The declaration that is shown to a reader: of a unit the part before its first member, of any
other node all. -/
def header (t : SyntaxTree) : String :=
  headerText <|
    match t.kind with
    | .createUnit _ => t.below.groupsBefore NodeKind.isMember
    | _ => t.groups

/-- One line for each node, indented by its depth. -/
def outline (t : SyntaxTree) : String :=
  (Forest.node t.kind t.name t.below .nil).outline 0

@[simp] theorem placements_length (t : SyntaxTree) : t.placements.length = t.size := by
  simp [placements, size, Nat.add_comm]

end SyntaxTree
end SqlDoc

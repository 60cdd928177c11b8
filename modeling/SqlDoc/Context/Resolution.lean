/-
# Resolution

Resolving a file finds, for each of its declarations and statements, the comments in front of it,
and for each construct that is documented the context that those comments and its declaration make.

A statement becomes a forest: nameable nodes, each with its tags and its context, and those inside
it. Packages and object types have their members inside, routines and cursors their parameters,
records their fields. Bodies are not looked into. Contexts are numbered from the outside in, over
the whole file.

Exceptions are known to the unit that declares them. Whether the name in a `@throws` tag is known is
reported when the unit ends, and for tags outside packages and object types when the file ends.

Key definitions: `Site`, `DocForest`, `DocForest.bind`, `resolveStatement`, `resolve`.
Key theorems: `DocForest.placeContexts_length`, `DocForest.contextCount_bind`.
-/
import SqlDoc.Context.Arena
import SqlDoc.Context.Binding
import SqlDoc.Context.Overload
import SqlDoc.Doc.Comment

namespace SqlDoc

/-- A declaration or a statement, with the tags of the comments in front of it. -/
structure Site where
  /-- The number of its node in the statement. -/
  node : Nat
  kind : NodeKind
  span : Option Span
  tags : List Tag
  /-- What is reported about it. -/
  reports : List Diagnostic

namespace Site

/-- The report of a comment that cannot be split into tokens. -/
def malformed (e : LexError) : Diagnostic :=
  .warning .malformedComment s!"malformed doc comment: {e.message}" (some e.position)

/-- The report of a construct that is not understood. -/
def unresolved (t : SyntaxTree) : Diagnostic :=
  let words := " ".intercalate (t.words.take 2)
  .warning .unresolvedConstruct s!"skipped unrecognised construct `{words}`"
    (t.span?.map (·.start))

/-- The site of the node with a number. -/
def ofTree (node : Nat) (t : SyntaxTree) : Site :=
  let comments := t.docComments.map fun c => parseComment c.text c.span.start
  { node
    kind := t.kind
    span := t.span?
    tags := comments.flatMap (·.tags)
    reports := comments.flatMap (fun c => c.error.toList.map malformed)
      ++ if t.kind = .unhandled then [unresolved t] else [] }

/-- All that is reported about a site is that a comment in front of it is malformed, or that the
construct is not understood. -/
theorem forall_mem_reports {P : Diagnostic → Prop} {node : Nat} {t : SyntaxTree}
    (hmalformed : ∀ e, P (malformed e)) (hunresolved : P (unresolved t)) :
    ∀ d ∈ (ofTree node t).reports, P d := by
  intro d hd
  rcases List.mem_append.1 hd with hd | hd
  · obtain ⟨_, _, hd⟩ := List.mem_flatMap.1 hd
    obtain ⟨e, _, rfl⟩ := List.mem_map.1 hd
    exact hmalformed e
  · split at hd
    · rw [List.mem_singleton.1 hd]
      exact hunresolved
    · cases hd

end Site

/-- Sites in a row, each with the context that it documents, if it documents one, and with those
inside it. -/
inductive DocForest where
  | nil
  | node (site : Site) (context : Option Context) (inside rest : DocForest)

namespace DocForest

/-! ### Declarations -/

/-- The parameters of a method, or the fields of a record, that has the id `owner`. -/
def ofLeaves (owner : String) : List (Nat × SyntaxTree) → DocForest
  | [] => nil
  | (id, t) :: more =>
    if t.kind.isNameable then
      node (.ofTree id t) (leafContext? owner t) nil (ofLeaves owner more)
    else ofLeaves owner more

/-- The parameters of the method with number `id`, which has the id `owner`. -/
def ofParameters (owner : String) (id : Nat) (t : SyntaxTree) : DocForest :=
  match (t.numberedChildren id).find? (·.2.kind = .parameterList) with
  | some (list, parameters) => ofLeaves owner (parameters.numberedChildren list)
  | none => nil

/-- The members of a package or an object type. `bindings` are the codes that its pragmas bind;
`ids` and `exceptions` are the ids and the names of exceptions that come before. Of several
exceptions of one name the first gets the codes. -/
def ofMembers (bindings : List (Name × String)) (ids : OverloadIds) (exceptions : List String) :
    List (Nat × SyntaxTree) → DocForest
  | [] => nil
  | (id, t) :: more =>
    let site := Site.ofTree id t
    let name := t.nameOrEmpty.last
    match t.kind with
    | .method kind =>
      let (owner, ids) := ids.next name
      node site (some (methodContext kind owner t)) (ofParameters owner id t)
        (ofMembers bindings ids exceptions more)
    | .exceptionDecl =>
      let codes := if exceptions.contains name then [] else boundCodes bindings name
      node site (some (exceptionContext codes t)) nil
        (ofMembers bindings ids (name :: exceptions) more)
    | .typeDecl .record =>
      node site (memberContext? t) (ofLeaves t.nameOrEmpty.display (t.numberedChildren id))
        (ofMembers bindings ids exceptions more)
    | kind =>
      let rest := ofMembers bindings ids exceptions more
      if kind.isNameable then node site (memberContext? t) nil rest else rest

/-- The members of the unit that a statement creates. -/
def ofUnit (t : SyntaxTree) : DocForest :=
  ofMembers (t.children.filterMap codeBinding?) .empty [] (t.numberedChildren 0)

/-- A statement. -/
def ofStatement (t : SyntaxTree) : DocForest :=
  let site := Site.ofTree 0 t
  match t.kind with
  | .createUnit unit =>
    let inside :=
      match unit with
      | .package | .objectType => ofUnit t
      | .procedure | .function => ofParameters t.nameOrEmpty.display 0 t
      | .packageBody | .typeBody => nil
    node site (some (unitContext unit t)) inside nil
  | _ => node site none nil nil

/-! ### Contexts -/

/-- How many contexts there are. -/
def contextCount : DocForest → Nat
  | nil => 0
  | node _ context inside rest =>
    context.toList.length + inside.contextCount + rest.contextCount

/-- The contexts at the top. -/
def topContexts : DocForest → List Context
  | nil => []
  | node _ context _ rest => context.toList ++ rest.topContexts

/-- The exceptions at the top, if the first context has number `next`. -/
def exceptions (next : Nat) : DocForest → List DeclaredException
  | nil => []
  | node _ context inside rest =>
    let here :=
      match context with
      | some c =>
        match c.detail with
        | .exceptionDef codes => [{ id := next, name := c.name.last, codes }]
        | _ => []
      | none => []
    here ++ rest.exceptions (next + context.toList.length + inside.contextCount)

/-- The contexts inside `parent`, in the order of their numbers, if the first has number `next`. -/
def placeContexts (parent : Option Nat) (next : Nat) : DocForest → List Context
  | nil => []
  | node _ none inside rest =>
    inside.placeContexts parent next ++ rest.placeContexts parent (next + inside.contextCount)
  | node _ (some c) inside rest =>
    { c with parent } :: (inside.placeContexts (some next) (next + 1)
      ++ rest.placeContexts parent (next + 1 + inside.contextCount))

@[simp] theorem placeContexts_length (f : DocForest) (parent : Option Nat) (next : Nat) :
    (f.placeContexts parent next).length = f.contextCount := by
  induction f generalizing parent next with
  | nil => rfl
  | node _ context _ _ ih₁ ih₂ =>
    cases context with
    | none => simp [placeContexts, contextCount, ih₁, ih₂]
    | some c =>
      simp only [placeContexts, contextCount, List.length_cons, List.length_append, ih₁, ih₂,
        Option.toList_some, List.length_nil]
      omega

/-! ### Binding -/

/-- Adds what a tag says to the first context at the top that it can be about. -/
def describe (isTarget : Context → Bool) (doc : ParamDoc) : DocForest → DocForest
  | nil => nil
  | node site none inside rest => node site none inside (rest.describe isTarget doc)
  | node site (some c) inside rest =>
    if isTarget c && c.name.sameBase doc.name then node site (some (doc.apply c)) inside rest
    else node site (some c) inside (rest.describe isTarget doc)

/-- The context is one that a `@param` tag in front of `owner` may be about. -/
def isTargetOf (owner c : Context) : Bool :=
  owner.kind != .objectType || c.kind == .attributeDecl

/-- Binds the tags of all sites, those of the sites inside one before its own. -/
def bind (scope : BindingScope) : DocForest → DocForest × Reports
  | nil => (nil, {})
  | node site none inside rest =>
    let (inside, inner) := inside.bind scope
    let (rest, after) := rest.bind scope
    (node site none inside rest, ({ now := site.reports } : Reports) ++ inner ++ after)
  | node site (some c) inside rest =>
    let (inside, inner) := inside.bind scope
    let bound := bindTags scope c inside.topContexts site.tags
    let inside := bound.docs.foldl (fun f doc => f.describe (isTargetOf c) doc) inside
    let (rest, after) := rest.bind scope
    (node site (some bound.owner) inside rest,
      ({ now := site.reports } : Reports) ++ inner ++ bound.reports ++ after)

/-- Describing a context leaves the others, and their number, as they are. -/
@[simp] theorem contextCount_describe (isTarget : Context → Bool) (doc : ParamDoc) (f : DocForest) :
    (f.describe isTarget doc).contextCount = f.contextCount := by
  induction f with
  | nil => rfl
  | node site context inside rest _ ih =>
    cases context with
    | none => simp [describe, contextCount, ih]
    | some c =>
      unfold describe
      split <;> simp [contextCount, ih]

theorem contextCount_foldl_describe (isTarget : Context → Bool) (docs : List ParamDoc)
    (f : DocForest) :
    (docs.foldl (fun f doc => f.describe isTarget doc) f).contextCount = f.contextCount := by
  induction docs generalizing f with
  | nil => rfl
  | cons doc docs ih => rw [List.foldl_cons, ih, contextCount_describe]

/-- Binding gives no context and takes none away. -/
@[simp] theorem contextCount_bind (scope : BindingScope) (f : DocForest) :
    (f.bind scope).1.contextCount = f.contextCount := by
  induction f with
  | nil => rfl
  | node site context inside rest ih₁ ih₂ =>
    cases context with
    | none => simp [bind, contextCount, ih₁, ih₂]
    | some c => simp [bind, contextCount, contextCount_foldl_describe, ih₁, ih₂]

end DocForest

/-- The tags of one declaration or statement, and the context that it documents. -/
structure CommentRecord where
  /-- The number of the statement in the file. -/
  statement : Nat
  site : Site
  context : Option Nat

/-- Something is said about it. -/
def CommentRecord.hasDocs (c : CommentRecord) : Bool :=
  !c.site.tags.isEmpty

/-- The records of all sites, if the first context has number `next`. -/
def DocForest.records (statement next : Nat) : DocForest → List CommentRecord
  | nil => []
  | node site context inside rest =>
    let after := next + context.toList.length
    { statement, site, context := context.map fun _ => next }
      :: (inside.records statement after
        ++ rest.records statement (after + inside.contextCount))

/-- Everything that a file documents. -/
structure Resolution where
  contexts : ContextArena
  /-- One for each declaration and each statement, in the order of the source. -/
  comments : List CommentRecord
  /-- The contexts of the units. -/
  units : List Nat

namespace Resolution

/-- The record of a context. -/
def commentFor? (r : Resolution) (id : Nat) : Option CommentRecord :=
  r.comments.find? (·.context = some id)

/-- The unit with a name. -/
def unit? (r : Resolution) (name : String) : Option Nat :=
  r.units.find? fun id => (r.contexts.get? id).any (·.name.display = name)

end Resolution

/-- The unit ends with its statement, so that what is reported late about it is reported then. -/
def endsUnit (kind : NodeKind) : Bool :=
  kind = .createUnit .package || kind = .createUnit .objectType

/-- Resolves a statement whose first context gets number `next`. -/
def resolveStatement (warnOrphans : Bool) (next : Nat) (t : SyntaxTree) : DocForest × Reports :=
  let declared := DocForest.ofStatement t
  let exceptions :=
    match declared with
    | .node _ _ inside _ => inside.exceptions (next + 1)
    | .nil => []
  let (forest, reports) := declared.bind { exceptions, warnOrphans }
  (forest, if endsUnit t.kind then { now := reports.now ++ reports.late } else reports)

/-- Resolves statements, the first of which has number `statement` and whose first context gets
number `next`. -/
def resolveFrom (warnOrphans : Bool) (statement next : Nat) :
    List SyntaxTree → Resolution × Reports
  | [] => ({ contexts := .empty, comments := [], units := [] }, {})
  | t :: more =>
    let (forest, reports) := resolveStatement warnOrphans next t
    let count := forest.contextCount
    let (rest, after) := resolveFrom warnOrphans (statement + 1) (next + count) more
    ({ contexts := ⟨forest.placeContexts none next ++ rest.contexts.toList⟩
       comments := forest.records statement next ++ rest.comments
       units := (if count = 0 then [] else [next]) ++ rest.units },
      reports ++ after)

/-- Resolves the statements of a file. Gives what they document and what is reported about them. -/
def resolve (trees : List SyntaxTree) (warnOrphans : Bool := true) :
    Resolution × List Diagnostic :=
  let (resolution, reports) := resolveFrom warnOrphans 0 0 trees
  (resolution, reports.now ++ reports.late)

end SqlDoc

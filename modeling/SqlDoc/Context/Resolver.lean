/-
# Resolving statement by statement

A resolver goes through the nodes of one statement after the other. A context is put into a table
where its declaration is met, before those inside it, and its row is filled in later: the numbers of
the contexts inside it as those are met, what its tags say when all of them have been, and the
exceptions that it raises when the unit ends. Scopes keep what a unit has declared so far and what
is to be done at its end; the scope of the file is below those of the units and ends last.

Key definitions: `ContextTable`, `ContextTable.path?`, `Resolver`, `Resolver.visit`,
`Resolver.closeScope`, `resolveAll`.
-/
import SqlDoc.Context.Resolution

namespace SqlDoc

/-- A method has parameters, and a record has fields. -/
def Detail.hasMembers : Detail → Bool
  | .method .. | .record => true
  | _ => false

/-- A context in a table. -/
structure ContextRow where
  context : Context
  /-- The numbers of the contexts directly inside it. -/
  children : List Nat := []
  /-- The parameters of a method, or the fields of a record. -/
  members : List Nat := []

/-- The row with another context. -/
def ContextRow.modifyContext (row : ContextRow) (f : Context → Context) : ContextRow :=
  { row with context := f row.context }

/-- The contexts of a file by number, the records of its sites, and its units. -/
structure ContextTable where
  rows : List ContextRow := []
  comments : List CommentRecord := []
  units : List Nat := []

namespace ContextTable

/-- The ids from a context outwards. None if that takes more than `steps` contexts. -/
def idsOutward? (t : ContextTable) : Nat → Nat → Option (List String)
  | 0, _ => none
  | steps + 1, id => do
    let row ← t.rows[id]?
    match row.context.parent with
    | none => return [row.context.id]
    | some parent => return row.context.id :: (← t.idsOutward? steps parent)

/-- The ids from the outermost context down, such as `EMP_API/GET-1`. -/
def path? (t : ContextTable) (id : Nat) : Option String :=
  (t.idsOutward? t.rows.length id).map fun ids => "/".intercalate ids.reverse

end ContextTable

/-- A `@throws` tag that waits for the end of its unit. -/
structure PendingThrows where
  context : Nat
  name : Name
  description : String
  place : Position

/-- What a unit has declared so far, and what is to be done at its end. -/
structure UnitScope where
  ids : OverloadIds := .empty
  /-- The first exception of each unqualified name. -/
  exceptions : List (String × Nat) := []
  /-- Every exception, in order. -/
  declared : List Nat := []
  pending : List PendingThrows := []
  /-- The codes that pragmas bind to exceptions. -/
  bindings : List (Name × String) := []

/-- Where resolving has come to. -/
structure Resolver where
  warnOrphans : Bool
  table : ContextTable := {}
  /-- The number of the statement. -/
  statement : Nat := 0
  /-- The scopes that are open, the innermost first. -/
  scopes : List UnitScope := [{}]
  reports : List Diagnostic := []

namespace Resolver

variable (r : Resolver)

/-! ### Steps -/

/-- Reports. -/
def report (reports : List Diagnostic) : Resolver :=
  { r with reports := r.reports ++ reports }

/-- Changes the row of a context. -/
def modifyRow (id : Nat) (f : ContextRow → ContextRow) : Resolver :=
  { r with table := { r.table with rows := r.table.rows.modify id f } }

/-- Changes a context. -/
def modifyContext (id : Nat) (f : Context → Context) : Resolver :=
  r.modifyRow id (·.modifyContext f)

/-- Changes the innermost scope. -/
def modifyScope (f : UnitScope → UnitScope) : Resolver :=
  { r with scopes := r.scopes.modifyHead f }

/-- The context with a number. -/
def context? (id : Nat) : Option Context :=
  (r.table.rows[id]?).map (·.context)

/-- Puts a context into the table, and its number into the row of the context around it. -/
def alloc (c : Context) : Nat × Resolver :=
  let id := r.table.rows.length
  let r := c.parent.elim r fun parent =>
    r.modifyRow parent fun row => { row with children := row.children ++ [id] }
  (id, { r with table := { r.table with rows := r.table.rows ++ [{ context := c }] } })

/-- Reports a tag with nothing to bind to, if such are reported. -/
def orphan (t : Tag) (message : String) : Resolver :=
  if r.warnOrphans then r.report [.warning .orphanTag message (some t.span.start)] else r

/-- Reports a tag for what an earlier tag was about. -/
def duplicate (t : Tag) (what : String) : Resolver :=
  r.report [.warning .duplicateTag s!"duplicate {what} ignored" (some t.span.start)]

/-! ### Declarations -/

/-- Puts a context into the table if there is one. -/
def allocIn (parent : Option Nat) (c : Option Context) : Option Nat × Resolver :=
  match c with
  | none => (none, r)
  | some c =>
    let (id, r) := r.alloc { c with parent }
    (some id, r)

/-- A method. Those of a container are given the ids that the scope hands out. -/
def declareMethod (kind : MethodKind) (t : SyntaxTree) (parent : Option Nat) :
    Option Nat × Resolver :=
  if (parent.bind r.context?).any (·.kind.isContainer) then
    let (id, ids) := (r.scopes.headD {}).ids.next t.nameOrEmpty.last
    (r.modifyScope fun s => { s with ids }).allocIn parent (methodContext kind id t)
  else r.allocIn parent (methodContext kind t.nameOrEmpty.display t)

/-- An exception, which the scope keeps. -/
def declareException (t : SyntaxTree) (parent : Option Nat) : Option Nat × Resolver :=
  let name := t.nameOrEmpty.last
  let id := r.table.rows.length
  let (context, r) := r.allocIn parent (exceptionContext [] t)
  (context, r.modifyScope fun s =>
    { s with
      exceptions := if s.exceptions.any (·.1 = name) then s.exceptions
        else s.exceptions ++ [(name, id)]
      declared := s.declared ++ [id] })

/-- A parameter or a field. Its id has the id of the context around it in front. -/
def declareLeaf (t : SyntaxTree) (parent : Option Nat) : Option Nat × Resolver :=
  r.allocIn parent <|
    match parent.bind r.context? with
    | some owner => leafContext? owner.id t
    | none => (leafContext? "" t).map fun c => { c with id := t.nameOrEmpty.display }

/-- What a declaration or a statement declares, if it declares something. A pragma is noted. -/
def declare (t : SyntaxTree) (parent : Option Nat) : Option Nat × Resolver :=
  match t.kind with
  | .createUnit unit => r.allocIn none (unitContext unit t)
  | .method kind => r.declareMethod kind t parent
  | .exceptionDecl => r.declareException t parent
  | .attributeDecl | .variableDecl _ | .subtypeDecl | .typeDecl _ =>
    r.allocIn parent (memberContext? t)
  | .parameter _ | .fieldDecl => r.declareLeaf t parent
  | .pragma =>
    (none, r.modifyScope fun s => { s with bindings := s.bindings ++ (codeBinding? t).toList })
  | _ => (none, r)

/-! ### Tags -/

/-- What the tags of a context have come to so far. -/
structure Bound where
  /-- The descriptions. -/
  descriptions : List String := []
  /-- The names that `@param` tags were about. -/
  named : List String := []
  /-- A `@return` tag has been met. -/
  returned : Bool := false

/-- The contexts that a `@param` tag in front of a context may be about, and what they are. -/
def paramTargets? (row : ContextRow) : Option (List Nat × String) :=
  match row.context.detail with
  | .method .. => some (row.members, "parameter")
  | .record => some (row.members, "field")
  | _ =>
    if row.context.kind = .objectType then
      some (row.children.filter fun id => (r.context? id).any (·.kind = .attributeDecl),
        "attribute")
    else none

/-- Keeps a tag with a context. -/
def annotate (id : Nat) (t : Tag) : Resolver :=
  r.modifyContext id fun c => { c with annotations := c.annotations ++ [t] }

/-- Binds a `@param` tag. -/
def bindParam (id : Nat) (row : ContextRow) (b : Bound) (t : Tag) (name : Option Name)
    (doc : Name → ParamDoc) : Bound × Resolver :=
  match r.paramTargets? row with
  | none => (b, r.annotate id t)
  | some (targets, noun) =>
    match name with
    | none => (b, r.orphan t "`@param` without a name")
    | some name =>
      if b.named.contains name.display then (b, r.duplicate t s!"`@param {name.display}`")
      else
        let b := { b with named := name.display :: b.named }
        match targets.find? fun target => (r.context? target).any (·.name.sameBase name) with
        | some target => (b, r.modifyContext target (doc name).apply)
        | none =>
          (b, r.orphan t
            s!"`@param {name.display}` matches no {noun} of `{row.context.name.display}`")

/-- Binds a `@return` tag. -/
def bindReturn (id : Nat) (row : ContextRow) (b : Bound) (t : Tag) (type : Option String) :
    Bound × Resolver :=
  if !row.context.kind.isMethod then (b, r.annotate id t)
  else if b.returned then (b, r.duplicate t "`@return`")
  else
    let b := { b with returned := true }
    match row.context.detail with
    | .method (some returns) signature modifiers =>
      let returns := { returns with description := t.text, docType := type }
      (b, r.modifyContext id fun c =>
        { c with detail := .method (some returns) signature modifiers })
    | _ => (b, r.orphan t s!"`@return` on `{row.context.name.display}`, which returns nothing")

/-- Binds a tag to a context. -/
def bindTag (id : Nat) (state : Bound × Resolver) (t : Tag) : Bound × Resolver :=
  let (b, r) := state
  match r.table.rows[id]? with
  | none => (b, r)
  | some row =>
    match t.body with
    | .description =>
      (if t.text = "" then b else { b with descriptions := b.descriptions ++ [t.text] }, r)
    | .param name type default isOptional =>
      r.bindParam id row b t name fun name =>
        { name, text := t.text, type := type.map (·.text), default, isOptional }
    | .returns type => r.bindReturn id row b t (type.map (·.text))
    | .throws none => (b, r.orphan t "`@throws` without a name")
    | .throws (some name) =>
      (b, r.modifyScope fun s =>
        { s with
          pending := s.pending ++
            [{ context := id, name, description := t.text, place := t.span.start }] })
    | .link .. | .visibility _ | .generic => (b, r.annotate id t)

/-- Binds tags to a context. Its descriptions are joined, with a blank line between each two. -/
def bind (id : Nat) (tags : List Tag) : Resolver :=
  let (b, r) := tags.foldl (bindTag id) ({}, r)
  if b.descriptions = [] then r
  else r.modifyContext id fun c => { c with description := "\n\n".intercalate b.descriptions }

/-! ### Ends of scopes -/

/-- The exception of a name in a scope that ends or in those around it. -/
def findException? (scope : UnitScope) (name : Name) : Option Nat :=
  (scope :: r.scopes).findSome? fun s => (s.exceptions.find? (·.1 = name.last)).map (·.2)

/-- Binds the code of a pragma to its exception. -/
def bindCode (scope : UnitScope) (binding : Name × String) : Resolver :=
  match r.findException? scope binding.1 with
  | none => r
  | some id =>
    r.modifyContext id fun c =>
      match c.detail with
      | .exceptionDef codes =>
        { c with
          detail := .exceptionDef
            (if codes.contains binding.2 then codes else codes ++ [binding.2]) }
      | _ => c

/-- The exception has the code. -/
def hasCode (code : Int) (id : Nat) : Bool :=
  (r.context? id).any fun c =>
    match c.detail with
    | .exceptionDef codes => codes.any fun c => errorCode? c = some code
    | _ => false

/-- What the name in a `@throws` tag stands for when a scope ends. -/
def throwsTarget (scope : UnitScope) (name : Name) : ThrowsTarget :=
  match r.findException? scope name with
  | some id => .declared id
  | none =>
    match errorCode? name.display with
    | some code =>
      ((scope :: r.scopes).findSome? fun s => s.declared.find? (r.hasCode code)).elim .errorCode
        .declared
    | none => if predefinedExceptions.contains name.last then .predefined else .unknown

/-- Adds an exception to the context of its tag, and reports it if nothing of the name is known. -/
def bindThrows (scope : UnitScope) (p : PendingThrows) : Resolver :=
  let target := r.throwsTarget scope p.name
  let r :=
    if target = .unknown ∧ r.warnOrphans then
      r.report [.warning .orphanTag s!"`@throws {p.name.display}` names no known exception"
        (some p.place)]
    else r
  r.modifyContext p.context fun c =>
    { c with throws := c.throws ++ [{ name := p.name, description := p.description, target }] }

/-- Does what was to be done at the end of a scope. -/
def closeScope (scope : UnitScope) : Resolver :=
  let r := scope.bindings.foldl (fun r binding => r.bindCode scope binding) r
  scope.pending.foldl (fun r p => r.bindThrows scope p) r

/-- Ends the scopes, the first of them with the others around it. -/
def closeScopes : List UnitScope → Resolver → Resolver
  | [], r => { r with scopes := [] }
  | scope :: around, r => closeScopes around ({ r with scopes := around }.closeScope scope)

/-- Ends the innermost scope. -/
def endUnit : Resolver :=
  match r.scopes with
  | [] => r
  | scope :: around => { r with scopes := around }.closeScope scope

/-! ### Nodes -/

/-- Puts a context into the row of the one around it, if that is a method or a record. -/
def list (owner member : Nat) : Resolver :=
  r.modifyRow owner fun row =>
    if row.context.detail.hasMembers then { row with members := row.members ++ [member] } else row

/-- Visits what is inside a context and binds its tags. `members` visits the nodes directly below
its node, `parameters` those of its list of parameters. -/
def visitInside (kind : NodeKind) (id : Nat) (tags : List Tag)
    (members parameters : Resolver → Resolver) : Resolver :=
  match kind with
  | .createUnit .package | .createUnit .objectType =>
    ((members { r with scopes := {} :: r.scopes }).bind id tags).endUnit
  | .createUnit .procedure | .createUnit .function | .method _ => (parameters r).bind id tags
  | .typeDecl .record => (members r).bind id tags
  | _ => r.bind id tags

/-- Makes the record of a site, without its tags. -/
def putRecord (site : Site) (context : Option Nat) : Resolver :=
  let record := { statement := r.statement, site := { site with tags := [] }, context }
  { r with table := { r.table with comments := r.table.comments ++ [record] } }

/-- Gives a record its tags. -/
def giveTags (index : Nat) (tags : List Tag) : Resolver :=
  let withTags (c : CommentRecord) : CommentRecord := { c with site := { c.site with tags } }
  { r with table := { r.table with comments := r.table.comments.modify index withTags } }

/-- Visits a node: makes its record and its context. The record is given the tags when all inside
has been visited. -/
def enter (parent : Option Nat) (id : Nat) (t : SyntaxTree)
    (members parameters : Nat → Resolver → Resolver) : Option Nat × Resolver :=
  if t.kind.isNameable then
    let site := Site.ofTree id t
    let (context, r) := (r.report site.reports).declare t parent
    let index := r.table.comments.length
    let r := r.putRecord site context
    let r := context.elim r fun c => r.visitInside t.kind c site.tags (members c) (parameters c)
    (context, r.giveTags index site.tags)
  else (none, r)

mutual

/-- Visits nodes, the first of which has number `id`, as members of the context `owner`. -/
def visitMembers : Forest → Nat → Nat → Resolver → Resolver
  | .nil, _, _, r => r
  | .group _ rest, owner, id, r => visitMembers rest owner id r
  | .node kind name below rest, owner, id, r =>
    let (member, r) := r.enter (some owner) id ⟨kind, name, below⟩
      (fun c => visitMembers below c (id + 1)) (fun c => visitParameters below c (id + 1))
    visitMembers rest owner (id + 1 + below.size) (member.elim r (r.list owner))

/-- Visits the nodes below the first list of parameters. -/
def visitParameters : Forest → Nat → Nat → Resolver → Resolver
  | .nil, _, _, r => r
  | .group _ rest, owner, id, r => visitParameters rest owner id r
  | .node kind _ below rest, owner, id, r =>
    if kind = .parameterList then visitMembers below owner (id + 1) r
    else visitParameters rest owner (id + 1 + below.size) r

end

/-- Visits the node of a statement. -/
def visit (t : SyntaxTree) : Option Nat × Resolver :=
  r.enter none 0 t (fun c => visitMembers t.below c 1) (fun c => visitParameters t.below c 1)

/-- Resolves one more statement. -/
def resolveTree (t : SyntaxTree) : Resolver :=
  let (unit, r) := r.visit t
  { r with
    table := { r.table with units := r.table.units ++ unit.toList }
    statement := r.statement + 1 }

/-- Ends what is still open. -/
def finish : Resolver :=
  closeScopes r.scopes r

end Resolver

/-- Resolves the statements of a file one after the other. -/
def resolveAll (trees : List SyntaxTree) (warnOrphans : Bool := true) :
    ContextTable × List Diagnostic :=
  let r := (trees.foldl Resolver.resolveTree { warnOrphans }).finish
  (r.table, r.reports)

end SqlDoc

/-
# Entities

An entity is a context made ready for a reader: plain texts in the place of tags, the members of a
container sorted by what they are, and the overloads of a routine together under their name. What
is hidden is left out, with everything inside it.

Key definitions: `Entity`, `Members`, `Resolution.entity?`, `Document.entities`.
-/
import SqlDoc.Document.Basic

namespace SqlDoc

/-- A parameter. -/
structure ParamEntity where
  name : String
  mode : ParamMode
  nocopy : Bool
  type : String
  docType : Option String
  default : Option String
  isOptional : Bool
  description : String
  deriving DecidableEq, Repr

/-- An exception that is raised. -/
structure ThrowsEntity where
  name : String
  description : String
  /-- What the name stands for. -/
  resolution : String
  /-- The path of the exception, if the unit declares it. -/
  target : Option String
  deriving DecidableEq, Repr

/-- A link. -/
structure LinkEntity where
  kind : String
  /-- The target as it is written. -/
  reference : String
  /-- The name that the target stands for, or its text if it is no name. -/
  target : String
  text : String
  args : Option (List String)
  deriving DecidableEq, Repr

/-- A tag that has no place of its own. -/
structure Annotation where
  kind : String
  text : String
  deriving DecidableEq, Repr

mutual

/-- One documented construct. -/
structure Entity where
  kind : ContextKind
  name : String
  id : String
  /-- The ids from the unit down. -/
  path : String
  header : String
  location : Option String
  span : Option Span
  description : String
  type : Option String := none
  default : Option String := none
  /-- What a type is, or the constraints of a subtype. -/
  definition : Option String := none
  authid : Option String := none
  baseType : Option String := none
  errorCodes : List String := []
  params : List ParamEntity := []
  returns : Option ReturnDoc := none
  throws : List ThrowsEntity
  links : List LinkEntity
  annotations : List Annotation
  deprecated : Option String
  visibility : Option String
  members : Members

/-- The members of a container by what they are, in the order of their declarations. -/
structure Members where
  routines : List Overloads
  types : List Entity
  constants : List Entity
  variableDecls : List Entity
  exceptions : List Entity
  /-- The fields of a record, or the attributes of an object type. -/
  fields : List Entity

/-- The routines of one name. -/
structure Overloads where
  name : String
  overloads : List Entity

end

namespace Members

/-- No members. -/
def empty : Members where
  routines := []
  types := []
  constants := []
  variableDecls := []
  exceptions := []
  fields := []

/-- There are no members. -/
def isEmpty (m : Members) : Bool :=
  m.routines.isEmpty && m.types.isEmpty && m.constants.isEmpty && m.variableDecls.isEmpty
    && m.exceptions.isEmpty && m.fields.isEmpty

/-- The routines by name, the names in the order of their first routines. -/
def groupOverloads (routines : List Entity) : List Overloads :=
  (routines.map (·.name)).eraseDups.map fun name =>
    { name, overloads := routines.filter (·.name = name) }

/-- Members sorted by what they are. Parameters are none. -/
def ofEntities (entities : List Entity) : Members where
  routines := groupOverloads (entities.filter (·.kind.isMethod))
  types := entities.filter fun e =>
    [.record, .typeDecl, .subtypeDecl, .package, .packageBody, .objectType, .typeBody].contains
      e.kind
  constants := entities.filter (·.kind = .constant)
  variableDecls := entities.filter (·.kind = .variableDecl)
  exceptions := entities.filter (·.kind = .exceptionDecl)
  fields := entities.filter fun e => e.kind = .fieldDecl || e.kind = .attributeDecl

end Members

/-- The link that a tag is, if it is one. -/
def linkEntity? (t : Tag) : Option LinkEntity :=
  match t.body with
  | .link target reference =>
    let (kind, name, args) : String × String × Option (List String) :=
      match target with
      | .url url => ("url", url, none)
      | .hash ref => ("hash", ref.name.display, ref.args)
      | .identifier ref => ("identifier", ref.name.display, ref.args)
      | .expression expr => ("expression", expr.text, none)
      | .missing => ("missing", "", none)
    some { kind, reference, target := name, text := t.displayText, args }
  | _ => none

/-- The tag has a place of its own in an entity. -/
def hasPlace (t : Tag) : Bool :=
  match t.body with
  | .link .. | .visibility _ => true
  | _ => t.marker = "deprecated"

/-- The annotations of a context that have no place of their own. -/
def plainAnnotations (c : Context) : List Annotation :=
  (c.annotations.filter (!hasPlace ·)).map fun t => { kind := t.kind, text := t.text }

namespace Resolution

/-- The links of a context: its own tags, then those inside its descriptions. -/
def links (r : Resolution) (id : Nat) (c : Context) : List LinkEntity :=
  let tags := (r.commentFor? id).elim [] (·.site.tags)
  let inDescriptions := (tags.filter (·.isDescription)).flatMap fun t => inlineTags t.content
  (c.annotations ++ inDescriptions).filterMap linkEntity?

/-- An exception that is raised. -/
def throwsEntity (r : Resolution) (t : ThrowsDoc) : ThrowsEntity :=
  let (resolution, target) : String × Option String :=
    match t.target with
    | .declared id => ("declared", some (r.contexts.path id))
    | .predefined => ("predefined", none)
    | .errorCode => ("error code", none)
    | .unknown => ("unknown", none)
  { name := t.name.display, description := t.description, resolution, target }

/-- The parameter that a context is about. -/
def paramEntity? (c : Context) : Option ParamEntity :=
  match c.detail with
  | .parameter info => some {
      name := c.name.display
      mode := info.mode
      nocopy := info.nocopy
      type := info.type
      docType := info.docType
      default := info.default
      isOptional := info.isOptional
      description := c.description }
  | _ => none

/-- An entity with what its kind has and others have not. -/
def addDetail (c : Context) (inside : List Context) (e : Entity) : Entity :=
  match c.detail with
  | .plain => e
  | .unit _ authid baseType _ => { e with authid, baseType }
  | .method returns _ _ => { e with params := inside.filterMap paramEntity?, returns }
  | .record => e
  | .value type default => { e with type := some type, default }
  | .subtypeDef base constraints =>
    { e with
      type := some base
      definition := if constraints = [] then none else some (" ".intercalate constraints) }
  | .typeDef _ definition => { e with definition := some definition }
  | .parameter info => { e with type := some info.type, default := info.default }
  | .exceptionDef codes => { e with errorCodes := codes }

/-- The context has members of its own. -/
def hasMembers (c : Context) : Bool :=
  match c.detail with
  | .unit .. | .record => true
  | _ => false

/-- The entity of a context, unless it is hidden. -/
def entity? (r : Resolution) (config : DocConfig) (id : Nat) : Option Entity :=
  match r.contexts.get? id with
  | none => none
  | some c =>
    if c.isHidden && !config.includePrivate then none
    else
      let members := (r.contexts.children id).attach.filterMap fun ⟨(child, d), _⟩ =>
        if hasMembers c && d.kind != .parameter then r.entity? config child else none
      some (addDetail c ((r.contexts.children id).map (·.2)) {
        kind := c.kind
        name := c.name.display
        id := c.id
        path := r.contexts.path id
        header := c.header
        location := c.span.map fun s => s.start.display config.format
        span := c.span
        description := c.description
        throws := c.throws.map r.throwsEntity
        links := r.links id c
        annotations := plainAnnotations c
        deprecated := c.deprecated?
        visibility := c.visibility?.map (·.text)
        members := .ofEntities members })
termination_by r.contexts.size - id
decreasing_by
  have := ContextArena.lt_of_mem_children ‹(child, d) ∈ r.contexts.children id›
  omega

end Resolution

/-- The entities of a document's units. -/
def Document.entities (d : Document) (config : DocConfig) : List Entity :=
  d.resolution.units.filterMap (d.resolution.entity? config)

end SqlDoc

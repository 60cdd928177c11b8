/-
# Binding tags

The tags in front of a construct add to its context: descriptions to the description, `@return` to
the result of a function, `@throws` to the exceptions it raises. `@param` adds to a parameter of a
method, a field of a record or an attribute of an object type; a description there wins over one
here, except for parameters. What binds to nothing stays with the context as an annotation.

A second tag for the same thing is reported and left out, and so is a tag for what is not there.

Key definitions: `Binding`, `Binding.addTag`, `bindTags`, `ParamDoc.apply`.
-/
import SqlDoc.Context.Exceptions
import SqlDoc.Diagnostic

namespace SqlDoc

/-- What is reported: at once, and when the unit or the file ends. -/
structure Reports where
  now : List Diagnostic := []
  late : List Diagnostic := []
  deriving DecidableEq, Repr

namespace Reports

/-- One list of reports after another, both now and late. -/
def append (r s : Reports) : Reports where
  now := r.now ++ s.now
  late := r.late ++ s.late

instance : Append Reports := ⟨append⟩

end Reports

/-- What tags are bound against: the exceptions of the unit, and whether tags with nothing to bind
to are reported. -/
structure BindingScope where
  exceptions : List DeclaredException
  warnOrphans : Bool

/-- What a tag says about a parameter, a field or an attribute. -/
structure ParamDoc where
  name : Name
  text : String
  type : Option String
  default : Option String
  isOptional : Bool
  deriving DecidableEq, Repr

/-- Adds what a tag says to the context of a parameter, a field or an attribute. -/
def ParamDoc.apply (d : ParamDoc) (c : Context) : Context :=
  match c.detail with
  | .parameter info =>
    { c with
      description := if d.text = "" then c.description else d.text
      detail := .parameter { info with
        docType := d.type
        isOptional := d.isOptional
        default := info.default.or d.default } }
  | _ => { c with description := if c.description = "" then d.text else c.description }

namespace ParamDoc

@[simp] theorem name_apply (d : ParamDoc) (c : Context) : (d.apply c).name = c.name := by
  unfold apply
  split <;> rfl

@[simp] theorem kind_apply (d : ParamDoc) (c : Context) : (d.apply c).kind = c.kind := by
  unfold apply
  split <;> rfl

end ParamDoc

/-- What `@param` tags are about, and the names of what there is. -/
structure ParamTargets where
  noun : String
  names : List Name

/-- A context and what its tags have come to so far. -/
structure Binding where
  owner : Context
  /-- The descriptions. -/
  descriptions : List String := []
  /-- The names that `@param` tags were about. -/
  named : List String := []
  /-- A `@return` tag has been met. -/
  returned : Bool := false
  /-- What is said about parameters, fields or attributes. -/
  docs : List ParamDoc := []
  reports : Reports := {}

namespace Binding

/-- Reports at once. -/
def warn (b : Binding) (code : Code) (message : String) (t : Tag) : Binding :=
  { b with reports := b.reports ++ { now := [.warning code message (some t.span.start)] } }

/-- Reports a tag with nothing to bind to, if such are reported. -/
def orphan (b : Binding) (scope : BindingScope) (t : Tag) (message : String) : Binding :=
  if scope.warnOrphans then b.warn .orphanTag message t else b

/-- Reports a tag for what an earlier tag was about. -/
def duplicate (b : Binding) (t : Tag) (what : String) : Binding :=
  b.warn .duplicateTag s!"duplicate {what} ignored" t

/-- Keeps a tag with the context. -/
def annotate (b : Binding) (t : Tag) : Binding :=
  { b with owner := { b.owner with annotations := b.owner.annotations ++ [t] } }

/-- Adds a description, unless it is empty. -/
def addDescription (b : Binding) (t : Tag) : Binding :=
  if t.text = "" then b else { b with descriptions := b.descriptions ++ [t.text] }

/-- Adds what a tag says about the parameter `name`. -/
def addParam (b : Binding) (scope : BindingScope) (targets : ParamTargets) (t : Tag) (name : Name)
    (doc : ParamDoc) : Binding :=
  if b.named.contains name.display then b.duplicate t s!"`@param {name.display}`"
  else
    let b := { b with named := name.display :: b.named }
    if targets.names.any (·.sameBase name) then { b with docs := b.docs ++ [doc] }
    else
      b.orphan scope t
        s!"`@param {name.display}` matches no {targets.noun} of `{b.owner.name.display}`"

/-- Adds what a tag says about the result. -/
def addReturn (b : Binding) (scope : BindingScope) (t : Tag) (type : Option String) : Binding :=
  if !b.owner.kind.isMethod then b.annotate t
  else if b.returned then b.duplicate t "`@return`"
  else
    let b := { b with returned := true }
    match b.owner.detail with
    | .method (some returns) signature modifiers =>
      let returns := { returns with description := t.text, docType := type }
      { b with owner := { b.owner with detail := .method (some returns) signature modifiers } }
    | _ => b.orphan scope t s!"`@return` on `{b.owner.name.display}`, which returns nothing"

/-- Adds an exception. If nothing of the name is known, that is reported when the unit ends. -/
def addThrows (b : Binding) (scope : BindingScope) (t : Tag) (name : Name) : Binding :=
  let target := throwsTarget scope.exceptions name
  let throws := b.owner.throws ++ [{ name, description := t.text, target }]
  let late :=
    if target = .unknown ∧ scope.warnOrphans then
      [Diagnostic.warning .orphanTag s!"`@throws {name.display}` names no known exception"
        (some t.span.start)]
    else []
  { b with owner := { b.owner with throws }, reports := b.reports ++ { late } }

/-- Adds what a tag says. -/
def addTag (scope : BindingScope) (targets : Option ParamTargets) (b : Binding) (t : Tag) :
    Binding :=
  match t.body with
  | .description => b.addDescription t
  | .param name type default isOptional =>
    match targets with
    | none => b.annotate t
    | some targets =>
      match name with
      | none => b.orphan scope t "`@param` without a name"
      | some name =>
        b.addParam scope targets t name
          { name, text := t.text, type := type.map (·.text), default, isOptional }
  | .returns type => b.addReturn scope t (type.map (·.text))
  | .throws none => b.orphan scope t "`@throws` without a name"
  | .throws (some name) => b.addThrows scope t name
  | .link .. | .visibility _ | .generic => b.annotate t

/-- The context with its descriptions, a blank line between each two. -/
def finish (b : Binding) : Binding :=
  if b.descriptions = [] then b
  else { b with owner := { b.owner with description := "\n\n".intercalate b.descriptions } }

end Binding

/-- What a `@param` tag may be about in front of a construct: the parameters of a method, the fields
of a record, the attributes of an object type. `inside` are the contexts inside it. -/
def Context.paramTargets? (c : Context) (inside : List Context) : Option ParamTargets :=
  match c.detail with
  | .method .. => some { noun := "parameter", names := inside.map (·.name) }
  | .record => some { noun := "field", names := inside.map (·.name) }
  | _ =>
    if c.kind = .objectType then
      some {
        noun := "attribute"
        names := (inside.filter (·.kind = .attributeDecl)).map (·.name) }
    else none

/-- Binds tags to a context that has the contexts `inside` in it. -/
def bindTags (scope : BindingScope) (c : Context) (inside : List Context) (tags : List Tag) :
    Binding :=
  (tags.foldl (Binding.addTag scope (c.paramTargets? inside)) { owner := c }).finish

end SqlDoc

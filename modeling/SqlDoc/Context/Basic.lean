/-
# Contexts

A context is what the documentation has to say about one construct: its declaration, as the syntax
tree gives it, and what the comments in front of it and of the construct around it add.

Key definitions: `Context`, `Detail`, `ThrowsTarget`, `Context.visibility?`.
-/
import SqlDoc.Context.Kind
import SqlDoc.Doc.Tag

namespace SqlDoc

/-- What the name in a `@throws` tag stands for. -/
inductive ThrowsTarget where
  /-- An exception that the unit declares, by the number of its context. -/
  | declared (id : Nat)
  /-- An exception that is raised without a declaration. -/
  | predefined
  /-- The number of an error. -/
  | errorCode
  | unknown
  deriving DecidableEq, Repr

/-- What a `@throws` tag says. -/
structure ThrowsDoc where
  name : Name
  description : String
  target : ThrowsTarget
  deriving DecidableEq, Repr

/-- The result of a function. -/
structure ReturnDoc where
  type : String
  description : String := ""
  /-- The datatype that the comment gives. -/
  docType : Option String := none
  deriving DecidableEq, Repr

/-- A parameter. -/
structure ParameterInfo where
  mode : ParamMode
  nocopy : Bool
  type : String
  default : Option String
  /-- The datatype that the comment gives. -/
  docType : Option String := none
  /-- The comment has the name in brackets. -/
  isOptional : Bool := false
  deriving DecidableEq, Repr

/-- What contexts of one kind have and others do not. -/
inductive Detail where
  | plain
  | unit (unit : UnitKind) (authid baseType : Option String) (modifiers : List String)
  | method (returns : Option ReturnDoc) (signature : String) (modifiers : List String)
  | record
  /-- The datatype and the default value of a variable, a field or an attribute. -/
  | value (type : String) (default : Option String)
  | subtypeDef (base : String) (constraints : List String)
  | typeDef (shape : TypeShape) (definition : String)
  | parameter (info : ParameterInfo)
  /-- The codes that pragmas bind to an exception. -/
  | exceptionDef (codes : List String)
  deriving DecidableEq, Repr

/-- The documentation of one construct. -/
structure Context where
  kind : ContextKind
  name : Name
  /-- A name that tells the construct from others of the same container. -/
  id : String
  /-- The declaration as it is written. -/
  header : String := ""
  span : Option Span := none
  /-- The number of the context around it. -/
  parent : Option Nat := none
  /-- The tags that bind to nothing in particular: links, visibility and the like. -/
  annotations : List Tag := []
  description : String := ""
  throws : List ThrowsDoc := []
  detail : Detail := .plain

namespace Context

/-- The visibility that the last tag about it gives. -/
def visibility? (c : Context) : Option Visibility :=
  c.annotations.reverse.findSome? fun t =>
    match t.body with
    | .visibility v => some v
    | _ => none

/-- Public documentation leaves it out. -/
def isHidden (c : Context) : Bool :=
  c.visibility?.any (·.isHidden)

/-- What is said about its deprecation, if it is deprecated. -/
def deprecated? (c : Context) : Option String :=
  (c.annotations.find? (·.marker = "deprecated")).map (·.text)

end Context
end SqlDoc

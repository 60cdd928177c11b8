/-
# Kinds of documented construct

Key definitions: `ContextKind`, `ContextKind.words`, `ContextKind.isMethod`.
-/
import SqlDoc.Syntax.Kind

namespace SqlDoc

/-- What a context documents. -/
inductive ContextKind where
  | package
  | packageBody
  | objectType
  | typeBody
  | procedure
  | function
  | constructor
  | cursor
  | variableDecl
  | constant
  | exceptionDecl
  | subtypeDecl
  | record
  /-- A declared type that is no record. -/
  | typeDecl
  | fieldDecl
  | attributeDecl
  | parameter
  deriving DecidableEq, Repr

namespace ContextKind

/-- Every kind. -/
def all : List ContextKind :=
  [package, packageBody, objectType, typeBody, procedure, function, constructor, cursor,
    variableDecl, constant, exceptionDecl, subtypeDecl, record, typeDecl, fieldDecl, attributeDecl,
    parameter]

/-- The kind in words. -/
def words : ContextKind → String
  | package => "package"
  | packageBody => "package body"
  | objectType => "object type"
  | typeBody => "type body"
  | procedure => "procedure"
  | function => "function"
  | constructor => "constructor"
  | cursor => "cursor"
  | variableDecl => "variable"
  | constant => "constant"
  | exceptionDecl => "exception"
  | subtypeDecl => "subtype"
  | record => "record"
  | typeDecl => "type"
  | fieldDecl => "field"
  | attributeDecl => "attribute"
  | parameter => "parameter"

/-- The kind with the given words. -/
def ofWords? (words : String) : Option ContextKind :=
  all.find? (·.words = words)

/-- It takes parameters, and several of one name may stand side by side. -/
def isMethod : ContextKind → Bool
  | procedure | function | constructor | cursor => true
  | _ => false

/-- It has members that are documented on their own. -/
def isContainer : ContextKind → Bool
  | package | objectType | record => true
  | _ => false

/-- The kind of a unit. -/
def ofUnit : UnitKind → ContextKind
  | .package => package
  | .packageBody => packageBody
  | .objectType => objectType
  | .typeBody => typeBody
  | .procedure => procedure
  | .function => function

/-- The kind of a method. -/
def ofMethod : MethodKind → ContextKind
  | .procedure => procedure
  | .function => function
  | .constructor => constructor
  | .cursor => cursor

end ContextKind
end SqlDoc

/-
# Kinds of syntax node

A node is a statement, a declaration inside one, or a piece of a declaration. Some kinds say more:
which unit a statement creates, what shape a type has, how a parameter is passed.

Key definitions: `NodeKind`, `NodeKind.text`, `NodeKind.label`, `NodeKind.isMember`.
-/

namespace SqlDoc

/-- What a `CREATE` statement creates. -/
inductive UnitKind where
  | package
  | packageBody
  | objectType
  | typeBody
  | procedure
  | function
  deriving DecidableEq, Repr

/-- The unit in words. -/
def UnitKind.words : UnitKind → String
  | package => "package"
  | packageBody => "package body"
  | objectType => "type"
  | typeBody => "type body"
  | procedure => "procedure"
  | function => "function"

/-- The unit as one word. -/
def UnitKind.text : UnitKind → String
  | package => "Package"
  | packageBody => "PackageBody"
  | objectType => "ObjectType"
  | typeBody => "TypeBody"
  | procedure => "Procedure"
  | function => "Function"

/-- The shape of a declared type. -/
inductive TypeShape where
  | record
  | nestedTable
  | associativeArray
  | varray
  | refCursor
  | other
  deriving DecidableEq, Repr

/-- The shape as one word. -/
def TypeShape.text : TypeShape → String
  | record => "Record"
  | nestedTable => "NestedTable"
  | associativeArray => "AssociativeArray"
  | varray => "Varray"
  | refCursor => "RefCursor"
  | other => "Other"

/-- What can be called or opened. -/
inductive MethodKind where
  | procedure
  | function
  | constructor
  | cursor
  deriving DecidableEq, Repr

/-- The kind of method as one word. -/
def MethodKind.text : MethodKind → String
  | procedure => "Procedure"
  | function => "Function"
  | constructor => "Constructor"
  | cursor => "Cursor"

/-- How a parameter is passed. -/
inductive ParamMode where
  | input
  | output
  | inOut
  deriving DecidableEq, Repr, Inhabited

/-- The mode as a declaration writes it. -/
def ParamMode.words : ParamMode → String
  | input => "IN"
  | output => "OUT"
  | inOut => "IN OUT"

/-- The mode as one word. -/
def ParamMode.text : ParamMode → String
  | input => "In"
  | output => "Out"
  | inOut => "InOut"

/-- What a node is. -/
inductive NodeKind where
  | createUnit (unit : UnitKind)
  | variableDecl (constant : Bool)
  | exceptionDecl
  | subtypeDecl
  | typeDecl (shape : TypeShape)
  | method (kind : MethodKind)
  /-- An attribute of an object type. -/
  | attributeDecl
  /-- A field of a record. -/
  | fieldDecl
  | pragma
  | parameter (mode : ParamMode)
  | parameterList
  | returnClause
  /-- `/`, or a `;` on its own. -/
  | terminator
  /-- A command of the script processor. -/
  | command
  /-- A statement or declaration that is not understood. -/
  | unhandled
  /-- Program text that is kept as it is. -/
  | body
  | identifier
  | typeExpr
  | expression
  | literal
  | keyword
  | modifier
  deriving DecidableEq, Repr

namespace NodeKind

/-- The kind as an outline writes it. -/
def text : NodeKind → String
  | createUnit unit => s!"CreateUnit({unit.text})"
  | variableDecl constant => "Variable \x7b constant: " ++ toString constant ++ " \x7d"
  | exceptionDecl => "Exception"
  | subtypeDecl => "Subtype"
  | typeDecl shape => s!"TypeDecl({shape.text})"
  | method kind => s!"Method({kind.text})"
  | attributeDecl => "Attribute"
  | fieldDecl => "Field"
  | pragma => "Pragma"
  | parameter mode => s!"Parameter({mode.text})"
  | parameterList => "ParameterList"
  | returnClause => "Return"
  | terminator => "Terminator"
  | command => "SqlPlus"
  | unhandled => "Unhandled"
  | body => "Body"
  | identifier => "Identifier"
  | typeExpr => "TypeExpr"
  | expression => "Expression"
  | literal => "Literal"
  | keyword => "Keyword"
  | modifier => "Modifier"

/-- The kind as a reader is told it. -/
def label : NodeKind → String
  | createUnit unit => s!"create {unit.words}"
  | variableDecl constant => if constant then "constant" else "variable"
  | parameter _ => "parameter"
  | typeDecl _ => "type"
  | method kind => kind.text
  | kind => kind.text

/-- A member of a unit, as opposed to a piece of its header. -/
def isMember : NodeKind → Bool
  | variableDecl _ | exceptionDecl | subtypeDecl | typeDecl _ | method _ | attributeDecl | pragma
  | unhandled | body => true
  | _ => false

/-- A declaration or a statement, as opposed to a piece of one. -/
def isNameable : NodeKind → Bool
  | parameterList | returnClause | identifier | typeExpr | expression | literal | keyword
  | modifier => false
  | _ => true

end NodeKind
end SqlDoc

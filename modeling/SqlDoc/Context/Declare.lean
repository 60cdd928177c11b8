/-
# Contexts of declarations

What the syntax tree of a declaration says about the construct: its name, its header, its datatype
and default value, its modifiers. Comments have not been read yet.

Key definitions: `Context.ofTree`, `unitContext`, `methodContext`, `memberContext?`,
`leafContext?`.
-/
import SqlDoc.Context.Basic
import SqlDoc.Syntax.Tree

namespace SqlDoc

namespace SyntaxTree

/-- The modifiers directly below. -/
def modifiers (t : SyntaxTree) : List SyntaxTree :=
  t.children.filter (·.kind = .modifier)

/-- The names of the modifiers. -/
def modifierNames (t : SyntaxTree) : List String :=
  t.modifiers.filterMap fun m => m.name.map (·.display)

/-- The datatype as it is written, or nothing. -/
def typeText (t : SyntaxTree) : String :=
  ((t.child? .typeExpr).map (·.flatText)).getD ""

/-- The default value as it is written. -/
def defaultText? (t : SyntaxTree) : Option String :=
  (t.child? .expression).map (·.flatText)

/-- What follows the first `IS`, or the first `AS`, without the `;` at the end. -/
def definitionText (t : SyntaxTree) : String :=
  let text := ((t.flatTextAfter? "IS").or (t.flatTextAfter? "AS")).getD ""
  Text.trimEnd (String.ofList (Text.dropTrailing (· = ';') text.toList))

end SyntaxTree

/-- The context of a declaration. -/
def Context.ofTree (kind : ContextKind) (id : String) (detail : Detail) (t : SyntaxTree) :
    Context where
  kind
  name := t.nameOrEmpty
  id
  header := t.header
  span := t.span?
  detail

/-- The context of a declaration whose id is its name. -/
def Context.ofNamed (kind : ContextKind) (detail : Detail) (t : SyntaxTree) : Context :=
  .ofTree kind t.nameOrEmpty.display detail t

/-- What a routine or a cursor declares. -/
def methodDetail (t : SyntaxTree) : Detail :=
  .method ((t.child? .returnClause).map fun clause => { type := clause.typeText }) t.header
    t.modifierNames

/-- What a unit other than a routine declares. Of several clauses of one kind the last counts. -/
def unitDetail (unit : UnitKind) (t : SyntaxTree) : Detail :=
  let named (word : String) : Option SyntaxTree :=
    (t.modifiers.filter fun m => m.name.any (·.display = word)).getLast?
  let authid := (named "AUTHID").bind fun m => m.words[1]?
  let baseType := (named "UNDER").bind fun m => (m.child? .typeExpr).bind fun base =>
    base.name.map (·.display)
  .unit unit authid baseType t.modifierNames

/-- The context of a unit. -/
def unitContext (unit : UnitKind) (t : SyntaxTree) : Context :=
  let detail :=
    match unit with
    | .procedure | .function => methodDetail t
    | _ => unitDetail unit t
  .ofNamed (.ofUnit unit) detail t

/-- The context of a method of a container. -/
def methodContext (kind : MethodKind) (id : String) (t : SyntaxTree) : Context :=
  .ofTree (.ofMethod kind) id (methodDetail t) t

/-- The context of a member of a container that is no method and no exception, if it has one. -/
def memberContext? (t : SyntaxTree) : Option Context :=
  match t.kind with
  | .attributeDecl => some (.ofNamed .attributeDecl (.value t.typeText t.defaultText?) t)
  | .variableDecl constant =>
    some (.ofNamed (if constant then .constant else .variableDecl)
      (.value t.typeText t.defaultText?) t)
  | .subtypeDecl => some (.ofNamed .subtypeDecl (.subtypeDef t.typeText t.modifierNames) t)
  | .typeDecl .record => some (.ofNamed .record .record t)
  | .typeDecl shape => some (.ofNamed .typeDecl (.typeDef shape t.definitionText) t)
  | _ => none

/-- The context of an exception with the codes that pragmas bind to it. -/
def exceptionContext (codes : List String) (t : SyntaxTree) : Context :=
  .ofNamed .exceptionDecl (.exceptionDef codes) t

/-- The context of a parameter or a field of what has the id `owner`. -/
def leafContext? (owner : String) (t : SyntaxTree) : Option Context :=
  let id := s!"{owner}.{t.nameOrEmpty.display}"
  match t.kind with
  | .parameter mode =>
    let info := {
      mode
      nocopy := t.modifierNames.contains "NOCOPY"
      type := t.typeText
      default := t.defaultText? }
    some (.ofTree .parameter id (.parameter info) t)
  | .fieldDecl => some (.ofTree .fieldDecl id (.value t.typeText t.defaultText?) t)
  | _ => none

end SqlDoc

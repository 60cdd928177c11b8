/-
# Visiting the members of a unit

The members of a package or an object type are visited with a scope of their own. It hands out the
ids of methods and keeps the exceptions, the pragmas that bind codes, and the tags that wait for the
end of the unit (`UnitScope.after`).

Key definitions: `UnitScope.after`.
Key theorems: `enter_member`, `visitMembers_members`.
-/
import SqlDoc.Proofs.Context.Visiting

namespace SqlDoc

/-! ### The scope of a unit -/

/-- The ids when a node has been visited: a method is given one. -/
def OverloadIds.after (ids : OverloadIds) (t : SyntaxTree) : OverloadIds :=
  match t.kind with
  | .method _ => (ids.next t.nameOrEmpty.last).2
  | _ => ids

/-- Keeps the first exception of each name. -/
def keepFirst (known : List (String × Nat)) (e : DeclaredException) : List (String × Nat) :=
  if known.any (·.1 = e.name) then known else known ++ [(e.name, e.id)]

/-- The scope when the nodes `trees` have been visited, which have come to the sites `f`. -/
def UnitScope.after (s : UnitScope) (next : Nat) (f : DocForest) (trees : List SyntaxTree) :
    UnitScope where
  ids := trees.foldl .after s.ids
  exceptions := (f.exceptions next).foldl keepFirst s.exceptions
  declared := s.declared ++ (f.exceptions next).map (·.id)
  pending := s.pending ++ f.pending next
  bindings := s.bindings ++ trees.filterMap codeBinding?

theorem UnitScope.after_nil (s : UnitScope) (next : Nat) : s.after next .nil [] = s := by
  simp [after, DocForest.exceptions, DocForest.pending]

/-- First one node and then the others. -/
theorem UnitScope.after_after (s : UnitScope) (next : Nat) (site : Site) (context : Option Context)
    (inside rest : DocForest) (t : SyntaxTree) (more : List SyntaxTree) :
    let first := DocForest.node site context inside .nil
    (s.after next first [t]).after (next + first.contextCount) rest more =
      s.after next (.node site context inside rest) (t :: more) := by
  intro first
  unfold after
  rw [DocForest.exceptions_node site context inside rest, DocForest.pending_node _ _ _ rest,
    List.foldl_append, List.map_append, List.foldl_cons, List.foldl_nil, List.foldl_cons,
    List.append_assoc, List.append_assoc, List.append_assoc, ← List.filterMap_append]
  rfl

theorem codeBinding?_eq_none {t : SyntaxTree} (h : t.kind ≠ .pragma) : codeBinding? t = none := by
  unfold codeBinding?
  rw [if_pos (.inl h)]
  rfl

/-- A member that is no pragma changes the scope by what it declares. -/
theorem UnitScope.after_declared (s : UnitScope) (next : Nat) (site : Site) (c : Context)
    (inside : DocForest) {t : SyntaxTree} (ht : t.kind ≠ .pragma)
    (hc : c.codes? = none) :
    let first := DocForest.node site (some c) inside .nil
    s.after next first [t] = { s with ids := s.ids.after t }.await (first.pending next) := by
  intro first
  have hexceptions : first.exceptions next = [] := by
    rw [DocForest.exceptions_some, hc]
    rfl
  simp [after, await, hexceptions, codeBinding?_eq_none ht]

namespace DocForest

/-- A piece of a declaration is no member. -/
theorem ofMembers_piece {t : SyntaxTree} (hpiece : t.kind.isPiece) (id : Nat)
    (bindings : List (Name × String)) (ids : OverloadIds)
    (exceptions : List String) (members : List (Nat × SyntaxTree)) :
    ofMembers bindings ids exceptions ((id, t) :: members) =
      ofMembers bindings ids exceptions members := by
  obtain ⟨kind, name, below⟩ := t
  cases kind with
  | returnClause | identifier | typeExpr | expression | literal | keyword | modifier => rfl
  | _ => exact absurd hpiece Bool.false_ne_true

end DocForest

namespace Resolver

variable {scope : BindingScope} {t : SyntaxTree} {id : Nat} {r : Resolver} {s : UnitScope}
  {around : List UnitScope} {owner : Nat} {o : Context}

/-! ### Members -/

theorem declare_method {kind : MethodKind} (hkind : t.kind = .method kind)
    (hscopes : r.scopes = s :: around) (ho : r.context? owner = some o)
    (hcontainer : o.kind.isContainer) :
    r.declare t (some owner) =
      (some r.table.rows.length,
        r.declared (some owner) (methodContext kind (s.ids.next t.nameOrEmpty.last).1 t)
          ({ s with ids := s.ids.after t } :: around)) := by
  have hany : (((some owner).bind r.context?).any (·.kind.isContainer)) = true := by
    rw [Option.bind_some, ho]
    exact hcontainer
  rw [declare, hkind]
  dsimp only
  rw [declareMethod, if_pos hany, OverloadIds.after, hkind]
  dsimp only
  rw [allocIn_some, modifyScope, hscopes]
  rfl

theorem enter_method {kind : MethodKind} (hkind : t.kind = .method kind)
    (ht : t.below.Fits t.kind) (hscopes : r.scopes = s :: around)
    (ho : r.context? owner = some o) (hcontainer : o.kind.isContainer)
    (hwarn : r.warnOrphans = scope.warnOrphans) (members : Nat → Resolver → Resolver) :
    let n := r.table.rows.length
    let name := (s.ids.next t.nameOrEmpty.last).1
    let first := DocForest.node (.ofTree id t) (some (methodContext kind name t))
      (.ofParameters name id t) .nil
    r.enter (some owner) id t members (fun c => visitParameters t.below c (id + 1)) =
      (some n, r.visited scope first (some owner) (ContextRow.withChildren [n])
        (s.after n first [t] :: around)) := by
  intro n name first
  have hnameable : t.kind.isNameable := by rw [hkind]; rfl
  have hpragma : t.kind ≠ .pragma := by rw [hkind]; exact nofun
  have hform : (methodContext kind name t).WellFormed := by
    intro _
    cases kind <;> exact nofun
  rw [s.after_declared n _ _ _ hpragma rfl]
  refine enter_some scope hnameable hform rfl hwarn (declare_method hkind hscopes ho hcontainer) ?_
  have hparameters := visitParameters_leaves scope ht id
    (context?_opened r id t (some owner) (methodContext kind name t)
      ({ s with ids := s.ids.after t } :: around)) hwarn
  rw [length_opened] at hparameters
  rw [hkind, visitInside]
  exact congrArg (bind · _ _) hparameters

theorem declare_exception (hkind : t.kind = .exceptionDecl) (hscopes : r.scopes = s :: around) :
    r.declare t (some owner) =
      (some r.table.rows.length,
        r.declared (some owner) (exceptionContext [] t)
          ({ s with
            exceptions := keepFirst s.exceptions
              { id := r.table.rows.length, name := t.nameOrEmpty.last, codes := [] }
            declared := s.declared ++ [r.table.rows.length] } :: around)) := by
  rw [declare, hkind]
  dsimp only
  rw [declareException, exceptionContext, allocIn_some]
  dsimp only
  rw [modifyScope, declared, hscopes]
  rfl

theorem enter_exception (hkind : t.kind = .exceptionDecl) (hscopes : r.scopes = s :: around)
    (hwarn : r.warnOrphans = scope.warnOrphans) (members parameters : Nat → Resolver → Resolver) :
    let n := r.table.rows.length
    let first := DocForest.node (.ofTree id t) (some (exceptionContext [] t)) .nil .nil
    r.enter (some owner) id t members parameters =
      (some n, r.visited scope first (some owner) (ContextRow.withChildren [n])
        (s.after n first [t] :: around)) := by
  intro n first
  have hnameable : t.kind.isNameable := by rw [hkind]; rfl
  have hpragma : t.kind ≠ .pragma := by rw [hkind]; exact nofun
  have hafter : s.after n first [t] :: around =
      (({ s with
        exceptions := keepFirst s.exceptions { id := n, name := t.nameOrEmpty.last, codes := [] }
        declared := s.declared ++ [n] } : UnitScope) :: around).modifyHead
          (.await (first.pending n)) := by
    have hexceptions : first.exceptions n =
        [{ id := n, name := t.nameOrEmpty.last, codes := [] }] :=
      DocForest.exceptions_some ..
    have hids : s.ids.after t = s.ids := by rw [OverloadIds.after, hkind]
    simp [UnitScope.after, UnitScope.await, hexceptions, hids, codeBinding?_eq_none hpragma]
  have hbare (s : Resolver) (n : Nat) (tags : List Tag) (f g : Resolver → Resolver) :
      s.visitInside t.kind n tags f g = s.bind n tags := by
    rw [hkind]
    rfl
  rw [hafter]
  exact enter_bare scope hnameable (fun h => absurd h Bool.false_ne_true) rfl hwarn
    (declare_exception hkind hscopes) hbare

/-- A member other than a method or an exception that has a context. -/
theorem declare_member {c : Context} (hc : memberContext? t = some c) :
    r.declare t (some owner) = (some r.table.rows.length, r.declared (some owner) c r.scopes) := by
  have hdeclare : r.declare t (some owner) = r.allocIn (some owner) (memberContext? t) := by
    obtain ⟨kind, name, below⟩ := t
    cases kind with
    | attributeDecl | variableDecl | subtypeDecl | typeDecl => rfl
    | _ => exact absurd hc nofun
  rw [hdeclare, hc, allocIn_some]

/-- What is known of the context of such a member. -/
theorem memberContext?_eq_some {c : Context} (hc : memberContext? t = some c) :
    t.kind.isNameable ∧ t.kind ≠ .pragma ∧ c.WellFormed ∧ c.throws = [] ∧ c.codes? = none ∧
      s.ids.after t = s.ids := by
  obtain ⟨kind, name, below⟩ := t
  cases kind with
  | attributeDecl | subtypeDecl =>
    cases hc
    exact ⟨rfl, nofun, fun h => absurd h Bool.false_ne_true, rfl, rfl, rfl⟩
  | variableDecl constant =>
    cases hc
    exact ⟨rfl, nofun, fun h => absurd h Bool.false_ne_true, rfl, rfl, rfl⟩
  | typeDecl shape =>
    cases shape with
    | record => cases hc; exact ⟨rfl, nofun, fun _ => nofun, rfl, rfl, rfl⟩
    | _ =>
      cases hc
      exact ⟨rfl, nofun, fun h => absurd h Bool.false_ne_true, rfl, rfl, rfl⟩
  | _ => exact absurd hc nofun

theorem enter_record (hkind : t.kind = .typeDecl .record) (ht : t.below.Fits t.kind)
    (hscopes : r.scopes = s :: around) (hwarn : r.warnOrphans = scope.warnOrphans)
    (parameters : Nat → Resolver → Resolver) :
    ∃ c, memberContext? t = some c ∧
      let n := r.table.rows.length
      let first := DocForest.node (.ofTree id t) (some c)
        (.ofLeaves t.nameOrEmpty.display (t.numberedChildren id)) .nil
      r.enter (some owner) id t (fun c => visitMembers t.below c (id + 1)) parameters =
        (some n, r.visited scope first (some owner) (ContextRow.withChildren [n])
          (s.after n first [t] :: around)) := by
  obtain ⟨c, hc, hid⟩ : ∃ c, memberContext? t = some c ∧ c.id = t.nameOrEmpty.display := by
    rw [memberContext?, hkind]
    exact ⟨_, rfl, rfl⟩
  refine ⟨c, hc, ?_⟩
  intro n first
  obtain ⟨hnameable, hpragma, hform, hthrows, hcodes, hids⟩ := memberContext?_eq_some (s := s) hc
  rw [s.after_declared n _ _ _ hpragma hcodes, hids]
  have hleaves (child : NodeKind) (h : t.kind.mayHold child) : child.isLeaf := by
    rw [hkind] at h
    cases child <;> first | rfl | exact absurd h Bool.false_ne_true
  have hdeclare : (r.report (Site.ofTree id t).reports).declare t (some owner) =
      (some n, (r.report (Site.ofTree id t).reports).declared (some owner) c (s :: around)) := by
    rw [declare_member hc]
    exact congrArg (fun scopes => (some n, declared _ _ _ scopes)) hscopes
  refine enter_some scope hnameable hform hthrows hwarn hdeclare ?_
  have hfields := visitMembers_leaves scope hleaves ht (id + 1)
    (context?_opened r id t (some owner) c (s :: around)) hwarn
  rw [length_opened] at hfields
  rw [hkind, visitInside, ← hid]
  exact congrArg (bind · _ _) hfields

/-- A member that has a context, but is no method, no exception and no record. -/
theorem enter_bareMember {c : Context} (hc : memberContext? t = some c)
    (hrecord : t.kind ≠ .typeDecl .record) (hscopes : r.scopes = s :: around)
    (hwarn : r.warnOrphans = scope.warnOrphans) (members parameters : Nat → Resolver → Resolver) :
    let n := r.table.rows.length
    let first := DocForest.node (.ofTree id t) (some c) .nil .nil
    r.enter (some owner) id t members parameters =
      (some n, r.visited scope first (some owner) (ContextRow.withChildren [n])
        (s.after n first [t] :: around)) := by
  intro n first
  obtain ⟨hnameable, hpragma, hform, hthrows, hcodes, hids⟩ := memberContext?_eq_some (s := s) hc
  rw [s.after_declared n _ _ _ hpragma hcodes, hids]
  have hdeclare : (r.report (Site.ofTree id t).reports).declare t (some owner) =
      (some n, (r.report (Site.ofTree id t).reports).declared (some owner) c (s :: around)) := by
    rw [declare_member hc]
    exact congrArg (fun scopes => (some n, declared _ _ _ scopes)) hscopes
  refine enter_bare scope hnameable hform hthrows hwarn hdeclare fun r n tags f g => ?_
  obtain ⟨kind, name, below⟩ := t
  cases kind with
  | attributeDecl | variableDecl | subtypeDecl => rfl
  | typeDecl shape =>
    cases shape with
    | record => exact absurd rfl hrecord
    | _ => rfl
  | _ => exact absurd hc nofun

/-- A pragma or a member that is not understood. -/
theorem enter_noContext (hkind : t.kind = .pragma ∨ t.kind = .unhandled)
    (hscopes : r.scopes = s :: around) (members parameters : Nat → Resolver → Resolver) :
    let n := r.table.rows.length
    let first := DocForest.node (.ofTree id t) none .nil .nil
    r.enter (some owner) id t members parameters =
      (none, r.visited scope first (some owner) (ContextRow.withChildren [])
        (s.after n first [t] :: around)) := by
  intro n first
  have hids : s.ids.after t = s.ids := by
    rcases hkind with h | h <;> rw [OverloadIds.after, h]
  have hnameable : t.kind.isNameable := by
    rcases hkind with h | h <;> rw [h] <;> rfl
  have hafter : s.after n first [t] =
      { s with bindings := s.bindings ++ (codeBinding? t).toList } := by
    have hbindings : [t].filterMap codeBinding? = (codeBinding? t).toList := by
      rw [List.filterMap_cons]
      cases codeBinding? t <;> rfl
    simp [UnitScope.after, hids, hbindings, first, DocForest.exceptions, DocForest.pending]
  refine enter_none scope hnameable ?_
  rw [hafter]
  rcases hkind with h | h
  · rw [declare, h]
    dsimp only
    rw [modifyScope, report]
    dsimp only
    rw [hscopes]
    rfl
  · have hpragma : t.kind ≠ .pragma := by
      rw [h]
      exact NodeKind.noConfusion
    have hnone : codeBinding? t = none := codeBinding?_eq_none hpragma
    rw [declare, h, hnone]
    dsimp only
    rw [Option.toList_none, List.append_nil, ← hscopes]
    rfl

/-- A member of a unit is visited. -/
theorem enter_member (hmember : t.kind.isMember) (hbody : t.kind ≠ .body)
    (ht : t.below.Fits t.kind) (id : Nat) (exceptions : List String)
    (hscopes : r.scopes = s :: around) (ho : r.context? owner = some o)
    (hcontainer : o.kind.isContainer) (hwarn : r.warnOrphans = scope.warnOrphans) :
    ∃ context inside known,
      let n := r.table.rows.length
      let first := DocForest.node (.ofTree id t) context inside .nil
      (∀ more, DocForest.ofMembers [] s.ids exceptions ((id, t) :: more) =
        .node (.ofTree id t) context inside
          (.ofMembers [] (s.after n first [t]).ids known more)) ∧
      r.enter (some owner) id t (fun c => visitMembers t.below c (id + 1))
          (fun c => visitParameters t.below c (id + 1)) =
        (context.map fun _ => n, r.visited scope first (some owner)
          (ContextRow.withChildren (first.topIds n)) (s.after n first [t] :: around)) := by
  have hids (first : DocForest) (n : Nat) : (s.after n first [t]).ids = s.ids.after t := rfl
  cases hkind : t.kind with
  | method kind =>
    refine ⟨some (methodContext kind (s.ids.next t.nameOrEmpty.last).1 t), _, exceptions,
      fun more => ?_, enter_method hkind ht hscopes ho hcontainer hwarn _⟩
    rw [hids, OverloadIds.after, hkind, DocForest.ofMembers, hkind]
  | exceptionDecl =>
    refine ⟨some (exceptionContext [] t), .nil, t.nameOrEmpty.last :: exceptions, fun more => ?_,
      enter_exception hkind hscopes hwarn _ _⟩
    have hcodes : (if exceptions.contains t.nameOrEmpty.last then [] else
        boundCodes [] t.nameOrEmpty.last) = [] := by
      split <;> rfl
    rw [hids, OverloadIds.after, hkind, DocForest.ofMembers, hkind]
    dsimp only
    rw [hcodes]
  | pragma =>
    refine ⟨none, .nil, exceptions, fun more => ?_, enter_noContext (.inl hkind) hscopes _ _⟩
    rw [hids, OverloadIds.after, hkind, DocForest.ofMembers, hkind, memberContext?, hkind]
    rfl
  | unhandled =>
    refine ⟨none, .nil, exceptions, fun more => ?_, enter_noContext (.inr hkind) hscopes _ _⟩
    rw [hids, OverloadIds.after, hkind, DocForest.ofMembers, hkind, memberContext?, hkind]
    rfl
  | typeDecl shape =>
    by_cases hrecord : t.kind = .typeDecl .record
    · obtain ⟨c, hc, henter⟩ := enter_record hrecord ht hscopes hwarn _
      refine ⟨some c, _, exceptions, fun more => ?_, henter⟩
      rw [hids, OverloadIds.after, hrecord, DocForest.ofMembers, hrecord, hc]
    · obtain ⟨c, hc⟩ : ∃ c, memberContext? t = some c := by
        rw [memberContext?, hkind]
        cases shape <;> exact ⟨_, rfl⟩
      refine ⟨some c, .nil, exceptions, fun more => ?_,
        enter_bareMember hc hrecord hscopes hwarn _ _⟩
      rw [hids, OverloadIds.after, hkind, DocForest.ofMembers, hkind, hc]
      cases shape with
      | record => exact absurd hkind hrecord
      | _ => rfl
  | attributeDecl | variableDecl | subtypeDecl =>
    obtain ⟨c, hc⟩ : ∃ c, memberContext? t = some c := by
      rw [memberContext?, hkind]
      exact ⟨_, rfl⟩
    refine ⟨some c, .nil, exceptions, fun more => ?_,
      enter_bareMember hc (by rw [hkind]; exact nofun) hscopes hwarn _ _⟩
    rw [hids, OverloadIds.after, hkind, DocForest.ofMembers, hkind, hc]
    rfl
  | body => exact absurd hkind hbody
  | _ => rw [hkind] at hmember; exact absurd hmember Bool.false_ne_true

/-- A piece of a declaration leaves the scope as it is. -/
theorem after_piece (hpiece : t.kind.isPiece) (next : Nat) (f : DocForest)
    (trees : List SyntaxTree) : s.after next f (t :: trees) = s.after next f trees := by
  have hafter (hids : s.ids.after t = s.ids) (hpragma : t.kind ≠ .pragma) :
      s.after next f (t :: trees) = s.after next f trees := by
    simp [UnitScope.after, hids, codeBinding?_eq_none hpragma]
  obtain ⟨kind, name, below⟩ := t
  cases kind with
  | returnClause | identifier | typeExpr | expression | literal | keyword | modifier =>
    exact hafter rfl nofun
  | _ => exact absurd hpiece Bool.false_ne_true

/-- The members of a unit are visited. -/
theorem visitMembers_members {kind : NodeKind}
    (hkind : ∀ child, kind.mayHold child → child.isMember ∧ child ≠ .body) {below : Forest}
    (hbelow : below.Fits kind) (id : Nat) (exceptions : List String)
    (hscopes : r.scopes = s :: around) (ho : r.context? owner = some o)
    (hcontainer : o.kind.isContainer) (hwarn : r.warnOrphans = scope.warnOrphans) :
    visitMembers below owner id r =
      let n := r.table.rows.length
      let f := DocForest.ofMembers [] s.ids exceptions (below.numbered id)
      r.visited scope f (some owner) (ContextRow.withInside (f.topIds n))
        (s.after n f below.trees :: around) := by
  induction below generalizing id r s exceptions with
  | nil =>
    show r = r.visited _ .nil _ (ContextRow.withInside []) (s.after _ .nil [] :: around)
    rw [s.after_nil, ← hscopes, visited_nil]
  | group _ rest ih => exact ih hbelow id exceptions hscopes ho hwarn
  | node childKind name inside rest _ ih =>
    let t : SyntaxTree := ⟨childKind, name, inside⟩
    rw [visitMembers, Forest.trees, Forest.numbered]
    rcases hbelow.1.1 with hpiece | hchild
    · rw [enter_piece (NodeKind.isNameable_of_isPiece hpiece)]
      dsimp only
      rw [DocForest.ofMembers_piece (t := t) hpiece, after_piece (t := t) hpiece]
      exact ih hbelow.2 _ exceptions hscopes ho hwarn
    · obtain ⟨hmember, hbody⟩ := hkind _ hchild
      obtain ⟨context, below, known, hmembers, henter⟩ :=
        enter_member (t := t) hmember hbody hbelow.1.2.1 id exceptions hscopes ho hcontainer hwarn
      have howner := lt_of_context? ho
      rw [henter, hmembers]
      refine (congrArg (visitMembers rest owner _) (list_visited howner _ context _)).trans ?_
      rw [ih hbelow.2 _ known rfl (context?_visited ho _) hwarn]
      dsimp only
      rw [length_visited, UnitScope.after_after]
      exact visited_visited howner ..

end Resolver
end SqlDoc

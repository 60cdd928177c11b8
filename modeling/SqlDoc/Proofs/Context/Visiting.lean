/-
# Visiting the nodes of a statement

A resolver that visits the nodes of a statement puts the rows of their contexts at the end of the
table, but for the exceptions that they raise and the codes that pragmas bind, and what is left to
be done is in the innermost scope. This holds of parameters and fields (`visitMembers_leaves`), of
the members of packages and object types (`visitMembers_members`) and of statements.

Key definitions: `Resolver.visited`, `UnitScope.after`.
Key theorems: `enter_some`, `visited_visited`, `visitMembers_leaves`, `visitMembers_members`.
-/
import SqlDoc.Proofs.Context.Binding
import SqlDoc.Proofs.Syntax.Shape

namespace SqlDoc

/-! ### What is left to be done -/

/-- What the tags of the contexts leave to be done, if the first context has number `next`. -/
def DocForest.pending (next : Nat) : DocForest → List PendingThrows
  | nil => []
  | node _ none inside rest =>
    inside.pending next ++ rest.pending (next + inside.contextCount)
  | node site (some _) inside rest =>
    inside.pending (next + 1) ++ site.tags.flatMap (Tag.pendingThrows next)
      ++ rest.pending (next + 1 + inside.contextCount)

/-- The scope with more to be done at its end. -/
def UnitScope.await (pending : List PendingThrows) (s : UnitScope) : UnitScope :=
  { s with pending := s.pending ++ pending }

/-- If there is nothing more to be done, nothing changes. -/
@[simp] theorem modifyHead_await_nil (scopes : List UnitScope) :
    scopes.modifyHead (.await []) = scopes := by
  cases scopes with
  | nil => rfl
  | cons s around => rw [List.modifyHead_cons, UnitScope.await, List.append_nil]

@[simp] theorem modifyHead_await_await (scopes : List UnitScope) (p q : List PendingThrows) :
    (scopes.modifyHead (.await p)).modifyHead (.await q) = scopes.modifyHead (.await (p ++ q)) := by
  cases scopes with
  | nil => rfl
  | cons s around => simp [UnitScope.await]

@[simp] theorem Reports.now_append (r s : Reports) : (r ++ s).now = r.now ++ s.now :=
  rfl

@[simp] theorem Reports.late_append (r s : Reports) : (r ++ s).late = r.late ++ s.late :=
  rfl

namespace ContextRow

variable (ids more : List Nat) (row : ContextRow)

/-- The row with contexts put directly inside it. -/
def withChildren : ContextRow :=
  { row with children := row.children ++ ids }

/-- The row with contexts put directly inside it, which are members if it has members. -/
def withInside : ContextRow :=
  { row with
    children := row.children ++ ids
    members := if row.context.detail.hasMembers then row.members ++ ids else row.members }

@[simp] theorem withChildren_nil : row.withChildren [] = row := by
  rw [withChildren, List.append_nil]

@[simp] theorem withInside_nil : row.withInside [] = row := by
  rw [withInside, List.append_nil, List.append_nil, ite_self]

theorem withInside_withInside :
    (row.withInside ids).withInside more = row.withInside (ids ++ more) := by
  unfold withInside
  dsimp only
  split <;> simp only [List.append_assoc]

end ContextRow

namespace DocForest

variable (scope : BindingScope) (site : Site) (context : Option Context) (inside rest : DocForest)
  (parent : Option Nat) (next : Nat)

/-! ### The first site and the others -/

/-- How many contexts the first site has and those inside it. -/
theorem contextCount_single :
    (node site context inside nil).contextCount = context.toList.length + inside.contextCount :=
  rfl

theorem topIds_node : (node site context inside rest).topIds next =
    (node site context inside nil).topIds next ++
      rest.topIds (next + (node site context inside nil).contextCount) := by
  rw [contextCount_single, ← Nat.add_assoc]
  simp [topIds, tops]

/-- Binding leaves every context at its number. -/
@[simp] theorem topIds_bind (f : DocForest) : (f.bind scope).1.topIds next = f.topIds next := by
  induction f generalizing next with
  | nil => rfl
  | node site context inside rest _ ih =>
    unfold topIds at ih ⊢
    cases context with
    | none => simp [bind, tops, ih]
    | some c => simp [bind_some, tops, ih]

theorem records_node (statement : Nat) : (node site context inside rest).records statement next =
    (node site context inside nil).records statement next ++
      rest.records statement (next + (node site context inside nil).contextCount) := by
  rw [contextCount_single, ← Nat.add_assoc]
  simp [records]

theorem pending_node : (node site context inside rest).pending next =
    (node site context inside nil).pending next ++
      rest.pending (next + (node site context inside nil).contextCount) := by
  cases context <;> simp [pending, contextCount, Nat.add_assoc]

theorem exceptions_node : (node site context inside rest).exceptions next =
    (node site context inside nil).exceptions next ++
      rest.exceptions (next + (node site context inside nil).contextCount) := by
  rw [contextCount_single, ← Nat.add_assoc]
  simp [exceptions]

theorem rows_bind_node : ((node site context inside rest).bind scope).1.rows parent next =
    ((node site context inside nil).bind scope).1.rows parent next ++
      (rest.bind scope).1.rows parent
        (next + (node site context inside nil).contextCount) := by
  cases context with
  | none => simp [bind, rows, contextCount]
  | some c =>
    have hnil : DocForest.nil.bind scope = (nil, {}) := rfl
    simp [bind_some, hnil, rows, contextCount, Nat.add_assoc]

theorem now_bind_node : ((node site context inside rest).bind scope).2.now =
    ((node site context inside nil).bind scope).2.now ++ (rest.bind scope).2.now := by
  cases context <;> simp [bind]

end DocForest

namespace Resolver

/-! ### Where visiting leads -/

/-- Where resolving has come to when the sites `f` inside `parent` have been visited. The row of
`parent` has changed by `hold`, and the scopes have changed to `scopes`. -/
def visited (r : Resolver) (scope : BindingScope) (f : DocForest) (parent : Option Nat)
    (hold : ContextRow → ContextRow) (scopes : List UnitScope) : Resolver :=
  { r with
    table := { r.table with
      rows := parent.elim r.table.rows (r.table.rows.modify · hold) ++
        ((f.bind scope).1.rows parent r.table.rows.length).map ContextRow.withoutThrows
      comments := r.table.comments ++ f.records r.statement r.table.rows.length }
    scopes
    reports := r.reports ++ (f.bind scope).2.now }

variable {r : Resolver} {scope : BindingScope}
  {f inside : DocForest} {owner : Nat} {hold : ContextRow → ContextRow}
  {scopes others : List UnitScope}

@[simp] theorem length_visited (parent : Option Nat) :
    (r.visited scope f parent hold scopes).table.rows.length =
      r.table.rows.length + f.contextCount := by
  cases parent <;> simp [visited]

theorem visited_nil :
    r.visited scope .nil (some owner) (ContextRow.withInside []) r.scopes = r := by
  have hhold : ContextRow.withInside [] = id :=
    funext ContextRow.withInside_nil
  unfold visited
  rw [hhold, Option.elim, List.modify_id]
  simp [DocForest.bind, DocForest.rows, DocForest.records]

/-- The context around what is visited stays as it is. -/
theorem context?_visited {o : Context} (ho : r.context? owner = some o) (ids : List Nat) :
    (r.visited scope f (some owner) (ContextRow.withInside ids) scopes).context? owner =
      some o := by
  obtain ⟨row, hrow, hcontext⟩ := Option.map_eq_some_iff.1 ho
  have hinside : (r.table.rows.modify owner (ContextRow.withInside ids))[owner]? =
      some (row.withInside ids) := by
    rw [List.getElem?_modify_eq, hrow]
    rfl
  rw [context?, visited]
  dsimp only [Option.elim]
  rw [List.getElem?_append_left (List.getElem?_eq_some_iff.1 hinside).1, hinside]
  exact congrArg some hcontext

/-- The first site is visited and then the others. -/
theorem visited_visited (howner : owner < r.table.rows.length) (site : Site)
    (context : Option Context) (inside rest : DocForest) (scopes others : List UnitScope) :
    let n := r.table.rows.length
    let first := DocForest.node site context inside .nil
    (r.visited scope first (some owner) (ContextRow.withInside (first.topIds n)) scopes).visited
        scope rest (some owner) (ContextRow.withInside (rest.topIds (n + first.contextCount)))
        others =
      r.visited scope (.node site context inside rest) (some owner)
        (ContextRow.withInside ((DocForest.node site context inside rest).topIds n)) others := by
  intro n first
  have hlength : (r.visited scope first (some owner) (ContextRow.withInside (first.topIds n))
      scopes).table.rows.length = n + first.contextCount := length_visited _
  have hhold (ids more : List Nat) : ContextRow.withInside more ∘ ContextRow.withInside ids =
      ContextRow.withInside (ids ++ more) :=
    funext (ContextRow.withInside_withInside _ _)
  have hmodify (rows : List ContextRow) (hold more : ContextRow → ContextRow) :
      (r.table.rows.modify owner hold ++ rows).modify owner more =
        r.table.rows.modify owner (more ∘ hold) ++ rows := by
    rw [modify_append_of_lt (by rwa [List.length_modify]), List.modify_modify_eq]
  rw [visited, hlength, visited, visited, DocForest.rows_bind_node scope site context inside rest,
    DocForest.records_node site context inside rest, DocForest.now_bind_node scope _ _ _ rest,
    DocForest.topIds_node site context inside rest]
  dsimp only [Option.elim]
  rw [hmodify, hhold, List.map_append]
  simp only [List.append_assoc]
  rfl

/-- The context of a site that has been visited is put into the row of the one around it. -/
theorem list_visited (howner : owner < r.table.rows.length) (site : Site)
    (context : Option Context) (inside : DocForest) :
    let n := r.table.rows.length
    let first := DocForest.node site context inside .nil
    let s := r.visited scope first (some owner) (ContextRow.withChildren (first.topIds n)) scopes
    (context.map fun _ => n).elim s (s.list owner) =
      r.visited scope first (some owner) (ContextRow.withInside (first.topIds n)) scopes := by
  intro n first s
  cases context with
  | none =>
    have hhold : ContextRow.withChildren [] = ContextRow.withInside [] :=
      funext fun row => row.withChildren_nil.trans row.withInside_nil.symm
    exact congrArg (r.visited scope first (some owner) · scopes) hhold
  | some c =>
    have hhold : (fun row : ContextRow => if row.context.detail.hasMembers then
        { row with members := row.members ++ [n] } else row) ∘ ContextRow.withChildren [n] =
        ContextRow.withInside [n] := by
      funext row
      unfold ContextRow.withChildren ContextRow.withInside
      dsimp only [Function.comp]
      split <;> rfl
    show (r.visited scope first (some owner) (ContextRow.withChildren [n]) scopes).list owner n =
      r.visited scope first (some owner) (ContextRow.withInside [n]) scopes
    unfold list modifyRow visited
    dsimp only [Option.elim]
    rw [modify_append_of_lt (by rwa [List.length_modify]), List.modify_modify_eq, hhold]

/-! ### One node -/

theorem length_elim_modify {α : Type} (i : Option Nat) (l : List α) (f : α → α) :
    (i.elim l (l.modify · f)).length = l.length := by
  cases i with
  | none => rfl
  | some i => exact List.length_modify ..

/-- Where resolving has come to when the context `c` inside `parent` has been declared, which has
changed the scopes to `scopes`. -/
def declared (r : Resolver) (parent : Option Nat) (c : Context) (scopes : List UnitScope) :
    Resolver :=
  { r with
    table := { r.table with
      rows := parent.elim r.table.rows (r.table.rows.modify · (ContextRow.withChildren
        [r.table.rows.length])) ++ [{ context := { c with parent } }] }
    scopes }

theorem allocIn_some (parent : Option Nat) (c : Context) :
    r.allocIn parent (some c) = (some r.table.rows.length, r.declared parent c r.scopes) := by
  cases parent <;> rfl

variable {id : Nat} {t : SyntaxTree} {parent : Option Nat} {c : Context}
  {members parameters : Nat → Resolver → Resolver}

/-- A piece of a declaration is passed over. -/
theorem enter_piece (ht : t.kind.isNameable = false) :
    r.enter parent id t members parameters = (none, r) := by
  rw [enter, ht]
  rfl

/-- A node that has no context is put on record. -/
theorem enter_none (scope : BindingScope) (ht : t.kind.isNameable)
    (hdeclare : (r.report (Site.ofTree id t).reports).declare t parent =
      (none, { r.report (Site.ofTree id t).reports with scopes })) :
    r.enter parent id t members parameters =
      (none, r.visited scope (.node (.ofTree id t) none .nil .nil) parent
        (ContextRow.withChildren []) scopes) := by
  have hrows : parent.elim r.table.rows (r.table.rows.modify · (ContextRow.withChildren [])) =
      r.table.rows := by
    rw [funext ContextRow.withChildren_nil]
    cases parent with
    | none => rfl
    | some parent => exact List.modify_id parent r.table.rows
  rw [enter, if_pos ht]
  dsimp only
  rw [hdeclare]
  unfold giveTags putRecord
  dsimp only [Option.elim]
  rw [modify_at_length]
  unfold visited
  rw [hrows]
  simp [DocForest.bind, DocForest.rows, DocForest.records, report]

/-- The records of a node that has a context and of what is inside it. That of the node has no tags
yet. -/
def openRecords (r : Resolver) (id : Nat) (t : SyntaxTree) (inside : DocForest) :
    List CommentRecord :=
  { statement := r.statement, site := { Site.ofTree id t with tags := [] },
    context := some r.table.rows.length } :: inside.records r.statement (r.table.rows.length + 1)

/-- Where resolving has come to when a node has its record and its context, before what is inside
it is visited. -/
def opened (r : Resolver) (id : Nat) (t : SyntaxTree) (parent : Option Nat) (c : Context)
    (scopes : List UnitScope) : Resolver :=
  ((r.report (Site.ofTree id t).reports).declared parent c scopes).putRecord (.ofTree id t)
    (some r.table.rows.length)

@[simp] theorem length_opened :
    (r.opened id t parent c scopes).table.rows.length = r.table.rows.length + 1 := by
  cases parent <;> simp [opened, putRecord, declared, report]

theorem context?_opened (r : Resolver) (id : Nat) (t : SyntaxTree) (parent : Option Nat)
    (c : Context) (scopes : List UnitScope) :
    (r.opened id t parent c scopes).context? r.table.rows.length = some { c with parent } := by
  have hlength := length_elim_modify parent r.table.rows
    (ContextRow.withChildren [r.table.rows.length])
  have hrows : (r.opened id t parent c scopes).table.rows =
      parent.elim r.table.rows (r.table.rows.modify · (ContextRow.withChildren
        [r.table.rows.length])) ++ [{ context := { c with parent } }] := rfl
  rw [context?, hrows, List.getElem?_append_right (Nat.le_of_eq hlength), hlength, Nat.sub_self]
  rfl

/-- Binding the tags of a node when what is inside it has been visited. -/
theorem bind_visited (hc : c.WellFormed) (hthrows : c.throws = [])
    (hwarn : r.warnOrphans = scope.warnOrphans) :
    ((r.opened id t parent c scopes).visited scope inside (some r.table.rows.length)
        (ContextRow.withInside (inside.topIds (r.table.rows.length + 1))) others).bind
        r.table.rows.length (Site.ofTree id t).tags =
      let visited := r.visited scope (.node (.ofTree id t) (some c) inside .nil) parent
        (ContextRow.withChildren [r.table.rows.length])
        (others.modifyHead (.await
          ((Site.ofTree id t).tags.flatMap (Tag.pendingThrows r.table.rows.length))))
      { visited with table := { visited.table with
        comments := r.table.comments ++ r.openRecords id t inside } } := by
  let before := parent.elim r.table.rows
    (r.table.rows.modify · (ContextRow.withChildren [r.table.rows.length]))
  have hbefore : before.length = r.table.rows.length := length_elim_modify ..
  let s := (r.opened id t parent c scopes).visited scope inside (some r.table.rows.length)
    (ContextRow.withInside (inside.topIds (r.table.rows.length + 1))) others
  have hrow : ContextRow.withInside (inside.topIds (r.table.rows.length + 1))
      { context := { c with parent } } =
      (c.row parent ((inside.bind scope).1.topIds (r.table.rows.length + 1))).withoutThrows := by
    rw [DocForest.topIds_bind]
    unfold ContextRow.withInside Context.row ContextRow.withoutThrows ContextRow.modifyContext
      Context.withoutThrows
    rw [← hthrows]
    rfl
  have hrows : s.table.rows = before ++ ((inside.bind scope).1.unitRows parent before.length c).map
      ContextRow.withoutThrows := by
    show (before ++ [_]).modify r.table.rows.length _ ++ _ = _
    rw [length_opened, hbefore, ← hbefore, modify_at_length, hbefore, hrow, DocForest.unitRows,
      List.map_cons, List.append_assoc]
    rfl
  have hbind := bind_unitRows hc (show s.warnOrphans = scope.warnOrphans from hwarn) hrows
    (Site.ofTree id t).tags
  rw [hbefore] at hbind
  rw [hbind]
  unfold bound visited
  dsimp only
  rw [DocForest.bind_some]
  dsimp only
  rw [DocForest.rows, DocForest.bind, DocForest.rows, List.append_nil]
  have hcomments : s.table.comments = r.table.comments ++ r.openRecords id t inside := by
    show r.table.comments ++ r.openRecords id t .nil ++ inside.records _ _ = _
    rw [length_opened, List.append_assoc]
    rfl
  have hreports : s.reports =
      r.reports ++ ((Site.ofTree id t).reports ++ (inside.bind scope).2.now) :=
    List.append_assoc ..
  rw [hcomments, hreports, hbefore]
  simp only [Reports.now_append, List.append_assoc, List.append_nil]
  rfl

/-- When a node that has a context has been visited, its record has its tags. -/
theorem enter_opened (ht : t.kind.isNameable)
    (hdeclare : (r.report (Site.ofTree id t).reports).declare t parent =
      (some r.table.rows.length, (r.report (Site.ofTree id t).reports).declared parent c scopes))
    {s : Resolver} (hinside : (r.opened id t parent c scopes).visitInside t.kind r.table.rows.length
      (Site.ofTree id t).tags (members r.table.rows.length) (parameters r.table.rows.length) = s)
    (hcomments : s.table.comments = r.table.comments ++ r.openRecords id t inside) :
    r.enter parent id t members parameters =
      (some r.table.rows.length, { s with table := { s.table with
        comments := r.table.comments ++
          (DocForest.node (.ofTree id t) (some c) inside .nil).records r.statement
            r.table.rows.length } }) := by
  rw [enter, if_pos ht]
  dsimp only
  rw [hdeclare]
  show (some r.table.rows.length, (visitInside (r.opened id t parent c scopes) ..).giveTags
    r.table.comments.length _) = _
  rw [hinside, giveTags, hcomments, openRecords, modify_at_length, DocForest.records]
  simp [DocForest.records]

/-- A node that has a context and ends no scope puts the rows of its context and of those inside it
at the end of the table. -/
theorem enter_some (scope : BindingScope) (ht : t.kind.isNameable) (hc : c.WellFormed)
    (hthrows : c.throws = []) (hwarn : r.warnOrphans = scope.warnOrphans)
    (hdeclare : (r.report (Site.ofTree id t).reports).declare t parent =
      (some r.table.rows.length, (r.report (Site.ofTree id t).reports).declared parent c scopes))
    (hinside : (r.opened id t parent c scopes).visitInside t.kind r.table.rows.length
      (Site.ofTree id t).tags (members r.table.rows.length) (parameters r.table.rows.length) =
      ((r.opened id t parent c scopes).visited scope inside (some r.table.rows.length)
        (ContextRow.withInside (inside.topIds (r.table.rows.length + 1)))
        (scopes.modifyHead (.await (inside.pending (r.table.rows.length + 1))))).bind
          r.table.rows.length (Site.ofTree id t).tags) :
    r.enter parent id t members parameters =
      (some r.table.rows.length,
        r.visited scope (.node (.ofTree id t) (some c) inside .nil) parent
          (ContextRow.withChildren [r.table.rows.length])
          (scopes.modifyHead (.await
            ((DocForest.node (.ofTree id t) (some c) inside .nil).pending
              r.table.rows.length)))) := by
  rw [enter_opened ht hdeclare (hinside.trans (bind_visited hc hthrows hwarn)) rfl,
    modifyHead_await_await, DocForest.pending, DocForest.pending, List.append_nil]
  rfl

/-- A node that has a context and none inside it. -/
theorem enter_bare (scope : BindingScope) (ht : t.kind.isNameable) (hc : c.WellFormed)
    (hthrows : c.throws = []) (hwarn : r.warnOrphans = scope.warnOrphans)
    (hdeclare : (r.report (Site.ofTree id t).reports).declare t parent =
      (some r.table.rows.length, (r.report (Site.ofTree id t).reports).declared parent c scopes))
    (hbare : ∀ (s : Resolver) (n : Nat) (tags : List Tag) (f g : Resolver → Resolver),
      s.visitInside t.kind n tags f g = s.bind n tags) :
    r.enter parent id t members parameters =
      (some r.table.rows.length,
        r.visited scope (.node (.ofTree id t) (some c) .nil .nil) parent
          (ContextRow.withChildren [r.table.rows.length])
          (scopes.modifyHead (.await
            ((DocForest.node (.ofTree id t) (some c) .nil .nil).pending
              r.table.rows.length)))) := by
  refine enter_some scope ht hc hthrows hwarn hdeclare ?_
  rw [hbare, DocForest.pending, modifyHead_await_nil]
  exact congrArg (bind · _ _) visited_nil.symm

end Resolver

/-! ### Parameters and fields -/

/-- A parameter or a field. -/
def NodeKind.isLeaf : NodeKind → Bool
  | parameter _ | fieldDecl => true
  | _ => false

theorem NodeKind.isNameable_of_isPiece {kind : NodeKind} (h : kind.isPiece) :
    kind.isNameable = false := by
  simp_all [isPiece]

theorem NodeKind.isNameable_of_isLeaf {kind : NodeKind} (h : kind.isLeaf) : kind.isNameable := by
  cases kind with
  | parameter | fieldDecl => rfl
  | _ => exact absurd h Bool.false_ne_true

/-- Every parameter and every field has a context, which has nothing inside it. -/
theorem exists_leafContext {t : SyntaxTree} (ht : t.kind.isLeaf) (owner : String) :
    ∃ c, leafContext? owner t = some c ∧ c.WellFormed ∧ c.throws = [] := by
  obtain ⟨kind, name, below⟩ := t
  cases kind with
  | parameter | fieldDecl =>
    refine ⟨_, rfl, ?_, rfl⟩
    exact fun h => absurd h Bool.false_ne_true
  | _ => exact absurd ht Bool.false_ne_true

namespace Resolver

theorem lt_of_context? {r : Resolver} {id : Nat} {c : Context} (h : r.context? id = some c) :
    id < r.table.rows.length := by
  obtain ⟨row, hrow, _⟩ := Option.map_eq_some_iff.1 h
  exact (List.getElem?_eq_some_iff.1 hrow).1

theorem declare_leaf {r : Resolver} {owner : Nat} {o c : Context} {t : SyntaxTree}
    (ht : t.kind.isLeaf) (ho : r.context? owner = some o) (hc : leafContext? o.id t = some c) :
    r.declare t (some owner) = (some r.table.rows.length, r.declared (some owner) c r.scopes) := by
  have hdeclare : r.declare t (some owner) = r.declareLeaf t (some owner) := by
    obtain ⟨kind, name, below⟩ := t
    cases kind with
    | parameter | fieldDecl => rfl
    | _ => exact absurd ht Bool.false_ne_true
  rw [hdeclare, declareLeaf, Option.bind_some, ho]
  dsimp only
  rw [hc, allocIn_some]

/-- Parameters and fields are visited. -/
theorem visitMembers_leaves (scope : BindingScope) {kind : NodeKind}
    (hkind : ∀ child, kind.mayHold child → child.isLeaf) {below : Forest} (hbelow : below.Fits kind)
    (id : Nat) {r : Resolver} {owner : Nat} {o : Context} (ho : r.context? owner = some o)
    (hwarn : r.warnOrphans = scope.warnOrphans) :
    visitMembers below owner id r =
      let f := DocForest.ofLeaves o.id (below.numbered id)
      r.visited scope f (some owner) (ContextRow.withInside (f.topIds r.table.rows.length))
        (r.scopes.modifyHead (.await (f.pending r.table.rows.length))) := by
  induction below generalizing id r with
  | nil =>
    show r = r.visited _ .nil _ (ContextRow.withInside []) (r.scopes.modifyHead (.await []))
    rw [modifyHead_await_nil, visited_nil]
  | group _ rest ih => exact ih hbelow id ho hwarn
  | node childKind name inside rest _ ih =>
    let t : SyntaxTree := ⟨childKind, name, inside⟩
    rw [visitMembers]
    rcases hbelow.1.1 with hpiece | hchild
    · have hnameable := NodeKind.isNameable_of_isPiece hpiece
      have hskip : DocForest.ofLeaves o.id ((Forest.node childKind name inside rest).numbered id) =
          DocForest.ofLeaves o.id (rest.numbered (id + 1 + inside.size)) :=
        if_neg (by simp [hnameable])
      rw [enter_piece hnameable, hskip]
      exact ih hbelow.2 _ ho hwarn
    · have hleaf : t.kind.isLeaf := hkind _ hchild
      have hnameable := NodeKind.isNameable_of_isLeaf hleaf
      obtain ⟨c, hcontext, hc, hthrows⟩ := exists_leafContext hleaf o.id
      have howner := lt_of_context? ho
      let more := DocForest.ofLeaves o.id (rest.numbered (id + 1 + inside.size))
      have hfirst : DocForest.ofLeaves o.id ((Forest.node childKind name inside rest).numbered id) =
          .node (.ofTree id t) (some c) .nil more := by
        rw [← hcontext]
        exact if_pos hnameable
      have hbare (s : Resolver) (n : Nat) (tags : List Tag) (f g : Resolver → Resolver) :
          s.visitInside t.kind n tags f g = s.bind n tags := by
        cases childKind with
        | parameter | fieldDecl => rfl
        | _ => exact absurd hleaf Bool.false_ne_true
      rw [enter_bare scope hnameable hc hthrows hwarn (declare_leaf hleaf ho hcontext) hbare,
        hfirst]
      refine (congrArg (visitMembers rest owner _) (list_visited howner _ (some c) .nil)).trans ?_
      rw [ih hbelow.2 _ (context?_visited ho _) hwarn]
      dsimp only
      rw [length_visited]
      refine (visited_visited howner ..).trans ?_
      rw [DocForest.pending_node _ _ _ more, ← modifyHead_await_await]
      rfl

theorem visitParameters_eq (below : Forest) (owner id : Nat) (r : Resolver) :
    visitParameters below owner id r =
      ((below.numbered id).find? (·.2.kind = .parameterList)).elim r fun (list, parameters) =>
        visitMembers parameters.below owner (list + 1) r := by
  induction below generalizing id with
  | nil => rfl
  | group _ rest ih => exact ih id
  | node kind name inside rest _ ih =>
    rw [visitParameters, Forest.numbered, List.find?_cons]
    by_cases hkind : kind = .parameterList
    · simp [hkind]
    · simp [hkind, ih]

/-- The parameters of a method are visited. -/
theorem visitParameters_leaves (scope : BindingScope) {t : SyntaxTree} (ht : t.below.Fits t.kind)
    (id : Nat) {r : Resolver} {owner : Nat} {o : Context} (ho : r.context? owner = some o)
    (hwarn : r.warnOrphans = scope.warnOrphans) :
    visitParameters t.below owner (id + 1) r =
      let f := DocForest.ofParameters o.id id t
      r.visited scope f (some owner) (ContextRow.withInside (f.topIds r.table.rows.length))
        (r.scopes.modifyHead (.await (f.pending r.table.rows.length))) := by
  rw [visitParameters_eq, DocForest.ofParameters, SyntaxTree.numberedChildren]
  cases hfind : (t.below.numbered (id + 1)).find? (·.2.kind = .parameterList) with
  | none =>
    show r = r.visited _ .nil _ (ContextRow.withInside []) (r.scopes.modifyHead (.await []))
    rw [modifyHead_await_nil, visited_nil]
  | some p =>
    obtain ⟨list, parameters⟩ := p
    have hkind : parameters.kind = .parameterList := by simpa using List.find?_some hfind
    have hmem : parameters ∈ t.below.trees := by
      rw [← Forest.numbered_trees t.below (id + 1)]
      exact List.mem_map_of_mem (List.mem_of_find?_eq_some hfind)
    have hfits : parameters.below.Fits .parameterList := hkind ▸ (ht.of_mem hmem).2.1
    exact visitMembers_leaves scope (fun child h => by cases child <;> first | rfl | exact h) hfits
      (list + 1) ho hwarn

end Resolver
end SqlDoc

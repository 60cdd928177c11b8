/-
# Which nodes have a record

Every declaration and every statement has a record, with the tags of the comments in front of it,
and the records stand in the order of the source. Bodies alone have none, though they are nameable:
what is inside routines and the bodies of packages and types is not visited
(`resolveAll_records`, `resolveAll_leaves_out_body`).

Key definitions: `sitesOf`, `NodeKind.isRecorded`.
Key theorems: `Forest.sites_eq_nil`, `sites_ofMembers`, `sites_ofStatement`, `resolveAll_records`.
-/
import SqlDoc.Proofs.Context.Refinement

namespace SqlDoc

/-- A declaration or a statement that is no body. -/
def NodeKind.isRecorded (kind : NodeKind) : Bool :=
  kind.isNameable && kind ≠ .body

/-! ### Sites of trees -/

/-- The sites of the nodes of a kind that `p` accepts, in the order of their numbers. -/
def SyntaxTree.sites (p : NodeKind → Bool) (t : SyntaxTree) : List Site :=
  (t.placements.zipIdx.filter fun q => p q.1.tree.kind).map fun q => .ofTree q.2 q.1.tree

/-- The sites of the nodes of statements, each with the number of its statement, if the first is
`statement`. -/
def sitesOf (p : NodeKind → Bool) (statement : Nat) : List SyntaxTree → List (Nat × Site)
  | [] => []
  | t :: more => (t.sites p).map (statement, ·) ++ sitesOf p (statement + 1) more

/-- The sites of the nodes of a kind that `p` accepts, if the first node has number `id`. -/
def Forest.sites (p : NodeKind → Bool) (id : Nat) : Forest → List Site
  | nil => []
  | group _ rest => rest.sites p id
  | node kind name below rest =>
    (if p kind then [.ofTree id ⟨kind, name, below⟩] else []) ++ below.sites p (id + 1)
      ++ rest.sites p (id + 1 + below.size)

theorem Forest.sites_place (p : NodeKind → Bool) (f : Forest) (parent id before : Nat) :
    (((f.place parent id before).zipIdx id).filter fun q => p q.1.tree.kind).map
        (fun q => Site.ofTree q.2 q.1.tree) = f.sites p id := by
  induction f generalizing parent id before with
  | nil => rfl
  | group _ rest ih => exact ih ..
  | node kind name below rest ihbelow ihrest =>
    rw [place, List.zipIdx_cons, List.zipIdx_append, place_length, List.filter_cons,
      List.filter_append, sites, ← ihbelow id (id + 1) before,
      ← ihrest parent (id + 1 + below.size) (before + below.groups.length)]
    by_cases hp : p kind <;> simp [hp]

theorem SyntaxTree.sites_eq (p : NodeKind → Bool) (t : SyntaxTree) :
    t.sites p = (if p t.kind then [.ofTree 0 t] else []) ++ t.below.sites p 1 := by
  rw [sites, placements, List.zipIdx_cons, List.filter_cons, ← Forest.sites_place p t.below 0 1 0]
  by_cases hp : p t.kind <;> simp [hp]

/-- A piece holds nothing but pieces. -/
theorem NodeKind.mayHold_of_isPiece {kind : NodeKind} (h : kind.isPiece) (child : NodeKind) :
    kind.mayHold child = false := by
  cases kind <;> first | rfl | exact absurd h Bool.false_ne_true

theorem NodeKind.isRecorded_of_isPiece {kind : NodeKind} (h : kind.isPiece) :
    kind.isRecorded = false := by
  rw [isRecorded, isNameable_of_isPiece h]
  rfl

namespace Forest

variable {f : Forest} {parent : NodeKind}

/-- Nodes that hold nothing but pieces and bodies have no sites below them. -/
theorem sites_eq_nil (hf : f.Fits parent)
    (hparent : ∀ t ∈ f.trees, parent.mayHold t.kind → t.kind = .body) (id : Nat) :
    f.sites NodeKind.isRecorded id = [] := by
  induction f generalizing parent id with
  | nil => rfl
  | group _ rest ih => exact ih hf hparent id
  | node kind name below rest ihbelow ihrest =>
    have hbarren : kind.isRecorded = false ∧ ∀ child, kind.mayHold child = false := by
      rcases hf.1.1 with hpiece | hhold
      · exact ⟨NodeKind.isRecorded_of_isPiece hpiece, NodeKind.mayHold_of_isPiece hpiece⟩
      · have hbody : kind = .body := hparent ⟨kind, name, below⟩ List.mem_cons_self hhold
        subst hbody
        exact ⟨rfl, fun _ => rfl⟩
    have hbelow : below.sites NodeKind.isRecorded (id + 1) = [] :=
      ihbelow hf.1.2.1 (fun t _ h => by rw [hbarren.2] at h; cases h) _
    rw [sites, hbarren.1, hbelow,
      ihrest hf.2 (fun t ht => hparent t (List.mem_cons_of_mem _ ht)) _]
    rfl

/-- A node that holds nothing but pieces is the only site among itself and those below it. -/
theorem sites_node {kind : NodeKind} {below : Forest} (hbelow : below.Fits kind)
    (hkind : ∀ child, kind.mayHold child = false) (name : Option Name) (rest : Forest) (id : Nat) :
    (node kind name below rest).sites NodeKind.isRecorded id =
      (if kind.isRecorded then [.ofTree id ⟨kind, name, below⟩] else [])
        ++ rest.sites NodeKind.isRecorded (id + 1 + below.size) := by
  have hnil : below.sites NodeKind.isRecorded (id + 1) = [] :=
    sites_eq_nil hbelow (fun t _ h => by rw [hkind] at h; cases h) _
  rw [sites, hnil, List.append_nil]

end Forest

/-! ### Sites of resolved statements -/

namespace DocForest

/-- The sites, each before those inside it. -/
def sites : DocForest → List Site
  | nil => []
  | node site _ inside rest => site :: (inside.sites ++ rest.sites)

theorem map_site_records (f : DocForest) (statement next : Nat) :
    (f.records statement next).map (fun c => (c.statement, c.site)) =
      f.sites.map (statement, ·) := by
  induction f generalizing next with
  | nil => rfl
  | node site context inside rest ihinside ihrest => simp [records, sites, ihinside, ihrest]

/-- Parameters and fields are the sites below what holds them. -/
theorem sites_ofLeaves (owner : String) {kind : NodeKind}
    (hkind : ∀ child, kind.mayHold child → child.isLeaf) {below : Forest} (hbelow : below.Fits kind)
    (id : Nat) :
    (ofLeaves owner (below.numbered id)).sites = below.sites NodeKind.isRecorded id := by
  induction below generalizing id with
  | nil => rfl
  | group _ rest ih => exact ih hbelow id
  | node childKind name inside rest _ ih =>
    rw [Forest.numbered, ofLeaves]
    rcases hbelow.1.1 with hpiece | hchild
    · rw [Forest.sites_node hbelow.1.2.1 (NodeKind.mayHold_of_isPiece hpiece),
        if_neg (by simp [NodeKind.isNameable_of_isPiece hpiece]),
        if_neg (by simp [NodeKind.isRecorded_of_isPiece hpiece]), ih hbelow.2]
      rfl
    · have hleaf := hkind _ hchild
      have hnothing (child : NodeKind) : childKind.mayHold child = false := by
        cases childKind <;> first | rfl | exact absurd hleaf Bool.false_ne_true
      have hrecorded : childKind.isRecorded := by
        cases childKind <;> first | rfl | exact absurd hleaf Bool.false_ne_true
      rw [Forest.sites_node hbelow.1.2.1 hnothing, if_pos (NodeKind.isNameable_of_isLeaf hleaf),
        if_pos hrecorded, sites, ih hbelow.2]
      rfl

/-- The parameters of a method or a routine are the sites below it. -/
theorem sites_ofParameters (owner : String) {kind : NodeKind} (name : Option Name) {below : Forest}
    (hkind : ∀ child, kind.mayHold child → child = .parameterList ∨ child = .body)
    (hbelow : below.Fits kind) (hlists : below.lists ≤ 1) (id : Nat) :
    (ofParameters owner id ⟨kind, name, below⟩).sites =
      below.sites NodeKind.isRecorded (id + 1) := by
  unfold ofParameters SyntaxTree.numberedChildren
  dsimp only
  generalize id + 1 = first
  induction below generalizing first with
  | nil => rfl
  | group _ rest ih => exact ih hbelow hlists first
  | node childKind name inside rest _ ih =>
    rw [Forest.lists, Forest.trees, List.countP_cons] at hlists
    rw [Forest.numbered, List.find?_cons]
    by_cases hlist : childKind = .parameterList
    · subst hlist
      -- There is no second list of parameters, so what comes after this one has no sites.
      have hrest : rest.sites NodeKind.isRecorded (first + 1 + inside.size) = [] := by
        refine Forest.sites_eq_nil hbelow.2 (fun t ht hhold => ?_) _
        refine (hkind _ hhold).resolve_left fun h => ?_
        have hcount : rest.trees.countP (·.kind = .parameterList) + 1 ≤ 1 := hlists
        have : 0 < rest.trees.countP (·.kind = .parameterList) :=
          List.countP_pos_iff.2 ⟨t, ht, decide_eq_true h⟩
        omega
      have hleaves (child : NodeKind) (h : NodeKind.parameterList.mayHold child) :
          child.isLeaf := by
        cases child <;> first | rfl | exact h
      rw [Forest.sites, hrest, List.append_nil]
      exact sites_ofLeaves owner hleaves hbelow.1.2.1 (first + 1)
    · have hnothing : (∀ child, childKind.mayHold child = false) ∧
          childKind.isRecorded = false := by
        rcases hbelow.1.1 with hpiece | hhold
        · exact ⟨NodeKind.mayHold_of_isPiece hpiece, NodeKind.isRecorded_of_isPiece hpiece⟩
        · have hbody := (hkind _ hhold).resolve_left hlist
          subst hbody
          exact ⟨fun _ => rfl, rfl⟩
      rw [Forest.sites_node hbelow.1.2.1 hnothing.1, hnothing.2, decide_eq_false hlist]
      exact ih hbelow.2 (Nat.le_trans (Nat.le_add_right ..) hlists) _

/-- The members of a package or an object type, with what is inside them, are the sites below it. -/
theorem sites_ofMembers {kind : NodeKind}
    (hkind : ∀ child, kind.mayHold child → child.isMember ∧ child ≠ .body) {below : Forest}
    (hbelow : below.Fits kind) (bindings : List (Name × String)) (ids : OverloadIds)
    (exceptions : List String) (id : Nat) :
    (ofMembers bindings ids exceptions (below.numbered id)).sites =
      below.sites NodeKind.isRecorded id := by
  induction below generalizing ids exceptions id with
  | nil => rfl
  | group _ rest ih => exact ih hbelow ids exceptions id
  | node childKind name inside rest _ ih =>
    rcases hbelow.1.1 with hpiece | hchild
    · rw [Forest.numbered, ofMembers_piece hpiece, ih hbelow.2,
        Forest.sites_node hbelow.1.2.1 (NodeKind.mayHold_of_isPiece hpiece),
        if_neg (by simp [NodeKind.isRecorded_of_isPiece hpiece]), List.nil_append]
    · obtain ⟨hmember, hbody⟩ := hkind _ hchild
      have hrest (ids : OverloadIds) (exceptions : List String) :=
        ih hbelow.2 ids exceptions (id + 1 + inside.size)
      have hbare (context : Option Context) (hnothing : ∀ child, childKind.mayHold child = false)
          (hrecorded : childKind.isRecorded) (ids : OverloadIds) (exceptions : List String) :
          (node (.ofTree id ⟨childKind, name, inside⟩) context nil
            (ofMembers bindings ids exceptions (rest.numbered (id + 1 + inside.size)))).sites =
            (Forest.node childKind name inside rest).sites NodeKind.isRecorded id := by
        rw [Forest.sites_node hbelow.1.2.1 hnothing, if_pos hrecorded, sites, hrest]
        rfl
      rw [Forest.numbered]
      cases childKind with
      | method methodKind =>
        have hlist (child : NodeKind) (h : (NodeKind.method methodKind).mayHold child) :
            child = .parameterList ∨ child = .body := .inl (of_decide_eq_true h)
        have hparameters := sites_ofParameters
          (ids.next (SyntaxTree.nameOrEmpty ⟨.method methodKind, name, inside⟩).last).1 name hlist
          hbelow.1.2.1 hbelow.1.2.2 id
        rw [ofMembers, sites, hrest, Forest.sites, ← hparameters]
        rfl
      | typeDecl shape =>
        cases shape with
        | record =>
          have hleaf (child : NodeKind) (h : (NodeKind.typeDecl .record).mayHold child) :
              child.isLeaf := by
            cases child <;> first | rfl | exact h
          have hfields := sites_ofLeaves
            (SyntaxTree.nameOrEmpty ⟨.typeDecl .record, name, inside⟩).display hleaf hbelow.1.2.1
            (id + 1)
          rw [ofMembers, sites, hrest, Forest.sites, ← hfields]
          rfl
        | _ => exact hbare _ (fun _ => rfl) rfl ..
      | exceptionDecl => exact hbare _ (fun _ => rfl) rfl ..
      | variableDecl | subtypeDecl | attributeDecl | pragma | unhandled =>
        exact hbare _ (fun _ => rfl) rfl ..
      | body => exact absurd rfl hbody
      | _ => exact absurd hmember Bool.false_ne_true

/-- The sites of a statement are its nodes that have a record. -/
theorem sites_ofStatement {t : SyntaxTree} (ht : t.Fits) :
    (ofStatement t).sites = t.sites NodeKind.isRecorded := by
  obtain ⟨hstatement, hbelow, hlists⟩ := ht
  obtain ⟨kind, name, below⟩ := t
  dsimp only at hbelow hlists
  have hbare (hkind : ∀ child, kind.mayHold child → child = .body) (hrecorded : kind.isRecorded) :
      [Site.ofTree 0 ⟨kind, name, below⟩] =
        SyntaxTree.sites NodeKind.isRecorded ⟨kind, name, below⟩ := by
    rw [SyntaxTree.sites_eq, if_pos hrecorded,
      Forest.sites_eq_nil hbelow (fun t _ => hkind t.kind) 1]
    rfl
  have hholds (inside : DocForest) (hinside : inside.sites = below.sites NodeKind.isRecorded 1)
      (hrecorded : kind.isRecorded) : Site.ofTree 0 ⟨kind, name, below⟩ :: (inside.sites ++ []) =
        SyntaxTree.sites NodeKind.isRecorded ⟨kind, name, below⟩ := by
    rw [SyntaxTree.sites_eq, if_pos hrecorded, hinside, List.append_nil]
    rfl
  cases kind with
  | createUnit unit =>
    cases unit with
    | package | objectType =>
      refine hholds _ (sites_ofMembers (fun child h => ?_) hbelow ..) rfl
      simpa [NodeKind.mayHold] using h
    | procedure | function =>
      refine hholds _ (sites_ofParameters _ name (fun child h => ?_) hbelow hlists 0) rfl
      simpa [NodeKind.mayHold] using h
    | packageBody | typeBody => exact hbare (fun _ h => of_decide_eq_true h) rfl
  | terminator | command | unhandled => exact hbare (fun _ h => absurd h Bool.false_ne_true) rfl
  | _ => exact absurd hstatement Bool.false_ne_true

end DocForest

/-! ### Files -/

/-- The records of statements are those of their nodes. -/
theorem map_site_comments {trees : List SyntaxTree} (htrees : ∀ t ∈ trees, t.Fits)
    (warnOrphans : Bool) (statement next : Nat) :
    (resolveFrom warnOrphans statement next trees).1.comments.map
        (fun c => (c.statement, c.site)) =
      sitesOf NodeKind.isRecorded statement trees := by
  induction trees generalizing statement next with
  | nil => rfl
  | cons t more ih =>
    obtain ⟨ht, hmore⟩ := List.forall_mem_cons.1 htrees
    let f := (resolveStatement warnOrphans next t).1
    have hrecords : f.records statement next = (DocForest.ofStatement t).records statement next :=
      DocForest.records_bind ..
    have hcomments : (resolveFrom warnOrphans statement next (t :: more)).1.comments =
        f.records statement next ++
          (resolveFrom warnOrphans (statement + 1) (next + f.contextCount) more).1.comments := rfl
    rw [hcomments, List.map_append, ih hmore, hrecords, DocForest.map_site_records,
      DocForest.sites_ofStatement ht]
    rfl

/-- The sites of statements stand in the order of the source. -/
theorem pairwise_sitesOf (p : NodeKind → Bool) (statement : Nat) (trees : List SyntaxTree) :
    (sitesOf p statement trees).Pairwise fun a b =>
      a.1 < b.1 ∨ a.1 = b.1 ∧ a.2.node < b.2.node := by
  have hle (statement : Nat) (trees : List SyntaxTree) :
      ∀ a ∈ sitesOf p statement trees, statement ≤ a.1 := by
    induction trees generalizing statement with
    | nil => exact fun a ha => absurd ha List.not_mem_nil
    | cons t more ih =>
      intro a ha
      rcases List.mem_append.1 ha with ha | ha
      · obtain ⟨_, _, rfl⟩ := List.mem_map.1 ha
        exact Nat.le_refl _
      · have := ih (statement + 1) a ha
        omega
  induction trees generalizing statement with
  | nil => exact .nil
  | cons t more ih =>
    have hzip : t.placements.zipIdx.Pairwise fun a b => a.2 < b.2 := by
      rw [← List.pairwise_map (R := (· < ·)), List.zipIdx_map_snd]
      exact List.pairwise_lt_range'
    have hsites : (t.sites p).Pairwise fun a b => a.node < b.node :=
      List.pairwise_map.2 (hzip.filter _)
    refine List.pairwise_append.2 ⟨List.pairwise_map.2 (hsites.imp fun h => .inr ⟨rfl, h⟩),
      ih (statement + 1), fun a ha b hb => .inl ?_⟩
    obtain ⟨_, _, rfl⟩ := List.mem_map.1 ha
    exact hle (statement + 1) more b hb

/-- The declarations and statements that are no bodies have one record each, with the tags of the
comments in front of them, in the order of the source. -/
theorem resolveAll_records (source : String) (filename : Option String) (warnOrphans : Bool) :
    let trees := (parseSql source filename).trees
    let sites := (resolveAll trees warnOrphans).1.comments.map fun c => (c.statement, c.site)
    sites = sitesOf NodeKind.isRecorded 0 trees ∧
      sites.Pairwise fun a b => a.1 < b.1 ∨ a.1 = b.1 ∧ a.2.node < b.2.node := by
  intro trees sites
  have hfits : ∀ t ∈ trees, t.Fits := parseSql_fits source filename
  have hsites : sites = sitesOf NodeKind.isRecorded 0 trees := by
    have hcomments := congrArg (fun out : ContextTable × List Diagnostic => out.1.comments)
      (resolveAll_eq hfits warnOrphans)
    exact (congrArg _ hcomments).trans (map_site_comments hfits warnOrphans 0 0)
  refine ⟨hsites, ?_⟩
  rw [hsites]
  exact pairwise_sitesOf ..

/-- The body of a package has no record. -/
theorem resolveAll_leaves_out_body :
    let trees := (parseSql "CREATE PACKAGE BODY p IS END;" none).trees
    ((resolveAll trees).1.comments.map fun c => (c.statement, c.site.node)) ≠
      (sitesOf NodeKind.isNameable 0 trees).map fun s => (s.1, s.2.node) := by
  decide +kernel

end SqlDoc

/-
# A comment in front of a method

If a comment is put in front of a method of a package, the groups of the package are the same but
for one, the first of the method, which has the comment among its trivia. No other declaration has
that group, and what a declaration documents is not read off trivia in front of it. So the package
documents the same, but that the method has one more comment in front of it
(`differ_ofStatement`).

Key definitions: `DocForest.Differ`.
Key theorems: `Forest.groupsBefore_append_sublist`, `differ_ofMembers`, `differ_ofStatement`.
-/
import SqlDoc.Proofs.Context.Moving
import SqlDoc.Proofs.Syntax.Leading

namespace SqlDoc

/-! ### Groups that stay as they are -/

namespace Forest

variable {f : Forest}

theorem sift_eq_self {view : SqlGroup → SqlGroup} (h : ∀ g ∈ f.groups, view g = g) :
    f.sift (fun g => some (view g)) = f := by
  induction f with
  | nil => rfl
  | group g rest ih =>
    obtain ⟨hg, hrest⟩ := List.forall_mem_cons.1 h
    show group (view g) (rest.sift _) = _
    rw [hg, ih hrest]
  | node kind name below rest ihbelow ihrest =>
    obtain ⟨hbelow, hrest⟩ := List.forall_mem_append.1 h
    rw [sift, ihbelow hbelow, ihrest hrest]

/-- The groups of the nodes at the top are among those of the forest, in order. -/
theorem groups_trees_sublist (f : Forest) : (f.trees.flatMap (·.groups)).Sublist f.groups := by
  induction f with
  | nil => exact .slnil
  | group g rest ih => exact ih.cons g
  | node kind name below rest _ ih => exact (List.Sublist.refl _).append ih

theorem groups_sublist_of_mem {t : SyntaxTree} (ht : t ∈ f.trees) : t.groups.Sublist f.groups := by
  obtain ⟨before, after, htrees⟩ := List.append_of_mem ht
  refine List.Sublist.trans ?_ f.groups_trees_sublist
  rw [htrees, List.flatMap_append, List.flatMap_cons]
  exact (List.sublist_append_left _ _).trans (List.sublist_append_right _ _)

/-- The groups before a node that `stop` accepts are before those of the node. -/
theorem groupsBefore_append_sublist {stop : NodeKind → Bool} {t : SyntaxTree} (ht : t ∈ f.trees)
    (hstop : stop t.kind) : (f.groupsBefore stop ++ t.groups).Sublist f.groups := by
  induction f with
  | nil => cases ht
  | group g rest ih => exact (ih ht).cons_cons g
  | node kind name below rest _ ih =>
    rw [groupsBefore]
    split
    · exact groups_sublist_of_mem ht
    · rename_i hkind
      have hrest : t ∈ rest.trees := by
        refine (List.mem_cons.1 ht).resolve_left fun heq => hkind ?_
        rw [heq] at hstop
        exact hstop
      rw [List.append_assoc]
      exact (List.Sublist.refl _).append (ih hrest)

end Forest

variable {first doc : SqlToken} {i : Nat}

/-- A token that is put into a group is put into no other group. -/
theorem insertBefore_of_sublist {groups before own after : List SqlGroup}
    (hsub : (before ++ (own ++ after)).Sublist groups)
    (hnodup : (groups.filterMap (·.key?)).Nodup) (hown : first ∈ own.filterMap (·.key?)) :
    ∀ g ∈ before ++ after, g.insertBefore first i doc = g := by
  have hkeys := (hsub.filterMap (·.key?)).nodup hnodup
  rw [List.filterMap_append, List.filterMap_append] at hkeys
  obtain ⟨-, hrest, hbefore⟩ := List.nodup_append.1 hkeys
  obtain ⟨-, -, hafter⟩ := List.nodup_append.1 hrest
  intro g hg
  refine TokenGroup.insertBefore_of_ne fun hkey => ?_
  rcases List.mem_append.1 hg with hg | hg
  · have hmem : first ∈ before.filterMap (·.key?) := List.mem_filterMap.2 ⟨g, hg, hkey⟩
    exact hbefore first hmem first (List.mem_append_left _ hown) rfl
  · have hmem : first ∈ after.filterMap (·.key?) := List.mem_filterMap.2 ⟨g, hg, hkey⟩
    exact hafter first hown first hmem rfl

/-- A comment in front of a group does not move its significant token. -/
theorem groupsSpan?_insertBefore (groups : List SqlGroup) :
    groupsSpan? (groups.map (.insertBefore first i doc)) = groupsSpan? groups := by
  have hplaces (g : SqlGroup) : (g.insertBefore first i doc).key.span = g.key.span ∧
      (g.insertBefore first i doc).span.stop = g.span.stop := by
    unfold TokenGroup.insertBefore
    split
    · cases g <;> exact ⟨rfl, rfl⟩
    · exact ⟨rfl, rfl⟩
  unfold groupsSpan?
  rw [List.head?_map, List.getLast?_map]
  cases groups.head? with
  | none => rfl
  | some first =>
    cases groups.getLast? with
    | none => rfl
    | some last =>
      obtain ⟨hstart, -⟩ := hplaces first
      obtain ⟨-, hstop⟩ := hplaces last
      simp only [Option.map_some, Option.bind_eq_bind, Option.bind_some, hstart, hstop]

theorem span?_insertBefore (t : SyntaxTree) :
    (t.regroup (.insertBefore first i doc)).span? = t.span? := by
  rw [SyntaxTree.span?, SyntaxTree.groups_regroup, groupsSpan?_insertBefore]
  rfl

/-! ### The method -/

/-- The first significant token of a declaration. -/
def SyntaxTree.firstKey? (t : SyntaxTree) : Option SqlToken :=
  t.groups.head?.bind (·.key?)

theorem SyntaxTree.mem_keys_of_firstKey? {t : SyntaxTree} (h : t.firstKey? = some first) :
    first ∈ t.keys := by
  obtain ⟨g, hg, hkey⟩ := Option.bind_eq_some_iff.1 h
  exact List.mem_filterMap.2 ⟨g, List.mem_of_head? hg, hkey⟩

theorem SyntaxTree.mem_trees_of_numbered {t : SyntaxTree} {id : Nat} {q : Nat × SyntaxTree}
    (h : q ∈ t.numberedChildren id) : q.2 ∈ t.below.trees := by
  have hmem := List.mem_map_of_mem (f := (·.2)) h
  rwa [numberedChildren, Forest.numbered_trees] at hmem

/-- A method with a comment in front of it. -/
structure Fronted (first doc : SqlToken) (i : Nat) (kind : MethodKind) (m : SyntaxTree) : Prop where
  isMethod : m.kind = .method kind
  begins : m.below.Begins
  firstKey : m.firstKey? = some first
  nodup : m.keys.Nodup
  isDoc : doc.kind = .docComment

namespace Fronted

variable {kind : MethodKind} {m : SyntaxTree} (h : Fronted first doc i kind m)

include h

/-- The comment is among the trivia of the first group, and nothing else is changed. -/
theorem exists_below : ∃ leading rest, m.below = .group (.keyed leading first) rest ∧
    m.regroup (.insertBefore first i doc) =
      { m with below := .group (.keyed (leading.take i ++ doc :: leading.drop i) first) rest } := by
  obtain ⟨g, rest, hbelow⟩ := h.begins
  have hgroups : m.groups = g :: rest.groups := congrArg Forest.groups hbelow
  have hkey : g.key? = some first := by
    have := h.firstKey
    rwa [SyntaxTree.firstKey?, hgroups] at this
  obtain ⟨leading, rfl⟩ : ∃ leading, g = .keyed leading first := by
    cases g with
    | keyed leading key => exact ⟨leading, congrArg _ (Option.some.inj hkey)⟩
    | trailing => cases hkey
  have hrest : ∀ g ∈ rest.groups, g.insertBefore first i doc = g := by
    have hsub : ([] ++ ([TokenGroup.keyed leading first] ++ rest.groups)).Sublist m.groups := by
      rw [hgroups]
      exact .refl _
    exact insertBefore_of_sublist hsub h.nodup List.mem_cons_self
  refine ⟨leading, rest, hbelow, ?_⟩
  rw [SyntaxTree.regroup, SyntaxTree.sift, hbelow, Forest.sift, Option.elim_some,
    TokenGroup.insertBefore_keyed, Forest.sift_eq_self hrest]

/-- The comment is no part of what a method declares. -/
theorem methodContext_eq (owner : String) :
    methodContext kind owner (m.regroup (.insertBefore first i doc)) =
      methodContext kind owner m := by
  obtain ⟨leading, rest, hbelow, hm⟩ := h.exists_below
  have hspan : (m.regroup (.insertBefore first i doc)).span? = m.span? := span?_insertBefore m
  obtain ⟨_, name, _⟩ := m
  obtain rfl := h.isMethod
  obtain rfl := hbelow
  rw [hm] at hspan ⊢
  rw [methodContext, Context.ofTree, hspan]
  rfl

theorem ofParameters_eq (owner : String) (n : Nat) :
    DocForest.ofParameters owner n (m.regroup (.insertBefore first i doc)) =
      DocForest.ofParameters owner n m := by
  obtain ⟨leading, rest, hbelow, hm⟩ := h.exists_below
  rw [hm, DocForest.ofParameters, DocForest.ofParameters, SyntaxTree.numberedChildren,
    SyntaxTree.numberedChildren, hbelow]
  rfl

/-- The comment is one more in front of the method, with the others around it. -/
theorem site_eq (n : Nat) (hbare : (Site.ofTree n m).tags = []) :
    Site.ofTree n (m.regroup (.insertBefore first i doc)) =
      { Site.ofTree n m with tags := (parseComment doc.text doc.span.start).tags } := by
  obtain ⟨leading, rest, hbelow, hm⟩ := h.exists_below
  let isDoc (t : SqlToken) : Bool := t.kind = .docComment
  have hnone : tagsOf ((leading.take i).filter isDoc) = [] ∧
      tagsOf ((leading.drop i).filter isDoc) = [] := by
    rw [Site.ofTree_eq, SyntaxTree.docComments, SyntaxTree.leadingTrivia, SyntaxTree.groups,
      hbelow] at hbare
    rw [← List.append_eq_nil_iff, ← tagsOf_append, ← List.filter_append, List.take_append_drop]
    exact hbare
  have htags : tagsOf (m.regroup (.insertBefore first i doc)).docComments =
      (parseComment doc.text doc.span.start).tags := by
    have hdoc : isDoc doc = true := decide_eq_true h.isDoc
    rw [hm]
    show tagsOf ((leading.take i ++ doc :: leading.drop i).filter isDoc) = _
    rw [List.filter_append, List.filter_cons_of_pos hdoc, tagsOf_append, hnone.1, List.nil_append]
    exact (congrArg _ hnone.2).trans (List.append_nil _)
  have hhandled : m.kind ≠ .unhandled := by simp [h.isMethod]
  rw [Site.ofTree_eq, Site.ofTree_eq, htags, span?_insertBefore, m.kind_regroup]
  exact congrArg (Site.mk n m.kind m.span? _) ((if_neg hhandled).trans (if_neg hhandled).symm)

end Fronted

/-! ### The package -/

namespace DocForest

/-- The forests differ in the site of one context at the top, which has number `id` and `inside`
inside it: the second has `other` where the first has `site`. The first context has the number that
is given. -/
inductive Differ (site other : Site) (c : Context) (inside : DocForest) (id : Nat) :
    Nat → DocForest → DocForest → Prop
  | here (rest : DocForest) : Differ site other c inside id id (node site (some c) inside rest)
      (node other (some c) inside rest)
  | later {next : Nat} {f g : DocForest} (first : Site) (context : Option Context)
      (within : DocForest)
      (h : Differ site other c inside id (next + context.toList.length + within.contextCount) f g) :
      Differ site other c inside id next (node first context within f) (node first context within g)

variable {kind : MethodKind} {m : SyntaxTree} {n : Nat}

/-- The members of a package differ in the site of the method. -/
theorem differ_ofMembers (h : Fronted first doc i kind m) (bindings : List (Name × String))
    (ids : OverloadIds) (exceptions : List String) (before after : List (Nat × SyntaxTree))
    (next : Nat) :
    let told := m.regroup (.insertBefore first i doc)
    ∃ owner id, Differ (.ofTree n m) (.ofTree n told) (methodContext kind owner m)
      (ofParameters owner n m) id next
      (ofMembers bindings ids exceptions (before ++ (n, m) :: after))
      (ofMembers bindings ids exceptions (before ++ (n, told) :: after)) := by
  intro told
  induction before generalizing ids exceptions next with
  | nil =>
    have htold : told.kind = .method kind := h.isMethod
    have hname : told.nameOrEmpty = m.nameOrEmpty := rfl
    let owner := (ids.next m.nameOrEmpty.last).1
    refine ⟨owner, next, ?_⟩
    rw [List.nil_append, List.nil_append, ofMembers, ofMembers, h.isMethod, htold, hname]
    dsimp only
    rw [h.methodContext_eq, h.ofParameters_eq]
    exact .here _
  | cons member before ih =>
    obtain ⟨j, t⟩ := member
    have hlater (context : Option Context) (within : DocForest) (ids : OverloadIds)
        (exceptions : List String) :
        ∃ owner id, Differ (.ofTree n m) (.ofTree n told) (methodContext kind owner m)
          (ofParameters owner n m) id next
          (node (.ofTree j t) context within
            (ofMembers bindings ids exceptions (before ++ (n, m) :: after)))
          (node (.ofTree j t) context within
            (ofMembers bindings ids exceptions (before ++ (n, told) :: after))) := by
      obtain ⟨owner, id, hdiffer⟩ := ih ids exceptions _
      exact ⟨owner, id, .later _ _ _ hdiffer⟩
    rw [List.cons_append, List.cons_append, ofMembers, ofMembers]
    dsimp only
    split
    · exact hlater ..
    · exact hlater ..
    · exact hlater ..
    · split
      · exact hlater ..
      · exact ih ..

end DocForest

/-- A package, a method of which has a comment in front of it. -/
structure FrontedIn (first doc : SqlToken) (i : Nat) (kind : MethodKind) (m : SyntaxTree) (n : Nat)
    (t : SyntaxTree) : Prop extends Fronted first doc i kind m where
  isPackage : t.kind = .createUnit .package
  unitBegins : t.below.Begins
  unitNodup : t.keys.Nodup
  isMember : (n, m) ∈ t.numberedChildren 0

namespace FrontedIn

variable {kind : MethodKind} {m t : SyntaxTree} {n : Nat} (h : FrontedIn first doc i kind m n t)

include h

/-- The other declarations of the package stay as they are. -/
theorem exists_children : ∃ before after,
    t.numberedChildren 0 = before ++ (n, m) :: after ∧
      (t.regroup (.insertBefore first i doc)).numberedChildren 0 =
        before ++ (n, m.regroup (.insertBefore first i doc)) :: after := by
  obtain ⟨before, after, hchildren⟩ := List.append_of_mem h.isMember
  have htrees : t.below.trees = before.map (·.2) ++ m :: after.map (·.2) := by
    have hall := congrArg (List.map (·.2)) hchildren
    rw [SyntaxTree.numberedChildren, Forest.numbered_trees, List.map_append] at hall
    exact hall
  have hsub := t.below.groups_trees_sublist
  rw [htrees, List.flatMap_append, List.flatMap_cons] at hsub
  have hothers : ∀ g ∈ (before.map (·.2)).flatMap (·.groups) ++
      (after.map (·.2)).flatMap (·.groups), g.insertBefore first i doc = g :=
    insertBefore_of_sublist hsub h.unitNodup (SyntaxTree.mem_keys_of_firstKey? h.firstKey)
  have hsame (others : List (Nat × SyntaxTree))
      (hgroups : ∀ g ∈ (others.map (·.2)).flatMap (·.groups), g.insertBefore first i doc = g) :
      others.map (fun p => (p.1, p.2.regroup (.insertBefore first i doc))) = others := by
    conv_rhs => rw [← others.map_id]
    refine List.map_congr_left fun p hp => congrArg (Prod.mk p.1) ?_
    have hbelow := Forest.sift_eq_self (f := p.2.below) fun g hg =>
      hgroups g (List.mem_flatMap.2 ⟨p.2, List.mem_map_of_mem hp, hg⟩)
    exact congrArg (SyntaxTree.mk p.2.kind p.2.name) hbelow
  refine ⟨before, after, hchildren, ?_⟩
  rw [t.numberedChildren_regroup, hchildren, List.map_append, List.map_cons,
    hsame before fun g hg => hothers g (List.mem_append_left _ hg),
    hsame after fun g hg => hothers g (List.mem_append_right _ hg)]

/-- What is read off the other declarations stays as it is. -/
theorem filterMap_children {β : Type} {p : SyntaxTree → Option β}
    (hp : ∀ m : SyntaxTree, m.kind = .method kind → p m = none) :
    (t.regroup (.insertBefore first i doc)).children.filterMap p = t.children.filterMap p := by
  obtain ⟨before, after, hchildren, htold⟩ := h.exists_children
  have hall (t : SyntaxTree) : t.children.filterMap p =
      (t.numberedChildren 0).filterMap fun q => p q.2 := by
    rw [SyntaxTree.children, ← Forest.numbered_trees _ 1, List.filterMap_map]
    rfl
  rw [hall, hall, hchildren, htold, List.filterMap_append, List.filterMap_append,
    List.filterMap_cons, List.filterMap_cons, hp m h.isMethod, hp (m.regroup _) h.isMethod]

theorem bindings_eq :
    (t.regroup (.insertBefore first i doc)).children.filterMap codeBinding? =
      t.children.filterMap codeBinding? :=
  h.filterMap_children fun m hm => codeBinding?_eq_none (by rw [hm]; exact nofun)

/-- What the package declares does not depend on its methods. -/
theorem unitContext_eq :
    unitContext .package (t.regroup (.insertBefore first i doc)) = unitContext .package t := by
  have hmodifiers : (t.regroup (.insertBefore first i doc)).modifiers = t.modifiers := by
    rw [SyntaxTree.modifiers, SyntaxTree.modifiers, ← List.filterMap_eq_filter]
    exact h.filterMap_children fun m hm => by simp [Option.guard, hm]
  have hdetail : unitDetail .package (t.regroup (.insertBefore first i doc)) =
      unitDetail .package t := by
    rw [unitDetail, SyntaxTree.modifierNames, hmodifiers]
    rfl
  have hstop : m.kind.isMember = true := by
    rw [h.isMethod]
    rfl
  have hbefore : ∀ g ∈ t.below.groupsBefore NodeKind.isMember,
      g.insertBefore first i doc = g := by
    have hsub :=
      Forest.groupsBefore_append_sublist (SyntaxTree.mem_trees_of_numbered h.isMember) hstop
    rw [← List.append_nil m.groups] at hsub
    rw [← List.append_nil (t.below.groupsBefore _)]
    exact insertBefore_of_sublist hsub h.unitNodup (SyntaxTree.mem_keys_of_firstKey? h.firstKey)
  have hheader : (t.regroup (.insertBefore first i doc)).header = t.header := by
    have hgroups : (t.regroup (.insertBefore first i doc)).below.groupsBefore NodeKind.isMember =
        t.below.groupsBefore NodeKind.isMember := by
      refine (t.below.groupsBefore_sift _ _).trans ?_
      conv_rhs => rw [← List.map_id (t.below.groupsBefore _)]
      exact List.map_congr_left hbefore
    rw [SyntaxTree.header, SyntaxTree.header, SyntaxTree.kind_regroup, h.isPackage, hgroups]
  unfold unitContext
  rw [Context.ofNamed, Context.ofTree, hdetail, hheader, span?_insertBefore]
  rfl

/-- The comment is not in front of the package. -/
theorem site_unit_eq : Site.ofTree 0 (t.regroup (.insertBefore first i doc)) = Site.ofTree 0 t := by
  obtain ⟨g, rest, hbelow⟩ := h.unitBegins
  have hgroups : t.groups = g :: rest.groups := congrArg Forest.groups hbelow
  have hm : m ∈ rest.trees := by
    have hm := SyntaxTree.mem_trees_of_numbered h.isMember
    rwa [hbelow] at hm
  have hfirst : g.insertBefore first i doc = g := by
    have hsub : ([g] ++ (m.groups ++ [])).Sublist t.groups := by
      rw [List.append_nil, hgroups]
      exact (Forest.groups_sublist_of_mem hm).cons_cons g
    have hown := SyntaxTree.mem_keys_of_firstKey? h.firstKey
    exact insertBefore_of_sublist hsub h.unitNodup hown g List.mem_cons_self
  have hdocs : (t.regroup (.insertBefore first i doc)).docComments = t.docComments := by
    rw [SyntaxTree.docComments, SyntaxTree.leadingTrivia, SyntaxTree.groups_regroup,
      SyntaxTree.docComments, SyntaxTree.leadingTrivia, hgroups, List.map_cons, hfirst]
    rfl
  have hhandled : t.kind ≠ .unhandled := by simp [h.isPackage]
  rw [Site.ofTree_eq, Site.ofTree_eq, hdocs, span?_insertBefore, t.kind_regroup, if_neg hhandled,
    if_neg hhandled]

end FrontedIn

/-- What a package documents differs in the site of the method. -/
theorem differ_ofStatement {kind : MethodKind} {m t : SyntaxTree} {n : Nat}
    (h : FrontedIn first doc i kind m n t) (next : Nat) :
    let told := t.regroup (.insertBefore first i doc)
    let site := Site.ofTree 0 t
    let c := unitContext .package t
    ∃ owner id, DocForest.Differ (.ofTree n m)
        (.ofTree n (m.regroup (.insertBefore first i doc))) (methodContext kind owner m)
        (.ofParameters owner n m) id next (.ofUnit t) (.ofUnit told) ∧
      DocForest.ofStatement t = .node site (some c) (.ofUnit t) .nil ∧
      DocForest.ofStatement told = .node site (some c) (.ofUnit told) .nil := by
  intro told site c
  obtain ⟨before, after, hchildren, htold⟩ := h.exists_children
  obtain ⟨owner, id, hdiffer⟩ := DocForest.differ_ofMembers h.toFronted
    (t.children.filterMap codeBinding?) .empty [] before after next
  have hkind : told.kind = .createUnit .package := h.isPackage
  refine ⟨owner, id, ?_, ?_, ?_⟩
  · rw [DocForest.ofUnit, DocForest.ofUnit, h.bindings_eq, hchildren, htold]
    exact hdiffer
  · rw [DocForest.ofStatement, h.isPackage]
  · rw [DocForest.ofStatement, hkind]
    dsimp only
    rw [h.site_unit_eq, h.unitContext_eq]

end SqlDoc

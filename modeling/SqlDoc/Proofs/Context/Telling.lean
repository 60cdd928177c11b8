/-
# Telling a parameter

A tag that names a parameter and says nothing but what the parameter is for changes one context: it
gets the description (`bindTags_describing`). Nothing is reported. So where two packages differ in
the site of one method, and the second has such a tag there and the first none, the rows of the
second are those of the first with one description changed (`Describes.modify_rows`).

Key definitions: `ParamDoc.describing`, `Context.IsFresh`, `CommentRecord.entry`, `Describes`.
Key theorems: `bindTags_describing`, `Differ.exists_rows`, `Describes.bind_reports`,
`Describes.modify_rows`.
-/
import SqlDoc.Proofs.Context.Fronting
import SqlDoc.Proofs.Context.Numbering

namespace SqlDoc

/-! ### One tag -/

/-- A parameter is said to be for something, and nothing else is said. -/
def ParamDoc.describing (name : Name) (text : String) : ParamDoc where
  name
  text
  type := none
  default := none
  isOptional := false

/-- The context with another description. -/
def Context.withDescription (text : String) (c : Context) : Context :=
  { c with description := text }

/-- The context is that of a parameter that nothing has been said about but what it is for. -/
def Context.IsFresh (c : Context) : Prop :=
  ∃ info, c.detail = .parameter info ∧ info.docType = none ∧ info.isOptional = false

theorem ParamDoc.apply_describing {c : Context} (hc : c.IsFresh) (name : Name) {text : String}
    (htext : text ≠ "") : (describing name text).apply c = c.withDescription text := by
  obtain ⟨⟨mode, nocopy, type, default, docType, isOptional⟩, hdetail, htype, hoptional⟩ := hc
  dsimp only at htype hoptional
  subst htype hoptional
  simp [apply, describing, hdetail, htext, Context.withDescription]

/-- Tags change what is known about results only in front of methods. -/
theorem detail_bindTags {c : Context} (hc : ∀ returns signature modifiers,
    c.detail ≠ .method returns signature modifiers) (scope : BindingScope) (inside : List Context)
    (tags : List Tag) : (bindTags scope c inside tags).owner.detail = c.detail := by
  have hfold (b : Binding) (hb : b.owner.detail = c.detail) :
      (tags.foldl (Binding.addTag scope (c.paramTargets? inside)) b).owner.detail = c.detail := by
    induction tags generalizing b with
    | nil => exact hb
    | cons t tags ih =>
      refine ih _ ?_
      by_cases ht : ∃ name, t.body = .throws (some name)
      · obtain ⟨name, hbody⟩ := ht
        rw [Binding.addTag, hbody]
        exact hb
      · have htagged := (taggedBy_addTag scope (c.paramTargets? inside) b (not_exists.1 ht)).1
        generalize (b.addTag scope (c.paramTargets? inside) t).owner = told at htagged
        cases htagged with
        | same => exact hb
        | annotated => exact hb
        | returned hmethod => exact absurd (hb.symm.trans hmethod) (hc _ _ _)
  unfold bindTags Binding.finish
  split <;> exact hfold _ rfl

/-- A tag that names one of the parameters and says nothing else but what it is for says only
that. -/
theorem bindTags_describing {c : Context} {inside : List Context} {targets : ParamTargets}
    {name : Name} {t : Tag} (hc : c.paramTargets? inside = some targets)
    (hname : targets.names.any (·.sameBase name))
    (ht : t.body = .param (some name) none none false) (scope : BindingScope) :
    bindTags scope c inside [t] =
      { owner := c, named := [name.display], docs := [.describing name t.text] } := by
  rw [bindTags, hc, List.foldl_cons, List.foldl_nil, Binding.addTag, ht]
  dsimp only
  rw [Binding.addParam, if_neg (by simp)]
  dsimp only
  rw [if_pos hname]
  rfl

/-- Where tags can be about no parameter, none is told anything. -/
theorem docs_bindTags {c : Context} {inside : List Context} (hc : c.paramTargets? inside = none)
    (scope : BindingScope) (tags : List Tag) : (bindTags scope c inside tags).docs = [] := by
  have horphan (b : Binding) (t : Tag) (message : String) :
      (b.orphan scope t message).docs = b.docs := by
    unfold Binding.orphan
    split <;> rfl
  have htag (b : Binding) (t : Tag) : (b.addTag scope none t).docs = b.docs := by
    unfold Binding.addTag
    cases t.body with
    | description =>
      dsimp only
      unfold Binding.addDescription
      split <;> rfl
    | returns =>
      dsimp only
      unfold Binding.addReturn
      split
      · rfl
      · split
        · rfl
        · dsimp only
          split
          · rfl
          · exact horphan ..
    | throws name => cases name <;> first | rfl | exact horphan ..
    | _ => rfl
  have hfold (b : Binding) (hb : b.docs = []) :
      (tags.foldl (Binding.addTag scope none) b).docs = [] := by
    induction tags generalizing b with
    | nil => exact hb
    | cons t tags ih => exact ih _ ((htag b t).trans hb)
  unfold bindTags Binding.finish
  rw [hc]
  split <;> exact hfold _ rfl

/-! ### Parameters -/

/-- The numbers of the statement, of the node and of its context, if it has one. -/
def CommentRecord.entry (r : CommentRecord) : Nat × Nat × Option Nat :=
  (r.statement, r.site.node, r.context)

namespace DocForest

theorem forall_topContexts_bind {P : Context → Prop} {f : DocForest} (scope : BindingScope)
    (hbind : ∀ c inside tags, P c → P (bindTags scope c inside tags).owner)
    (h : ∀ c ∈ f.topContexts, P c) : ∀ c ∈ (f.bind scope).1.topContexts, P c := by
  induction f with
  | nil => exact h
  | node site context inside rest _ ih =>
    obtain ⟨hcontext, hrest⟩ := List.forall_mem_append.1 h
    cases context with
    | none => exact ih hrest
    | some c =>
      refine List.forall_mem_cons.2 ⟨hbind _ _ _ (hcontext c List.mem_cons_self), ih hrest⟩

/-- The parameters of a method are fresh, whatever the tags in front of them are. -/
theorem isFresh_ofParameters {t : SyntaxTree} (ht : t.below.Fits t.kind) (owner : String)
    (id : Nat) (scope : BindingScope) :
    ∀ c ∈ ((ofParameters owner id t).bind scope).1.topContexts, c.IsFresh := by
  refine forall_topContexts_bind scope (fun c inside tags hc => ?_) fun c hc => ?_
  · obtain ⟨info, hdetail, hfresh⟩ := hc
    refine ⟨info, ?_, hfresh⟩
    rw [detail_bindTags (by rw [hdetail]; exact fun _ _ _ => nofun), hdetail]
  · have hkind := kind_ofParameters ht owner id c hc
    unfold ofParameters at hc
    split at hc
    · obtain ⟨leaf, -, hleaf⟩ := mem_topContexts_ofLeaves hc
      unfold leafContext? at hleaf
      dsimp only at hleaf
      split at hleaf
      · cases hleaf
        exact ⟨_, rfl, rfl, rfl⟩
      · cases hleaf
        cases hkind
      · cases hleaf
    · cases hc

/-- If a name is that of one parameter only, a tag about the name is about the context of that
parameter. -/
theorem find?_tops_ofLeaves {owner : String} {leaves : List (Nat × SyntaxTree)} {j : Nat}
    {p : SyntaxTree} {name : Name} (hmem : (j, p) ∈ leaves) (hnameable : p.kind.isNameable)
    (hcontext : (leafContext? owner p).isSome) (hname : p.nameOrEmpty.sameBase name)
    (honly : ∀ q ∈ leaves, q.2.kind.isNameable → q.2.nameOrEmpty.sameBase name → q = (j, p))
    (statement next : Nat) :
    ∃ target c, ((ofLeaves owner leaves).tops next).find? (fun q => q.2.name.sameBase name) =
        some (target, c) ∧
      { statement, site := .ofTree j p, context := some target } ∈
        (ofLeaves owner leaves).records statement next := by
  induction leaves generalizing next with
  | nil => cases hmem
  | cons leaf more ih =>
    obtain ⟨i, t⟩ := leaf
    obtain ⟨hfirst, hothers⟩ := List.forall_mem_cons.1 honly
    have hlater (hne : (i, t) ≠ (j, p)) : (j, p) ∈ more :=
      (List.mem_cons.1 hmem).resolve_left hne.symm
    rw [ofLeaves]
    split
    · rename_i ht
      cases hleaf : leafContext? owner t with
      | none =>
        have hne : (i, t) ≠ (j, p) := fun heq => by
          rw [← (Prod.mk.inj heq).2, hleaf] at hcontext
          cases hcontext
        obtain ⟨target, c, hfind, hrecord⟩ := ih (hlater hne) hothers next
        exact ⟨target, c, hfind, List.mem_cons_of_mem _ hrecord⟩
      | some c =>
        have hc : c.name = t.nameOrEmpty := by
          unfold leafContext? at hleaf
          dsimp only at hleaf
          split at hleaf <;> cases hleaf <;> rfl
        rw [tops, Option.map_some, Option.toList_some, List.singleton_append, List.find?_cons]
        dsimp only
        rw [hc]
        cases hsame : t.nameOrEmpty.sameBase name with
        | true =>
          obtain ⟨rfl, rfl⟩ := Prod.mk.inj (hfirst ht hsame)
          exact ⟨next, c, rfl, List.mem_cons_self⟩
        | false =>
          have hne : (i, t) ≠ (j, p) := fun heq => by
            rw [(Prod.mk.inj heq).2, hname] at hsame
            cases hsame
          obtain ⟨target, d, hfind, hrecord⟩ := ih (hlater hne) hothers (next + 1)
          exact ⟨target, d, hfind, List.mem_cons_of_mem _ hrecord⟩
    · rename_i ht
      exact ih (hlater fun heq => ht ((Prod.mk.inj heq).2 ▸ hnameable)) hothers next

/-- Binding the tags of contexts leaves their names. -/
theorem find?_tops_bind {f : DocForest} {name : Name} {next target : Nat} {c : Context}
    (h : (f.tops next).find? (fun q => q.2.name.sameBase name) = some (target, c))
    (scope : BindingScope) :
    ∃ d, ((f.bind scope).1.tops next).find? (fun q => q.2.name.sameBase name) =
      some (target, d) := by
  let key (q : Nat × Context) : Nat × Name := (q.1, q.2.name)
  have hkeys : ((f.bind scope).1.tops next).map key = (f.tops next).map key := by
    rw [← List.filterMap_eq_map]
    refine filterMap_tops_bind (fun id _ _ hform => ?_) ..
    exact congrArg (fun name => some (id, name)) hform.name
  have hfirst : ((f.tops next).map key).find? (fun q => q.2.sameBase name) =
      some (target, c.name) := by
    rw [List.find?_map]
    exact congrArg (Option.map key) h
  rw [← hkeys, List.find?_map] at hfirst
  obtain ⟨⟨found, d⟩, hbound, hkey⟩ := Option.map_eq_some_iff.1 hfirst
  obtain ⟨rfl, -⟩ := Prod.mk.inj hkey
  exact ⟨d, hbound⟩

/-- A site without tags changes nothing of its context. -/
theorem bind_bare {site : Site} (hbare : site.tags = []) (scope : BindingScope) (c : Context)
    (inside rest : DocForest) : (node site (some c) inside rest).bind scope =
      (node site (some c) (inside.bind scope).1 (rest.bind scope).1,
        ({ now := site.reports } : Reports) ++ (inside.bind scope).2 ++ {}
          ++ (rest.bind scope).2) := by
  rw [bind_some, hbare]
  rfl

theorem rows_bind_bare {site : Site} (hbare : site.tags = []) (scope : BindingScope) (c : Context)
    (inside : DocForest) (parent : Option Nat) (next : Nat) :
    let bound := (inside.bind scope).1
    ((node site (some c) inside nil).bind scope).1.rows parent next =
      c.row parent (bound.topIds (next + 1)) :: bound.rows (some next) (next + 1) := by
  intro bound
  rw [bind_bare hbare, rows]
  exact congrArg (_ :: ·) (List.append_nil _)

/-! ### One site more with a tag -/

/-- A site without a context, and those after it, with their tags bound. -/
theorem bind_none (scope : BindingScope) (site : Site) (inside rest : DocForest) :
    (node site none inside rest).bind scope =
      (node site none (inside.bind scope).1 (rest.bind scope).1,
        ({ now := site.reports } : Reports) ++ (inside.bind scope).2 ++ (rest.bind scope).2) :=
  rfl

namespace Differ

variable {site other : Site} {c : Context} {inside f g : DocForest} {id next : Nat}

theorem tops_eq (h : Differ site other c inside id next f g) (first : Nat) :
    g.tops first = f.tops first := by
  induction h generalizing first with
  | here rest => rfl
  | later _ _ _ _ ih => rw [tops, tops, ih]

theorem contextCount_eq (h : Differ site other c inside id next f g) :
    g.contextCount = f.contextCount := by
  induction h with
  | here rest => rfl
  | later _ _ _ _ ih => rw [contextCount, contextCount, ih]

theorem exceptions_eq (h : Differ site other c inside id next f g) (first : Nat) :
    g.exceptions first = f.exceptions first := by
  induction h generalizing first with
  | here rest => rfl
  | later _ context _ _ ih =>
    cases context with
    | none => rw [exceptions, exceptions, ih]
    | some c => rw [exceptions_some, exceptions_some, ih]

/-- The sites have the same numbers and the same contexts. -/
theorem entries_eq (h : Differ site other c inside id next f g) (hnode : other.node = site.node)
    (statement : Nat) : (g.records statement next).map CommentRecord.entry =
      (f.records statement next).map CommentRecord.entry := by
  induction h with
  | here rest =>
    have hentry (context : Option Nat) : CommentRecord.entry { statement, site := other, context } =
        CommentRecord.entry { statement, site, context } :=
      congrArg (fun node => (statement, node, context)) hnode
    rw [records, records, List.map_cons, List.map_cons, hentry]
  | later _ _ _ _ ih =>
    rw [records, records, List.map_cons, List.map_cons, List.map_append, List.map_append]
    exact congrArg (fun later => _ :: (_ ++ later)) ih

/-- The records of what is inside the context are among those of the forest. -/
theorem mem_records (h : Differ site other c inside id next f g) {statement : Nat}
    {r : CommentRecord} (hr : r ∈ inside.records statement (id + 1)) :
    r ∈ f.records statement next := by
  induction h with
  | here rest => exact List.mem_cons_of_mem _ (List.mem_append_left _ hr)
  | later _ _ _ _ ih => exact List.mem_cons_of_mem _ (List.mem_append_right _ ih)

/-- The rows are the same before those of the context of the site and after those inside it. -/
theorem exists_rows (h : Differ site other c inside id next f g) (scope : BindingScope)
    (parent : Option Nat) :
    let rowsOf (site : Site) := ((node site (some c) inside nil).bind scope).1.rows parent id
    ∃ before after, next + before.length = id ∧
      (f.bind scope).1.rows parent next = before ++ rowsOf site ++ after ∧
      (g.bind scope).1.rows parent next = before ++ rowsOf other ++ after := by
  intro rowsOf
  induction h with
  | here rest => exact ⟨[], _, rfl, rows_bind_node .., rows_bind_node ..⟩
  | @later next f g first context within _ ih =>
    obtain ⟨before, after, hid, hf, hg⟩ := ih
    let head := node first context within nil
    let heads := (head.bind scope).1.rows parent next
    have hcount : next + head.contextCount =
        next + context.toList.length + within.contextCount := by
      rw [contextCount, contextCount, Nat.add_zero, Nat.add_assoc]
    have hlength : heads.length = head.contextCount := by
      rw [length_rows, contextCount_bind]
    refine ⟨heads ++ before, after, ?_, ?_, ?_⟩
    · rw [List.length_append, hlength]
      omega
    · rw [rows_bind_node, hcount, hf]
      simp only [heads, head, List.append_assoc]
    · rw [rows_bind_node, hcount, hg]
      simp only [heads, head, List.append_assoc]

end Differ

theorem modifyFirst_congr {p : Context → Bool} {g k : Context → Context} {f : DocForest}
    (h : ∀ c ∈ f.topContexts, g c = k c) : f.modifyFirst p g = f.modifyFirst p k := by
  induction f with
  | nil => rfl
  | node site context inside rest _ ih =>
    obtain ⟨hcontext, hrest⟩ := List.forall_mem_append.1 h
    cases context with
    | none => rw [modifyFirst, modifyFirst, ih hrest]
    | some c => rw [modifyFirst, modifyFirst, ih hrest, hcontext c List.mem_cons_self]

/-- The second site has one tag, which names the parameter with number `target` and says what it is
for. The first has none. -/
structure Describes (scope : BindingScope) (site other : Site) (c : Context) (inside : DocForest)
    (id : Nat) (name : Name) (text : String) (target : Nat) : Prop where
  isMethod : ∃ returns signature modifiers, c.detail = .method returns signature modifiers
  isOther : c.kind ≠ .objectType
  bare : site.tags = []
  tag : ∃ t, other = { site with tags := [t] } ∧ t.body = .param (some name) none none false ∧
    t.text = text
  notEmpty : text ≠ ""
  fresh : ∀ d ∈ (inside.bind scope).1.topContexts, d.IsFresh
  target : ∃ p, ((inside.bind scope).1.tops (id + 1)).find? (fun q => q.2.name.sameBase name) =
    some (target, p)

namespace Describes

variable {scope : BindingScope} {site other : Site} {c : Context} {inside f g : DocForest}
  {id next target : Nat} {name : Name} {text : String}
  (h : Describes scope site other c inside id name text target)

include h

theorem bindTags_other : bindTags scope c (inside.bind scope).1.topContexts other.tags =
    { owner := c, named := [name.display], docs := [.describing name text] } := by
  obtain ⟨t, rfl, hbody, rfl⟩ := h.tag
  obtain ⟨returns, signature, modifiers, hdetail⟩ := h.isMethod
  obtain ⟨p, hfind⟩ := h.target
  have htargets : c.paramTargets? (inside.bind scope).1.topContexts =
      some { noun := "parameter", names := (inside.bind scope).1.topContexts.map (·.name) } := by
    rw [Context.paramTargets?, hdetail]
  refine bindTags_describing htargets ?_ hbody scope
  rw [List.any_map, ← map_snd_tops _ (id + 1), List.any_map]
  exact List.any_eq_true.2 ⟨_, List.mem_of_find?_eq_some hfind, List.find?_some hfind⟩

theorem describeInside_eq :
    ({ owner := c, named := [name.display], docs := [.describing name text] } :
      Binding).describeInside c (inside.bind scope).1 =
      (inside.bind scope).1.modifyFirst (fun d => d.name.sameBase name)
        (.withDescription text) := by
  let doc := ParamDoc.describing name text
  have hany : (fun d : Context => isTargetOf c d && d.name.sameBase doc.name) =
      fun d => d.name.sameBase name := by
    funext d
    rw [isTargetOf_other h.isOther, Bool.true_and]
    rfl
  rw [Binding.describeInside, List.foldl_cons, List.foldl_nil, describe_eq, hany]
  exact modifyFirst_congr fun d hd => ParamDoc.apply_describing (h.fresh d hd) name h.notEmpty

/-- Where the second site is, one of the parameters is told. -/
theorem bind_other (rest : DocForest) : (node other (some c) inside rest).bind scope =
    (node other (some c) ((inside.bind scope).1.modifyFirst (fun d => d.name.sameBase name)
        (.withDescription text)) (rest.bind scope).1,
      ({ now := site.reports } : Reports) ++ (inside.bind scope).2 ++ {}
        ++ (rest.bind scope).2) := by
  obtain ⟨t, hother, -, -⟩ := h.tag
  have hreports : other.reports = site.reports := by rw [hother]
  rw [bind_some, h.bindTags_other]
  dsimp only
  rw [h.describeInside_eq, hreports]

/-- The tag is not reported. -/
theorem bind_reports (hd : Differ site other c inside id next f g) :
    (g.bind scope).2 = (f.bind scope).2 := by
  induction hd with
  | here rest => rw [h.bind_other, bind_bare h.bare]
  | later first context within _ ih =>
    cases context with
    | none => rw [bind_none, bind_none, ih]
    | some d => rw [bind_some, bind_some, ih]

/-- One description is changed. -/
theorem modify_rows (hd : Differ site other c inside id next f g) (parent : Option Nat)
    {before : List ContextRow} (hbefore : before.length = next) (after : List ContextRow) :
    (before ++ (f.bind scope).1.rows parent next ++ after).modify target
        (·.modifyContext (.withDescription text)) =
      before ++ (g.bind scope).1.rows parent next ++ after := by
  obtain ⟨p, hfind⟩ := h.target
  obtain ⟨pre, post, hid, hf, hg⟩ := hd.exists_rows scope parent
  let bound := (inside.bind scope).1
  let told := bound.modifyFirst (fun d => d.name.sameBase name) (.withDescription text)
  let head := c.row parent (bound.topIds (id + 1))
  have hsite : ((node site (some c) inside nil).bind scope).1.rows parent id =
      head :: bound.rows (some id) (id + 1) := rows_bind_bare h.bare ..
  have hother : ((node other (some c) inside nil).bind scope).1.rows parent id =
      head :: told.rows (some id) (id + 1) := by
    rw [h.bind_other, rows, topIds_modifyFirst]
    exact congrArg (head :: ·) (List.append_nil _)
  have hhead : (before ++ pre ++ [head]).length = id + 1 := by
    simp [hbefore]
    omega
  have hinside : (before ++ pre ++ [head] ++
      (bound.rows (some id) (id + 1)).map fun row => row).modify
        target (·.modifyContext (.withDescription text)) =
        before ++ pre ++ [head] ++ (told.rows (some id) (id + 1)).map fun row => row :=
    rows_modifyFirst (fun _ _ _ => rfl) (fun _ => rfl) hhead hfind
  have htarget : target < (before ++ pre ++ [head] ++ bound.rows (some id) (id + 1)).length := by
    obtain ⟨row, hrow, -⟩ :=
      getElem?_rows_tops hhead (List.mem_of_find?_eq_some hfind) fun row => row
    rw [List.map_id'] at hrow
    exact (List.getElem?_eq_some_iff.1 hrow).1
  rw [List.map_id', List.map_id'] at hinside
  have hfirst : before ++ (f.bind scope).1.rows parent next ++ after =
      before ++ pre ++ [head] ++ bound.rows (some id) (id + 1) ++ (post ++ after) := by
    rw [hf]
    simp [hsite]
  have hsecond : before ++ (g.bind scope).1.rows parent next ++ after =
      before ++ pre ++ [head] ++ told.rows (some id) (id + 1) ++ (post ++ after) := by
    rw [hg]
    simp [hother]
  rw [hfirst, hsecond, modify_append_of_lt htarget, hinside]

end Describes

/-! ### Packages -/

/-- Where tags are about no parameters, what is inside stays as it is. -/
theorem bind_unit {c : Context} (hc : ∀ inside, c.paramTargets? inside = none)
    (scope : BindingScope) (site : Site) (inside rest : DocForest) :
    (node site (some c) inside rest).bind scope =
      let bound := bindTags scope c [] site.tags
      (node site (some bound.owner) (inside.bind scope).1 (rest.bind scope).1,
        ({ now := site.reports } : Reports) ++ (inside.bind scope).2 ++ bound.reports
          ++ (rest.bind scope).2) := by
  have hbound : bindTags scope c (inside.bind scope).1.topContexts site.tags =
      bindTags scope c [] site.tags := by
    unfold bindTags
    rw [hc, hc]
  have hinside (f : DocForest) : (bindTags scope c [] site.tags).describeInside c f = f := by
    rw [Binding.describeInside, docs_bindTags (hc [])]
    rfl
  rw [bind_some, hbound]
  dsimp only
  rw [hinside]

section Unit

variable {site other around : Site} {c unit : Context} {inside f g : DocForest} {id next : Nat}

/-- The sites of a unit have the same numbers and contexts, if those inside it have. -/
theorem Differ.entries_unit (hd : Differ site other c inside id (next + 1) f g)
    (hnode : other.node = site.node) (statement : Nat) :
    ((node around (some unit) g nil).records statement next).map CommentRecord.entry =
      ((node around (some unit) f nil).records statement next).map CommentRecord.entry := by
  simp only [records, List.append_nil, List.map_cons]
  exact congrArg (_ :: ·) (hd.entries_eq hnode statement)

variable {scope : BindingScope} {name : Name} {text : String} {target : Nat}
  (hunit : ∀ inside, unit.paramTargets? inside = none)
  (h : Describes scope site other c inside id name text target)
  (hd : Differ site other c inside id (next + 1) f g)

include hunit h hd

theorem Describes.bind_reports_unit :
    ((node around (some unit) g nil).bind scope).2 =
      ((node around (some unit) f nil).bind scope).2 := by
  rw [bind_unit hunit, bind_unit hunit, h.bind_reports hd]

/-- The description is changed in the rows of the unit, too. -/
theorem Describes.modify_rows_unit {before : List ContextRow} (hbefore : before.length = next)
    (after : List ContextRow) :
    (before ++ ((node around (some unit) f nil).bind scope).1.rows none next ++ after).modify target
        (·.modifyContext (.withDescription text)) =
      before ++ ((node around (some unit) g nil).bind scope).1.rows none next ++ after := by
  let owner := (bindTags scope unit [] around.tags).owner
  let head := owner.row none (f.topIds (next + 1))
  have hrows (k : DocForest) (hk : k.topIds (next + 1) = f.topIds (next + 1)) :
      before ++ ((node around (some unit) k nil).bind scope).1.rows none next ++ after =
        before ++ [head] ++ (k.bind scope).1.rows (some next) (next + 1) ++ after := by
    rw [bind_unit hunit, rows, topIds_bind, hk]
    simp [head, owner, rows, bind]
  have htops : g.topIds (next + 1) = f.topIds (next + 1) := by
    rw [topIds, topIds, hd.tops_eq]
  have hhead : (before ++ [head]).length = next + 1 := by
    rw [List.length_append, hbefore]
    rfl
  rw [hrows f rfl, hrows g htops]
  exact h.modify_rows hd (some next) hhead after

end Unit

end DocForest

theorem paramTargets?_package (t : SyntaxTree) (inside : List Context) :
    (unitContext .package t).paramTargets? inside = none :=
  rfl

end SqlDoc

/-
# What contexts raise

When the tags of a statement are bound every context raises what the named `@throws` tags in front
of it say, one exception for each, in their order (`allSites_bind`). The statements of a file follow
one another in its table, each with its rows and its records, so the context that a record names
raises what the tags of the record say (`throws_context`).

Key definitions: `throwsDocs`, `DocForest.AllSites`, `ContextTable.contextAt?`,
`ContextTable.Holds`.
Key theorems: `allSites_bind`, `holds_resolveAll`, `throws_context`, `exists_exceptionContext`,
`exists_exception`.
-/
import Mathlib.Data.List.Nodup
import SqlDoc.Proofs.Context.Declared
import SqlDoc.Proofs.Context.Paths

namespace SqlDoc

/-! ### Tags and what they raise -/

/-- What a named `@throws` tag says in a unit. -/
def Tag.throwsDoc? (exceptions : List DeclaredException) (t : Tag) : Option ThrowsDoc :=
  match t.body with
  | .throws (some name) =>
    some { name, description := t.text, target := throwsTarget exceptions name }
  | _ => none

/-- What the named `@throws` tags say in a unit, one after the other. -/
def throwsDocs (exceptions : List DeclaredException) (tags : List Tag) : List ThrowsDoc :=
  tags.filterMap (Tag.throwsDoc? exceptions)

theorem map_doc_pendingThrows (exceptions : List DeclaredException) (id : Nat) (tags : List Tag) :
    (tags.flatMap (Tag.pendingThrows id)).map (PendingThrows.doc exceptions) =
      throwsDocs exceptions tags := by
  induction tags with
  | nil => rfl
  | cons t tags ih =>
    have hfirst : (t.pendingThrows id).map (PendingThrows.doc exceptions) =
        (t.throwsDoc? exceptions).toList := by
      unfold Tag.pendingThrows Tag.throwsDoc?
      cases t.body with
      | throws name => cases name <;> rfl
      | _ => rfl
    rw [List.flatMap_cons, List.map_append, ih, hfirst, throwsDocs, throwsDocs,
      List.filterMap_cons]
    cases t.throwsDoc? exceptions <;> rfl

theorem throwsDocs_congr {exceptions others : List DeclaredException}
    (h : ∀ name, throwsTarget exceptions name = throwsTarget others name)
    (tags : List Tag) : throwsDocs exceptions tags = throwsDocs others tags := by
  have hdoc : Tag.throwsDoc? exceptions = Tag.throwsDoc? others := by
    funext t
    simp only [Tag.throwsDoc?, h]
  rw [throwsDocs, hdoc, throwsDocs]

/-! ### Sites and their contexts -/

namespace DocForest

/-- All contexts have the property, each with its site. -/
def AllSites (p : Site → Context → Prop) : DocForest → Prop
  | nil => True
  | node site context inside rest =>
    (∀ c ∈ context, p site c) ∧ inside.AllSites p ∧ rest.AllSites p

variable {p : Site → Context → Prop} {f : DocForest}

theorem AllSites.modifyFirst {q : Context → Bool} {g : Context → Context}
    (hg : ∀ site c, p site c → p site (g c)) (hf : f.AllSites p) :
    (f.modifyFirst q g).AllSites p := by
  induction f with
  | nil => trivial
  | node site context inside rest _ ih =>
    obtain ⟨hcontext, hinside, hrest⟩ := hf
    cases context with
    | none => exact ⟨hcontext, hinside, ih hrest⟩
    | some c =>
      unfold DocForest.modifyFirst
      split
      · exact ⟨fun d hd => Option.some.inj hd ▸ hg site c (hcontext c rfl), hinside, hrest⟩
      · exact ⟨hcontext, hinside, ih hrest⟩

/-- When the tags are bound every context raises what its tags say. -/
theorem allSites_bind (hf : f.All (·.throws = [])) (scope : BindingScope) :
    (f.bind scope).1.AllSites fun site c =>
      c.throws = throwsDocs scope.exceptions site.tags := by
  have hdescribe (b : Binding) (c : Context) {f : DocForest}
      (hf : f.AllSites fun site c => c.throws = throwsDocs scope.exceptions site.tags) :
      (b.describeInside c f).AllSites fun site c =>
        c.throws = throwsDocs scope.exceptions site.tags :=
    b.describeInside_induction
      (fun _ doc _ hf => hf.modifyFirst fun _ c h => (doc.throws_apply c).trans h) c hf
  induction f with
  | nil => trivial
  | node site context inside rest ihinside ihrest =>
    obtain ⟨hcontext, hinside, hrest⟩ := hf
    cases context with
    | none => exact ⟨fun c hc => absurd hc (Option.not_mem_none c), ihinside hinside, ihrest hrest⟩
    | some c =>
      rw [bind_some]
      refine ⟨fun d hd => ?_, hdescribe _ _ (ihinside hinside), ihrest hrest⟩
      have hthrows := (Binding.throws_bindTags scope c (inside.bind scope).1.topContexts site.tags
        0).1
      rw [hcontext c rfl, List.nil_append, map_doc_pendingThrows] at hthrows
      rw [← Option.some.inj hd]
      exact hthrows

/-- The context that a record names is in the row with that number. -/
theorem AllSites.exists_row (hf : f.AllSites p)
    (hparent : ∀ site c parent, p site c → p site { c with parent }) (parent : Option Nat)
    (before : List ContextRow) {statement next : Nat} (hbefore : before.length = next)
    {r : CommentRecord} (hr : r ∈ f.records statement next) {id : Nat} (hid : r.context = some id) :
    ∃ row, (before ++ f.rows parent next)[id]? = some row ∧ p r.site row.context := by
  induction f generalizing parent before next with
  | nil => cases hr
  | node site context inside rest ihinside ihrest =>
    obtain ⟨hcontext, hinside, hrest⟩ := hf
    cases context with
    | none =>
      rw [rows, ← List.append_assoc]
      rcases List.mem_cons.1 hr with rfl | hr
      · cases hid
      · rcases List.mem_append.1 hr with hr | hr
        · obtain ⟨row, hrow, h⟩ := ihinside hinside parent before hbefore hr
          exact ⟨row, List.getElem?_append_left (List.getElem?_eq_some_iff.1 hrow).1 ▸ hrow, h⟩
        · exact ihrest hrest parent _ (by simp [hbefore]) hr
    | some c =>
      have hsplit : before ++ (node site (some c) inside rest).rows parent next =
          before ++ [c.row parent (inside.topIds (next + 1))] ++
            inside.rows (some next) (next + 1) ++
              rest.rows parent (next + 1 + inside.contextCount) := by
        rw [rows]
        simp
      rw [hsplit]
      rcases List.mem_cons.1 hr with rfl | hr
      · cases hid
        refine ⟨c.row parent (inside.topIds (next + 1)), ?_, hparent _ _ _ (hcontext c rfl)⟩
        simp [← hbefore]
      · rcases List.mem_append.1 hr with hr | hr
        · obtain ⟨row, hrow, h⟩ := ihinside hinside (some next)
            (before ++ [c.row parent (inside.topIds (next + 1))]) (by simp [hbefore]) hr
          exact ⟨row, List.getElem?_append_left (List.getElem?_eq_some_iff.1 hrow).1 ▸ hrow, h⟩
        · exact ihrest hrest parent _ (by simp [hbefore]; omega) hr

theorem statement_of_mem_records {f : DocForest} {statement next : Nat} {r : CommentRecord}
    (hr : r ∈ f.records statement next) : r.statement = statement := by
  have hmem := List.mem_map_of_mem (f := fun c : CommentRecord => (c.statement, c.site)) hr
  rw [map_site_records] at hmem
  obtain ⟨_, _, heq⟩ := List.mem_map.1 hmem
  exact (congrArg Prod.fst heq).symm

theorem nodup_node_records {t : SyntaxTree} (ht : t.Fits) (statement next : Nat) :
    (((ofStatement t).records statement next).map (·.site.node)).Nodup := by
  have hnodes : ((ofStatement t).records statement next).map (·.site.node) =
      (t.sites NodeKind.isRecorded).map (·.node) := by
    have hsites := congrArg (List.map (·.2.node))
      (map_site_records (ofStatement t) statement next)
    rw [List.map_map, List.map_map, sites_ofStatement ht] at hsites
    exact hsites
  have hsorted := pairwise_sitesOf NodeKind.isRecorded 0 [t]
  rw [sitesOf, sitesOf, List.append_nil, List.pairwise_map] at hsorted
  rw [hnodes]
  refine List.pairwise_map.2 (hsorted.imp fun h => ?_)
  exact h.elim (fun h => absurd h (Nat.lt_irrefl _)) fun h => Nat.ne_of_lt h.2

end DocForest

/-! ### Statements of a file -/

/-- The number of the first context of a statement, if that of the first statement is `next`. -/
def firstContext (next : Nat) : List SyntaxTree → Nat → Nat
  | t :: more, k + 1 => firstContext (next + (DocForest.ofStatement t).contextCount) more k
  | _, _ => next

theorem statement_of_mem_comments {warnOrphans : Bool} {statement next : Nat}
    {trees : List SyntaxTree} {r : CommentRecord}
    (hr : r ∈ (resolveFrom warnOrphans statement next trees).1.comments) :
    ∃ k t, trees[k]? = some t ∧ r.statement = statement + k := by
  induction trees generalizing statement next with
  | nil => cases hr
  | cons t more ih =>
    rcases List.mem_append.1 hr with hr | hr
    · exact ⟨0, t, rfl, DocForest.statement_of_mem_records hr⟩
    · obtain ⟨k, s, hs, hstatement⟩ := ih hr
      exact ⟨k + 1, s, hs, by omega⟩

/-- A statement has its rows and its records in those of the file. -/
theorem exists_statement (warnOrphans : Bool) {trees : List SyntaxTree} {k : Nat} {t : SyntaxTree}
    (ht : trees[k]? = some t) (statement next : Nat) :
    let n := firstContext next trees k
    let comments := (resolveFrom warnOrphans statement next trees).1.comments
    (∃ before after, next + before.length = n ∧ statementRows id warnOrphans next trees =
      before ++ (resolveStatement warnOrphans n t).1.rows none n ++ after) ∧
    comments.filter (·.statement = statement + k) =
      (DocForest.ofStatement t).records (statement + k) n := by
  induction trees generalizing statement next k with
  | nil => cases ht
  | cons s more ih =>
    let first := (resolveStatement warnOrphans next s).1
    have hcount : first.contextCount = (DocForest.ofStatement s).contextCount :=
      contextCount_resolveStatement ..
    have hcomments : (resolveFrom warnOrphans statement next (s :: more)).1.comments =
        (DocForest.ofStatement s).records statement next ++
          (resolveFrom warnOrphans (statement + 1) (next + first.contextCount) more).1.comments :=
      congrArg (· ++ _) (DocForest.records_bind ..)
    cases k with
    | zero =>
      cases ht
      refine ⟨⟨[], _, rfl, by rw [statementRows, ite_self, List.map_id]; rfl⟩, ?_⟩
      have hlater : ∀ r ∈
          (resolveFrom warnOrphans (statement + 1) (next + first.contextCount) more).1.comments,
          ¬decide (r.statement = statement + 0) := by
        intro r hr
        obtain ⟨k, _, _, hk⟩ := statement_of_mem_comments hr
        simp only [decide_eq_true_eq]
        omega
      rw [hcomments, List.filter_append, List.filter_eq_nil_iff.2 hlater, List.append_nil]
      exact List.filter_eq_self.2 fun r hr =>
        decide_eq_true (DocForest.statement_of_mem_records hr)
    | succ k =>
      obtain ⟨⟨before, after, hbefore, hrows⟩, hmore⟩ :=
        ih (k := k) ht (statement + 1) (next + first.contextCount)
      have hnumber : firstContext next (s :: more) (k + 1) =
          firstContext (next + first.contextCount) more k := by
        rw [firstContext, hcount]
      have hearlier : ∀ r ∈ (DocForest.ofStatement s).records statement next,
          ¬decide (r.statement = statement + (k + 1)) := by
        intro r hr
        have := DocForest.statement_of_mem_records hr
        simp only [decide_eq_true_eq]
        omega
      rw [hnumber]
      refine ⟨⟨first.rows none next ++ before, after, ?_, ?_⟩, ?_⟩
      · rw [List.length_append, DocForest.length_rows, ← Nat.add_assoc, hbefore]
      · rw [statementRows, ite_self, List.map_id, hrows]
        simp only [List.append_assoc, first]
      · rw [hcomments, List.filter_append, List.filter_eq_nil_iff.2 hearlier, List.nil_append]
        rw [Nat.add_assoc, Nat.add_comm 1] at hmore
        exact hmore

/-- The number of the context of a node, if it has one. -/
def ContextTable.contextAt? (table : ContextTable) (statement node : Nat) : Option Nat :=
  ((table.comments.filter (·.statement = statement)).find? (·.site.node = node)).bind (·.context)

/-- The table has the rows and the records of a statement whose first context has number `next`. -/
structure ContextTable.Holds (table : ContextTable) (warnOrphans : Bool) (statement next : Nat)
    (t : SyntaxTree) : Prop where
  rows : ∃ before after, before.length = next ∧
    table.rows = before ++ (resolveStatement warnOrphans next t).1.rows none next ++ after
  comments : table.comments.filter (·.statement = statement) =
    (DocForest.ofStatement t).records statement next

/-- The table of a file holds its statements. -/
theorem holds_resolveAll {trees : List SyntaxTree} (htrees : ∀ t ∈ trees, t.Fits)
    (warnOrphans : Bool) {k : Nat} {t : SyntaxTree} (ht : trees[k]? = some t) :
    (resolveAll trees warnOrphans).1.Holds warnOrphans k (firstContext 0 trees k) t := by
  obtain ⟨⟨before, after, hbefore, hrows⟩, hcomments⟩ := exists_statement warnOrphans ht 0 0
  rw [Nat.zero_add] at hbefore hcomments
  rw [resolveAll_eq htrees warnOrphans]
  exact ⟨⟨before, after, hbefore, hrows⟩, hcomments⟩

namespace ContextTable.Holds

variable {table : ContextTable} {warnOrphans : Bool} {statement next : Nat} {t : SyntaxTree}

theorem contextAt?_eq (h : table.Holds warnOrphans statement next t) (ht : t.Fits)
    {r : CommentRecord} (hr : r ∈ (DocForest.ofStatement t).records statement next) :
    table.contextAt? statement r.site.node = r.context := by
  have hfind : ((DocForest.ofStatement t).records statement next).find?
      (·.site.node = r.site.node) = some r := by
    cases hfound : ((DocForest.ofStatement t).records statement next).find?
        (·.site.node = r.site.node) with
    | none => exact absurd (decide_eq_true rfl) (List.find?_eq_none.1 hfound r hr)
    | some q =>
      have hnode : q.site.node = r.site.node := by simpa using List.find?_some hfound
      exact congrArg some (List.inj_on_of_nodup_map (DocForest.nodup_node_records ht ..)
        (List.mem_of_find?_eq_some hfound) hr hnode)
  rw [contextAt?, h.comments, hfind, Option.bind_some]

theorem throws_context (h : table.Holds warnOrphans statement next t) {r : CommentRecord}
    (hr : r ∈ table.comments) (hstatement : r.statement = statement) {number : Nat}
    (hnumber : r.context = some number) : (table.context? number).map (·.throws) =
      some (throwsDocs (statementScope warnOrphans next t).exceptions r.site.tags) := by
  obtain ⟨before, after, hbefore, hrows⟩ := h.rows
  rw [fst_resolveStatement] at hrows
  let scope := statementScope warnOrphans next t
  have hrecord : r ∈ ((DocForest.ofStatement t).bind scope).1.records statement next := by
    rw [DocForest.records_bind, ← h.comments]
    exact List.mem_filter.2 ⟨hr, decide_eq_true hstatement⟩
  obtain ⟨row, hrow, hthrows⟩ :=
    (DocForest.allSites_bind (DocForest.throws_ofStatement t) scope).exists_row
      (fun _ _ _ h => h) none before hbefore hrecord hnumber
  rw [context?, hrows, List.getElem?_append_left (List.getElem?_eq_some_iff.1 hrow).1, hrow,
    ← hthrows]
  rfl

end ContextTable.Holds

/-! ### Exceptions of a unit -/

namespace DocForest

/-- An exception has a record, and the context of the record is one at the top. It has the codes of
its name unless `seen` or an exception before it has the name. -/
theorem exists_exceptionContext {e : SyntaxTree} (hkind : e.kind = .exceptionDecl) (node : Nat)
    (before after : List (Nat × SyntaxTree)) (bindings : List (Name × String)) (ids : OverloadIds)
    (seen : List String) (statement next : Nat) :
    let f := ofMembers bindings ids seen (before ++ (node, e) :: after)
    let name := e.nameOrEmpty.last
    ∃ r ∈ f.records statement next, r.site.node = node ∧ ∃ id codes, r.context = some id ∧
      (id, exceptionContext codes e) ∈ f.tops next ∧
      (codes = boundCodes bindings name ∨ name ∈ seen ∨
        ∃ q ∈ before, q.2.kind = .exceptionDecl ∧ q.2.nameOrEmpty.last = name) := by
  intro f name
  obtain ⟨ids', seen', next', -, hseen, hrecords, htops⟩ :=
    exists_ofMembers_append bindings ids seen before ((node, e) :: after) statement next
  rw [ofMembers, hkind] at hrecords htops
  refine ⟨_, hrecords List.mem_cons_self, rfl, next', _, rfl, htops List.mem_cons_self, ?_⟩
  split
  · exact .inr (hseen name (List.contains_iff_mem.1 ‹_›))
  · exact .inl rfl

end DocForest

namespace ContextTable.Holds

variable {table : ContextTable} {warnOrphans : Bool} {statement n : Nat} {t : SyntaxTree}

/-- The context that the record of a member names is in the table. What tags leave of every context
they leave of this one. -/
theorem exists_context (h : table.Holds warnOrphans statement n t) (ht : t.Fits)
    (hunit : endsUnit t.kind) {r : CommentRecord}
    (hr : r ∈ (DocForest.ofUnit t).records statement (n + 1)) {number : Nat} {c : Context}
    (hid : r.context = some number) (hc : (number, c) ∈ (DocForest.ofUnit t).tops (n + 1))
    {β : Type} (part : Context → β) (hpart : ∀ c d, SameForm c d → part d = part c)
    (hparent : ∀ c parent, part { c with parent } = part c) :
    ∃ d, table.contextAt? statement r.site.node = some number ∧ table.context? number = some d ∧
      part d = part c := by
  obtain ⟨before, after, hbefore, hrows⟩ := h.rows
  obtain ⟨unit, hf⟩ := DocForest.ofStatement_unit hunit
  let scope := statementScope warnOrphans n t
  let inside := DocForest.ofUnit t
  have hrecord : r ∈ (DocForest.ofStatement t).records statement n :=
    hf ▸ List.mem_cons_of_mem _ (List.mem_append_left _ hr)
  have hnumber : table.contextAt? statement r.site.node = some number := by
    rw [h.contextAt?_eq ht hrecord, hid]
  -- the tags of the unit and those of its members are bound one after the other
  let owner := unitContext unit t
  let bound := bindTags scope owner (inside.bind scope).1.topContexts (Site.ofTree 0 t).tags
  let f := bound.describeInside owner (inside.bind scope).1
  obtain ⟨d, hd, hsame⟩ : ∃ d, (number, d) ∈ f.tops (n + 1) ∧ part d = part c := by
    let key (q : Nat × Context) : Option (Nat × β) := some (q.1, part q.2)
    have hkey (id : Nat) (c d : Context) (h : SameForm c d) : key (id, d) = key (id, c) := by
      show some (id, part d) = some (id, part c)
      rw [hpart c d h]
    have hsame : (f.tops (n + 1)).filterMap key = (inside.tops (n + 1)).filterMap key := by
      rw [DocForest.filterMap_tops_describeInside hkey, DocForest.filterMap_tops_bind hkey]
    have hmem : (number, part c) ∈ (f.tops (n + 1)).filterMap key := by
      rw [hsame]
      exact List.mem_filterMap.2 ⟨(number, c), hc, rfl⟩
    obtain ⟨⟨other, d⟩, hd, heq⟩ := List.mem_filterMap.1 hmem
    obtain ⟨rfl, hsame⟩ := Prod.mk.inj (Option.some.inj heq)
    exact ⟨d, hd, hsame⟩
  have hstatement : (resolveStatement warnOrphans n t).1 =
      .node (.ofTree 0 t) (some bound.owner) f .nil := by
    rw [fst_resolveStatement, hf, DocForest.bind_some]
    rfl
  have hlength : (before ++ [bound.owner.row none (f.topIds (n + 1))]).length = n + 1 := by
    simp [hbefore]
  obtain ⟨row, hrow, hcontext⟩ :
      ∃ row, (before ++ [bound.owner.row none (f.topIds (n + 1))] ++
        (f.rows (some n) (n + 1)).map id)[number]? = some row ∧
          row.context = { d with parent := some n } :=
    DocForest.getElem?_rows_tops hlength hd id
  have hsplit : table.rows = before ++ [bound.owner.row none (f.topIds (n + 1))] ++
      (f.rows (some n) (n + 1)).map id ++ after := by
    rw [hrows, hstatement, DocForest.rows, DocForest.rows, List.map_id, List.append_nil]
    simp
  have hfound : table.context? number = some row.context := by
    rw [ContextTable.context?, hsplit,
      List.getElem?_append_left (List.getElem?_eq_some_iff.1 hrow).1, hrow]
    rfl
  refine ⟨row.context, hnumber, hfound, ?_⟩
  rw [hcontext, hparent, hsame]

/-- The context of an exception that a unit declares is in the table, with its name. The first of a
name has the codes that the pragmas of the unit bind to the name. -/
theorem exists_exceptionContext (h : table.Holds warnOrphans statement n t) (ht : t.Fits)
    (hunit : endsUnit t.kind) {node : Nat} {e : SyntaxTree} {before after : List (Nat × SyntaxTree)}
    (hmembers : t.numberedChildren 0 = before ++ (node, e) :: after)
    (hkind : e.kind = .exceptionDecl) :
    ∃ number c, table.contextAt? statement node = some number ∧ table.context? number = some c ∧
      c.kind = .exceptionDecl ∧ c.name = e.nameOrEmpty ∧
      ((∀ q ∈ before, q.2.kind = .exceptionDecl → q.2.nameOrEmpty.last ≠ e.nameOrEmpty.last) →
        c.codes? =
          some (boundCodes (t.children.filterMap codeBinding?) e.nameOrEmpty.last)) := by
  obtain ⟨r, hr, rfl, number, codes, hid, hc, hcodes⟩ := DocForest.exists_exceptionContext hkind
    node before after (t.children.filterMap codeBinding?) .empty [] statement (n + 1)
  rw [← hmembers] at hr hc
  obtain ⟨d, hnumber, hd, hsame⟩ := h.exists_context ht hunit hr hid hc
    (fun c => (c.kind, c.name, c.codes?))
    (fun c d hform => by rw [hform.kind, hform.name, hform.codes]) fun _ _ => rfl
  obtain ⟨hdkind, hsame⟩ := Prod.mk.inj hsame
  obtain ⟨hname, hdcodes⟩ := Prod.mk.inj hsame
  refine ⟨number, d, hnumber, hd, hdkind, hname, fun hfirst => ?_⟩
  rcases hcodes with rfl | hseen | ⟨q, hq, hexception, hsame⟩
  · exact hdcodes
  · cases hseen
  · exact absurd hsame (hfirst q hq hexception)

/-- The context of an exception that a unit declares is in the table, with its name. -/
theorem exists_exception (h : table.Holds warnOrphans statement n t) (ht : t.Fits)
    (hunit : endsUnit t.kind) {node : Nat} {e : SyntaxTree}
    (hmem : (node, e) ∈ t.numberedChildren 0) (hkind : e.kind = .exceptionDecl) :
    ∃ number c, table.contextAt? statement node = some number ∧ table.context? number = some c ∧
      c.kind = .exceptionDecl ∧ c.name = e.nameOrEmpty := by
  obtain ⟨before, after, hmembers⟩ := List.append_of_mem hmem
  obtain ⟨number, c, hnumber, hc, hckind, hname, -⟩ :=
    h.exists_exceptionContext ht hunit hmembers hkind
  exact ⟨number, c, hnumber, hc, hckind, hname⟩

end ContextTable.Holds
end SqlDoc

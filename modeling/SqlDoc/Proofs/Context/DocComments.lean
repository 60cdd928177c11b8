/-
# A comment documents one thing

The tags of a record are those of the comments in front of its node, in the order of the source, and
no comment gives its tags to two records (`resolveAll_docComments`). The comments that the records
have their tags from are, in the order of the records, among the comments of the source, and there
each is once.

Key definitions: `treeAt?`, `CommentRecord.docComments`.
Key theorems: `nodup_tokens`, `map_treeAt_sitesOf`, `parseSql_docs`, `resolveAll_docComments`.
-/
import Mathlib.Data.List.Nodup
import SqlDoc.Proofs.Context.Documenting
import SqlDoc.Proofs.Position.Order
import SqlDoc.Proofs.Syntax.Coverage

namespace SqlDoc

/-! ### Tokens of a script -/

/-- Tokens that are read one after the other begin one after the other. -/
theorem Sql.cooked_ordered {lx : Lexer sqlGrammar} (h : Outside lx) {tokens : List SqlToken}
    (htokens : cook lx.run.1 = tokens) :
    (∀ t ∈ tokens, lx.position ≤ t.span.start) ∧
      tokens.Pairwise fun t u => t.span.start < u.span.start := by
  induction tokens generalizing lx with
  | nil => exact ⟨fun t ht => absurd ht List.not_mem_nil, .nil⟩
  | cons t after ih =>
    obtain ⟨next, hstep, hafter⟩ := cooked_cons h htokens
    obtain ⟨hle, hordered⟩ := ih hstep.outside hafter
    have hstart : t.span.start = lx.position := by rw [hstep.span, Span.between]
    have hlt : lx.position < next.position := by
      rw [hstep.passes.position]
      exact lx.position.lt_advance hstep.text_ne_nil
    constructor
    · intro u hu
      rcases List.mem_cons.1 hu with rfl | hu
      · exact hstart.ge
      · exact hlt.le.trans (hle u hu)
    · refine List.pairwise_cons.2 ⟨fun u hu => ?_, hordered⟩
      rw [hstart]
      exact hlt.trans_le (hle u hu)

/-- No token of a script is there twice. -/
theorem nodup_tokens (source : String) (filename : Option String) :
    (lexSql source filename).tokens.Nodup :=
  (Sql.cooked_ordered (Sql.outside_start _ _) rfl).2.imp fun h heq => by
    rw [heq] at h
    exact lt_irrefl _ h

/-! ### Comments of statements -/

/-- The comments in front of groups are among their tokens. -/
theorem docsOf_sublist (groups : List SqlGroup) :
    (docsOf groups).Sublist ((groups.flatMap (·.tokens)).filter (·.kind = .docComment)) := by
  rw [List.filter_flatMap]
  refine List.Sublist.flatMap_right _ fun g _ => List.Sublist.filter _ ?_
  cases g with
  | keyed leading key => exact List.sublist_append_left ..
  | trailing first rest => exact List.Sublist.refl _

/-- The node and those below it that have a record, each before those inside it. -/
def SyntaxTree.recorded (t : SyntaxTree) : List SyntaxTree :=
  (Forest.node t.kind t.name t.below .nil).recorded

/-- The comments in front of the nodes of statements are, in order, among those of the script. -/
theorem parseSql_docs (source : String) (filename : Option String) :
    ((parseSql source filename).trees.flatMap fun t => t.recorded.flatMap (·.docComments)).Sublist
      ((lexSql source filename).tokens.filter (·.kind = .docComment)) := by
  obtain ⟨left, hcovers⟩ := parseTokens_covers (lexSql source filename)
  have htrees : ((parseSql source filename).trees.flatMap fun t =>
      t.recorded.flatMap (·.docComments)).Sublist
        ((parseSql source filename).trees.flatMap fun t => docsOf t.groups) := by
    refine List.Sublist.flatMap_right _ fun t ht => ?_
    have hspares := (parseTokens_spares _ t ht).node t.kind t.name
    have hgroups : (Forest.node t.kind t.name t.below .nil).groups = t.groups := List.append_nil _
    rw [Forest.Spares, List.drop_zero, hgroups] at hspares
    exact hspares
  have hgroups : ((parseSql source filename).trees.flatMap fun t => docsOf t.groups).Sublist
      (docsOf (groupsOf (lexSql source filename).tokens)) := by
    rw [hcovers.groups_eq, docsOf, List.flatMap_append, List.flatMap_assoc]
    exact List.sublist_append_left ..
  refine (htrees.trans hgroups).trans ?_
  have htokens := docsOf_sublist (groupsOf (lexSql source filename).tokens)
  rwa [tokens_groupsOf] at htokens

/-! ### Comments of records -/

/-- The node of a statement with a number. -/
def treeAt? (trees : List SyntaxTree) (statement node : Nat) : Option SyntaxTree :=
  trees[statement]?.bind fun t => t.placements[node]?.map (·.tree)

/-- The documentation comments in front of the node of a record. -/
def CommentRecord.docComments (trees : List SyntaxTree) (c : CommentRecord) : List SqlToken :=
  (treeAt? trees c.statement c.site.node).elim [] (·.docComments)

theorem Forest.map_place_recorded (f : Forest) (parent id before : Nat) :
    ((f.place parent id before).filter (·.tree.kind.isRecorded)).map (·.tree) = f.recorded := by
  induction f generalizing parent id before with
  | nil => rfl
  | group _ rest ih => exact ih ..
  | node kind name below rest ihbelow ihrest =>
    rw [place, List.filter_cons, List.filter_append, recorded, ← ihbelow id (id + 1) before,
      ← ihrest parent (id + 1 + below.size) (before + below.groups.length)]
    by_cases hkind : kind.isRecorded = true <;> simp [hkind]

theorem SyntaxTree.map_placements_recorded (t : SyntaxTree) :
    (t.placements.filter (·.tree.kind.isRecorded)).map (·.tree) = t.recorded := by
  rw [placements, List.filter_cons, recorded, Forest.recorded, ← Forest.map_place_recorded _ 0 1 0]
  by_cases hkind : t.kind.isRecorded = true <;> simp [hkind, Forest.recorded]

/-- A site of a statement is that of the node with its number. -/
theorem SyntaxTree.mem_sites {p : NodeKind → Bool} {t : SyntaxTree} {site : Site}
    (h : site ∈ t.sites p) : ∃ q, t.placements[site.node]? = some q ∧
      site = .ofTree site.node q.tree := by
  obtain ⟨⟨q, id⟩, hq, rfl⟩ := List.mem_map.1 h
  have hplace := List.mem_zipIdx_iff_getElem?.1 (List.mem_filter.1 hq).1
  exact ⟨q, hplace, rfl⟩

/-- The nodes of a statement's sites are those that have a record. -/
theorem SyntaxTree.map_sites_recorded (t : SyntaxTree) :
    (t.sites NodeKind.isRecorded).map (fun site => t.placements[site.node]?.map (·.tree)) =
      t.recorded.map some := by
  have hplaces : t.placements.filter (·.tree.kind.isRecorded) =
      (t.placements.zipIdx.filter fun q => q.1.tree.kind.isRecorded).map (·.1) := by
    conv_lhs => rw [← List.zipIdx_map_fst 0 t.placements]
    rw [List.filter_map]
    rfl
  rw [← t.map_placements_recorded, hplaces, sites, List.map_map, List.map_map, List.map_map]
  refine List.map_congr_left fun q hq => ?_
  have hplace := List.mem_zipIdx_iff_getElem?.1 (List.mem_filter.1 hq).1
  exact congrArg (Option.map _) hplace

theorem sitesOf_eq (p : NodeKind → Bool) (statement : Nat) (trees : List SyntaxTree) :
    sitesOf p statement trees =
      (trees.zipIdx statement).flatMap fun u => (u.1.sites p).map (u.2, ·) := by
  induction trees generalizing statement with
  | nil => rfl
  | cons t more ih => rw [sitesOf, ih, List.zipIdx_cons, List.flatMap_cons]

/-- A site is that of the node of its statement with its number. -/
theorem treeAt?_of_mem_sitesOf {p : NodeKind → Bool} {trees : List SyntaxTree} {s : Nat × Site}
    (h : s ∈ sitesOf p 0 trees) :
    ∃ t, treeAt? trees s.1 s.2.node = some t ∧ s.2 = .ofTree s.2.node t := by
  rw [sitesOf_eq] at h
  obtain ⟨⟨t, statement⟩, hstatement, hmem⟩ := List.mem_flatMap.1 h
  obtain ⟨site, hsite, rfl⟩ := List.mem_map.1 hmem
  obtain ⟨q, hplace, hsame⟩ := SyntaxTree.mem_sites hsite
  have htree : trees[statement]? = some t := List.mem_zipIdx_iff_getElem?.1 hstatement
  exact ⟨q.tree, by simp [treeAt?, htree, hplace], hsame⟩

/-- The nodes of the sites of statements are those that have a record. -/
theorem map_treeAt_sitesOf (trees : List SyntaxTree) :
    (sitesOf NodeKind.isRecorded 0 trees).map (fun s => treeAt? trees s.1 s.2.node) =
      (trees.flatMap (·.recorded)).map some := by
  have hstatement : ∀ u ∈ trees.zipIdx, ((u.1.sites NodeKind.isRecorded).map (u.2, ·)).map
      (fun s => treeAt? trees s.1 s.2.node) = u.1.recorded.map some := by
    rintro ⟨t, statement⟩ hu
    have htree : trees[statement]? = some t := List.mem_zipIdx_iff_getElem?.1 hu
    rw [List.map_map, ← t.map_sites_recorded]
    refine List.map_congr_left fun site _ => ?_
    simp [treeAt?, htree]
  rw [sitesOf_eq, List.map_flatMap, List.flatMap_congr hstatement, ← List.map_flatMap]
  conv_rhs => rw [← List.zipIdx_map_fst 0 trees, List.flatMap_map]

/-! ### Files -/

/-- The tags of a record are those of the documentation comments in front of its node, in order. The
comments that records have their tags from are, in the order of the records, comments of the script,
and no two records have tags from one comment. -/
theorem resolveAll_docComments (source : String) (filename : Option String) (warnOrphans : Bool) :
    let tokens := (lexSql source filename).tokens
    let trees := (parseSql source filename).trees
    let records := (resolveAll trees warnOrphans).1.comments
    (∀ c ∈ records, ∃ t, treeAt? trees c.statement c.site.node = some t ∧
        c.site.tags = t.docComments.flatMap fun d => (parseComment d.text d.span.start).tags) ∧
      (records.flatMap (·.docComments trees)).Sublist (tokens.filter (·.kind = .docComment)) ∧
      records.Pairwise fun c other =>
        ∀ d ∈ c.docComments trees, d ∉ other.docComments trees := by
  intro tokens trees records
  have hsites : records.map (fun c => (c.statement, c.site)) =
      sitesOf NodeKind.isRecorded 0 trees := by
    have hfits : ∀ t ∈ trees, t.Fits := parseSql_fits source filename
    have hrecords : records = (resolveFrom warnOrphans 0 0 trees).1.comments :=
      congrArg (·.1.comments) (resolveAll_eq hfits warnOrphans)
    rw [hrecords]
    exact map_site_comments hfits warnOrphans 0 0
  have hdocs : records.flatMap (·.docComments trees) =
      trees.flatMap fun t => t.recorded.flatMap (·.docComments) := by
    have hnodes := map_treeAt_sitesOf trees
    rw [← hsites, List.map_map] at hnodes
    calc records.flatMap (·.docComments trees)
        = (records.map fun c => treeAt? trees c.statement c.site.node).flatMap
            (·.elim [] (·.docComments)) := by rw [List.flatMap_map]; rfl
      _ = ((trees.flatMap (·.recorded)).map some).flatMap (·.elim [] (·.docComments)) :=
          congrArg _ hnodes
      _ = trees.flatMap fun t => t.recorded.flatMap (·.docComments) := by
          rw [List.flatMap_map, List.flatMap_assoc]
          rfl
  have hsublist : (records.flatMap (·.docComments trees)).Sublist
      (tokens.filter (·.kind = .docComment)) := hdocs ▸ parseSql_docs source filename
  refine ⟨fun c hc => ?_, hsublist, ?_⟩
  · have hsite : (c.statement, c.site) ∈ sitesOf NodeKind.isRecorded 0 trees :=
      hsites ▸ List.mem_map_of_mem hc
    obtain ⟨t, htree, hsame⟩ := treeAt?_of_mem_sitesOf hsite
    refine ⟨t, htree, ?_⟩
    have htags := congrArg Site.tags hsame
    simpa [Site.ofTree, List.flatMap_map] using htags
  · have hnodup : (records.flatMap (·.docComments trees)).Nodup :=
      ((nodup_tokens source filename).filter _).sublist hsublist
    exact (List.nodup_flatMap.1 hnodup).2

end SqlDoc

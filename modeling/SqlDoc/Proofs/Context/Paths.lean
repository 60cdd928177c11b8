/-
# The contexts of a file make a forest

The table of a file that has been resolved names each context where it belongs: in the row of the
context around it, among the parameters of a method or the fields of a record, among the units, and
in one record. Contexts come after those around them, so the way outwards ends, and the path of a
context is that of the context around it and its own id (`resolveAll_isForest`).

Key definitions: `ContextTable.IsForest`, `ContextTable.IsIndexed`.
Key theorems: `isForest_of_linked`, `IsForest.isIndexed`, `arena_resolveAll`, `resolveAll_isForest`.
-/
import SqlDoc.Proofs.Context.Numbering
import SqlDoc.Proofs.Context.Refinement

namespace SqlDoc
namespace ContextTable

variable (t : ContextTable)

/-- The context with a number. -/
def context? (id : Nat) : Option Context :=
  (t.rows[id]?).map (·.context)

/-- The number of the context around one. -/
def parent? (id : Nat) : Option Nat :=
  (t.context? id).bind (·.parent)

/-- The first record of a context. -/
def commentFor? (id : Nat) : Option CommentRecord :=
  t.comments.find? (·.context = some id)

/-- The contexts alone. -/
def arena : ContextArena :=
  ⟨t.rows.map (·.context)⟩

/-- Every context is named where it belongs. -/
structure IsForest : Prop where
  /-- A context comes after the one around it. -/
  parent_lt : ∀ id p, t.parent? id = some p → p < id
  /-- A context is a child of the one around it, once, and of no other. -/
  count_children : ∀ p row, t.rows[p]? = some row → ∀ id,
    row.children.count id = if t.parent? id = some p then 1 else 0
  children_sorted : ∀ row ∈ t.rows, row.children.Pairwise (· < ·)
  /-- The units are the contexts with none around them, in order. -/
  units : t.units = (List.range t.rows.length).filter fun id => t.parent? id = none
  parameters : ∀ row ∈ t.rows, ∀ returns signature modifiers,
    row.context.detail = .method returns signature modifiers →
    row.members = row.children.filter fun id => (t.context? id).any (·.kind = .parameter)
  fields : ∀ row ∈ t.rows, row.context.detail = .record →
    row.members = row.children.filter fun id => (t.context? id).any (·.kind = .fieldDecl)
  /-- The records name the contexts in order, each once. -/
  comments : t.comments.filterMap (·.context) = List.range t.rows.length

/-- Records and paths are found by the numbers of contexts. -/
structure IsIndexed : Prop where
  /-- Every context has a record. -/
  exists_comment : ∀ id, id < t.rows.length →
    ∃ r ∈ t.comments, r.context = some id ∧ t.commentFor? id = some r
  /-- The record of a context is the only one that names it. -/
  comment_unique : ∀ r ∈ t.comments, ∀ id, r.context = some id → t.commentFor? id = some r
  /-- The way outwards from a context ends after at most as many steps as its number allows. -/
  outward : ∀ id c, t.context? id = some c → ∀ steps, id < steps → (t.idsOutward? steps id).isSome
  /-- The path of a context is the path of the one around it and its own id. -/
  path : ∀ id c, t.context? id = some c →
    match c.parent with
    | none => t.path? id = some c.id
    | some p => ∃ outer, t.path? p = some outer ∧ t.path? id = some (outer ++ "/" ++ c.id)

variable {t}

theorem lt_of_context? {id : Nat} {c : Context} (h : t.context? id = some c) :
    id < t.rows.length := by
  obtain ⟨row, hrow, _⟩ := Option.map_eq_some_iff.1 h
  exact (List.getElem?_eq_some_iff.1 hrow).1

theorem exists_context? {id : Nat} (h : id < t.rows.length) : ∃ c, t.context? id = some c := by
  rw [context?, List.getElem?_eq_getElem h]
  exact ⟨_, rfl⟩

theorem get?_arena (id : Nat) : t.arena.get? id = t.context? id :=
  List.getElem?_map ..

/-! ### Rows that name each other -/

theorem map_fst_listed (parent : Option Nat) (p : ContextKind → Bool) (next : Nat)
    (rows : List ContextRow) : ((listed parent next rows).filter (p ·.2)).map (·.1) =
      ((rows.zipIdx next).filter fun q =>
        q.1.context.parent = parent && p q.1.context.kind).map (·.2) := by
  induction rows generalizing next with
  | nil => rfl
  | cons row rows ih =>
    rw [listed, List.zipIdx_cons, List.filter_cons]
    split
    · rename_i hparent
      rw [List.filter_cons]
      by_cases hp : p row.context.kind <;> simp [hparent, hp, ih]
    · rename_i hparent
      simp [hparent, ih]

/-- The numbers of the contexts inside `parent` that have a kind that `p` accepts. -/
theorem listed_eq_filter (parent : Option Nat) (p : ContextKind → Bool) :
    ((listed parent 0 t.rows).filter (p ·.2)).map (·.1) =
      (List.range t.rows.length).filter fun id =>
        t.parent? id = parent && (t.context? id).any (p ·.kind) := by
  rw [map_fst_listed, List.range_eq_range', ← List.zipIdx_map_snd, List.filter_map]
  congr 1
  refine List.filter_congr fun q hq => ?_
  have hrow : t.rows[q.2]? = some q.1 := List.mem_zipIdx_iff_getElem?.1 hq
  simp [parent?, context?, hrow]

theorem listed_eq_range (parent : Option Nat) : (listed parent 0 t.rows).map (·.1) =
    (List.range t.rows.length).filter fun id => t.parent? id = parent := by
  have hall := List.filter_eq_self.2 fun (q : Nat × ContextKind) (_ : q ∈ listed parent 0 t.rows) =>
    (rfl : true = true)
  rw [← hall, t.listed_eq_filter parent fun _ => true]
  refine List.filter_congr fun id hid => ?_
  obtain ⟨c, hc⟩ := t.exists_context? (List.mem_range.1 hid)
  simp [hc]

/-- Rows that name each other make a forest. -/
theorem isForest_of_linked {tops : List (Nat × ContextKind)} (h : Linked none 0 t.rows tops)
    (hunits : t.units = tops.map (·.1))
    (hcomments : t.comments.filterMap (·.context) = List.range t.rows.length) : t.IsForest := by
  have hchildren (p : Nat) (row : ContextRow) (hrow : t.rows[p]? = some row) :
      row.children = (List.range t.rows.length).filter fun id => t.parent? id = some p := by
    rw [h.children p row hrow, Nat.zero_add, listed_eq_range]
  have hmembers (kind : ContextKind) (p : Nat) (row : ContextRow) (hrow : t.rows[p]? = some row)
      (hkind : row.context.memberKind? = some kind) :
      row.members = row.children.filter fun id => (t.context? id).any (·.kind = kind) := by
    rw [h.members p row hrow kind hkind, Nat.zero_add, listed_eq_filter _ (· = kind),
      hchildren p row hrow, List.filter_filter]
    exact List.filter_congr fun id _ => Bool.and_comm ..
  constructor
  case parent_lt =>
    intro id p hp
    obtain ⟨c, hc, hparent⟩ := Option.bind_eq_some_iff.1 hp
    obtain ⟨row, hrow, rfl⟩ := Option.map_eq_some_iff.1 hc
    rcases h.around id row hrow with hnone | ⟨q, hq, _, hlt⟩
    · exact absurd (hnone.symm.trans hparent) nofun
    · have : q = p := Option.some.inj (hq.symm.trans hparent)
      omega
  case count_children =>
    intro p row hrow id
    have hnodup : row.children.Nodup := by
      rw [hchildren p row hrow]
      exact List.nodup_range.filter _
    have hmem : id ∈ row.children ↔ t.parent? id = some p := by
      rw [hchildren p row hrow, List.mem_filter, List.mem_range, decide_eq_true_iff]
      refine ⟨And.right, fun hp => ⟨?_, hp⟩⟩
      obtain ⟨c, hc, _⟩ := Option.bind_eq_some_iff.1 hp
      exact t.lt_of_context? hc
    rw [hnodup.count]
    simp only [hmem]
  case children_sorted =>
    intro row hrow
    obtain ⟨p, hp⟩ := List.mem_iff_getElem?.1 hrow
    rw [hchildren p row hp]
    exact List.pairwise_lt_range.filter _
  case units => rw [hunits, ← h.listed_eq, listed_eq_range]
  case parameters =>
    intro row hrow returns signature modifiers hdetail
    obtain ⟨p, hp⟩ := List.mem_iff_getElem?.1 hrow
    exact hmembers _ p row hp (by rw [Context.memberKind?, hdetail])
  case fields =>
    intro row hrow hdetail
    obtain ⟨p, hp⟩ := List.mem_iff_getElem?.1 hrow
    exact hmembers _ p row hp (by rw [Context.memberKind?, hdetail])
  case comments => exact hcomments

namespace IsForest

/-! ### Records -/

theorem commentFor?_eq (h : t.IsForest) {r : CommentRecord} (hr : r ∈ t.comments) {id : Nat}
    (hid : r.context = some id) : t.commentFor? id = some r := by
  have hnodup : (t.comments.filterMap (·.context)).Nodup := by
    rw [h.comments]
    exact List.nodup_range
  obtain ⟨before, after, hsplit⟩ := List.append_of_mem hr
  rw [hsplit] at hnodup
  have hother := (List.pairwise_append.1 (List.pairwise_filterMap.1 hnodup)).2.2
  refine List.find?_eq_some_iff_append.2 ⟨decide_eq_true hid, before, after, hsplit, fun s hs => ?_⟩
  have hne : s.context ≠ some id := fun heq => hother s hs r List.mem_cons_self id heq id hid rfl
  simp [hne]

theorem exists_commentFor? (h : t.IsForest) {id : Nat} (hid : id < t.rows.length) :
    ∃ r ∈ t.comments, r.context = some id ∧ t.commentFor? id = some r := by
  have hmem : id ∈ t.comments.filterMap (·.context) := by
    rw [h.comments]
    exact List.mem_range.2 hid
  obtain ⟨r, hr, hcontext⟩ := List.mem_filterMap.1 hmem
  exact ⟨r, hr, hcontext, h.commentFor?_eq hr hcontext⟩

/-! ### Paths -/

theorem lt_of_parent (h : t.IsForest) {id p : Nat} {c : Context} (hc : t.context? id = some c)
    (hp : c.parent = some p) : p < id :=
  h.parent_lt id p (by rw [parent?, hc, Option.bind_some, hp])

/-- The ids on the way to a context are those on the way to the one around it and its own. -/
theorem pathIds_arena (h : t.IsForest) {id : Nat} {c : Context} (hc : t.context? id = some c) :
    t.arena.pathIds id = c.parent.elim [] t.arena.pathIds ++ [c.id] := by
  rw [ContextArena.pathIds, get?_arena, hc]
  dsimp only
  cases hp : c.parent with
  | none => rfl
  | some p => exact if_pos (h.lt_of_parent hc hp)

/-- The way outwards takes no more steps than the number of the context allows. -/
theorem idsOutward?_eq (h : t.IsForest) {id : Nat} {c : Context} (hc : t.context? id = some c)
    {steps : Nat} (hsteps : id < steps) :
    t.idsOutward? steps id = some (t.arena.pathIds id).reverse := by
  induction steps generalizing id c with
  | zero => exact absurd hsteps (Nat.not_lt_zero id)
  | succ steps ih =>
    obtain ⟨row, hrow, rfl⟩ := Option.map_eq_some_iff.1 hc
    rw [h.pathIds_arena hc, idsOutward?, hrow]
    cases hparent : row.context.parent with
    | none => simp [hparent]
    | some p =>
      have hlt := h.lt_of_parent hc hparent
      obtain ⟨outer, houter⟩ := t.exists_context? (Nat.lt_trans hlt (lt_of_context? hc))
      have hp := ih houter (by omega)
      simp [hparent, hp]

theorem path?_eq (h : t.IsForest) {id : Nat} {c : Context} (hc : t.context? id = some c) :
    t.path? id = some (t.arena.path id) := by
  rw [path?, h.idsOutward?_eq hc (lt_of_context? hc), Option.map_some, List.reverse_reverse]
  rfl

theorem path?_inside (h : t.IsForest) {id : Nat} {c : Context} (hc : t.context? id = some c) :
    match c.parent with
    | none => t.path? id = some c.id
    | some p => ∃ outer, t.path? p = some outer ∧ t.path? id = some (outer ++ "/" ++ c.id) := by
  rw [h.path?_eq hc, ContextArena.path, h.pathIds_arena hc]
  cases hp : c.parent with
  | none => exact congrArg some String.intercalate_singleton
  | some p =>
    have hlt := Nat.lt_trans (h.lt_of_parent hc hp) (lt_of_context? hc)
    obtain ⟨outer, houter⟩ := t.exists_context? hlt
    have hsome : t.arena.pathIds p ≠ [] := by
      rw [h.pathIds_arena houter]
      exact List.append_ne_nil_of_right_ne_nil _ (List.cons_ne_nil _ _)
    refine ⟨_, h.path?_eq houter, ?_⟩
    rw [Option.elim_some, String.intercalate_append_of_ne_nil hsome (List.cons_ne_nil _ _),
      String.intercalate_singleton]
    rfl

theorem isIndexed (h : t.IsForest) : t.IsIndexed where
  exists_comment _ hid := h.exists_commentFor? hid
  comment_unique _ hr _ hid := h.commentFor?_eq hr hid
  outward id c hc steps hsteps := by
    rw [h.idsOutward?_eq hc hsteps]
    rfl
  path _ _ hc := h.path?_inside hc

end IsForest
end ContextTable

/-! ### Files -/

/-- The records of sites name their contexts in order, each once. -/
theorem DocForest.filterMap_records (f : DocForest) (statement next : Nat) :
    (f.records statement next).filterMap (·.context) = List.range' next f.contextCount := by
  induction f generalizing next with
  | nil => rfl
  | node site context inside rest ihinside ihrest =>
    have hrange : List.range' (next + context.toList.length) inside.contextCount ++
        List.range' (next + context.toList.length + inside.contextCount) rest.contextCount =
          List.range' (next + context.toList.length) (inside.contextCount + rest.contextCount) :=
      List.range'_append_1 ..
    rw [records, List.filterMap_cons, List.filterMap_append, ihinside, ihrest, hrange, contextCount,
      Nat.add_assoc]
    cases context with
    | none => simp
    | some c => simp [Nat.add_comm 1, List.range'_succ]

/-- A statement has one context at the top, if it has any. -/
theorem topIds_resolveStatement (warnOrphans : Bool) (next : Nat) (t : SyntaxTree) :
    (resolveStatement warnOrphans next t).1.topIds next =
      if (resolveStatement warnOrphans next t).1.contextCount = 0 then [] else [next] := by
  rw [contextCount_resolveStatement, fst_resolveStatement, DocForest.topIds_bind]
  unfold DocForest.ofStatement
  split
  · rw [if_neg (by simp [DocForest.contextCount])]
    rfl
  · rfl

/-- The rows of statements name each other, and the units are at the top. -/
theorem linked_statementRows {trees : List SyntaxTree} (htrees : ∀ t ∈ trees, t.Fits)
    (warnOrphans : Bool) (statement next : Nat) :
    ∃ tops, Linked none next (statementRows id warnOrphans next trees) tops ∧
      (resolveFrom warnOrphans statement next trees).1.units = tops.map (·.1) := by
  induction trees generalizing statement next with
  | nil => exact ⟨[], .nil, rfl⟩
  | cons t more ih =>
    obtain ⟨ht, hmore⟩ := List.forall_mem_cons.1 htrees
    let f := (resolveStatement warnOrphans next t).1
    obtain ⟨others, hrest, hothers⟩ := ih hmore (statement + 1) (next + f.contextCount)
    have hshaped : f.Shaped := DocForest.shaped_resolveStatement ht warnOrphans next
    have hnone (p : Nat) (hp : p ∈ (none : Option Nat)) : p < next :=
      absurd hp (Option.not_mem_none p)
    have hfirst := DocForest.linked_rows hshaped hnone
    have hids : ((f.tops next).map fun top => (top.1, top.2.kind)).map (·.1) = f.topIds next :=
      List.map_map
    refine ⟨((f.tops next).map fun top => (top.1, top.2.kind)) ++ others, ?_, ?_⟩
    · rw [statementRows, ite_self, List.map_id]
      refine hfirst.append ?_ hnone
      rw [DocForest.length_rows]
      exact hrest
    · rw [List.map_append, hids, topIds_resolveStatement, ← hothers]
      rfl

theorem filterMap_comments (warnOrphans : Bool) (statement next : Nat) (trees : List SyntaxTree) :
    (resolveFrom warnOrphans statement next trees).1.comments.filterMap (·.context) =
      List.range' next (statementRows id warnOrphans next trees).length := by
  induction trees generalizing statement next with
  | nil => rfl
  | cons t more ih =>
    rw [statementRows, ite_self, List.map_id, List.length_append, DocForest.length_rows,
      ← List.range'_append_1, ← ih (statement + 1), ← DocForest.filterMap_records _ statement,
      ← List.filterMap_append]
    rfl

/-- The table and the resolution have the same contexts under the same numbers. -/
theorem arena_resolveAll {trees : List SyntaxTree} (htrees : ∀ t ∈ trees, t.Fits)
    (warnOrphans : Bool) :
    (resolveAll trees warnOrphans).1.arena = (resolve trees warnOrphans).1.contexts := by
  rw [resolveAll_eq htrees]
  exact congrArg ContextArena.mk (map_context_statementRows warnOrphans 0 0 trees)

/-- In the table of a file every context is named where it belongs, and its record and its path are
found by its number. -/
theorem resolveAll_isForest (source : String) (filename : Option String) (warnOrphans : Bool) :
    (resolveAll (parseSql source filename).trees warnOrphans).1.IsForest ∧
      (resolveAll (parseSql source filename).trees warnOrphans).1.IsIndexed := by
  have hfits := parseSql_fits source filename
  obtain ⟨tops, hlinked, hunits⟩ := linked_statementRows hfits warnOrphans 0 0
  have hforest : (resolveAll (parseSql source filename).trees warnOrphans).1.IsForest := by
    rw [resolveAll_eq hfits]
    refine ContextTable.isForest_of_linked hlinked hunits ?_
    rw [List.range_eq_range']
    exact filterMap_comments warnOrphans 0 0 _
  exact ⟨hforest, hforest.isIndexed⟩

end SqlDoc

/-
# The table of a tree

In the table of a tree the numbers of parents and children agree, the nodes are numbered in the
order of a walk from the root, and the groups of a node's children follow one another inside those
of the node (`NodeTable.WellFormed`). What is read from the table under the number of a node is what
the node of the tree has.

Key definition: `NodeTable.WellFormed`.
Key theorems: `SyntaxTree.table_walk?`, `SyntaxTree.table_wellFormed`, `SyntaxTree.table_groups?`,
`SyntaxTree.table_header?`, `SyntaxTree.table_outline?`.
-/
import SqlDoc.Proofs.Syntax.Placement
import SqlDoc.Syntax.Table

namespace SqlDoc

/-- The parts of a table fit together. -/
structure NodeTable.WellFormed (t : NodeTable) : Prop where
  /-- Node 0 has no parent and covers all groups. -/
  root : ∃ n : NodeRow, t.nodes[0]? = some n ∧ n.parent = none ∧ n.firstGroup = 0 ∧
    n.stopGroup = t.groups.length
  /-- Every other node has a parent. -/
  parented : ∀ (c : Nat) (n : NodeRow), t.nodes[c]? = some n → n.parent = none → c = 0
  /-- A node is among the children of its parent once, and not among those of another node. -/
  linked : ∀ (c p : Nat) (n : NodeRow), t.nodes[p]? = some n →
    n.children.count c = if t.nodes[c]?.bind NodeRow.parent = some p then 1 else 0
  /-- A walk from node 0 comes to all nodes in the order of their numbers. -/
  preorder : t.visited? 0 = some (List.range t.nodes.length)
  /-- A node covers groups that its parent covers. -/
  nested : ∀ (c p : Nat) (n : NodeRow), t.nodes[c]? = some n → n.parent = some p →
    ∃ m : NodeRow, t.nodes[p]? = some m ∧ m.firstGroup ≤ n.firstGroup ∧
      n.firstGroup ≤ n.stopGroup ∧ n.stopGroup ≤ m.stopGroup
  /-- The groups of a node's children come one after the other. -/
  ordered : ∀ (p : Nat) (n : NodeRow), t.nodes[p]? = some n →
    n.children.Pairwise fun a b => ∃ x y : NodeRow,
      t.nodes[a]? = some x ∧ t.nodes[b]? = some y ∧ x.stopGroup ≤ y.firstGroup

/-! ### Reading under a number -/

/-- A search through numbers finds something under each of them if it does under every single
one. -/
theorem mapM_eq_some {α β : Type} {f : α → Option β} {items : List α} {results : List β}
    (h : items.map f = results.map some) : items.mapM f = some results := by
  induction items generalizing results with
  | nil =>
    rw [List.map_eq_nil_iff.1 h.symm]
    rfl
  | cons x items ih =>
    obtain ⟨y, results, rfl, hy, hrest⟩ := List.map_eq_cons_iff.1 h.symm
    rw [List.mapM_cons, ← hy, ih hrest.symm]
    rfl

theorem NodeTable.slice?_of_append {t : NodeTable} {l m r : List SqlGroup}
    (h : t.groups = l ++ m ++ r) : t.slice? l.length (l.length + m.length) = some m := by
  have hlength := congrArg List.length h
  rw [List.length_append, List.length_append] at hlength
  rw [NodeTable.slice?, if_pos ⟨Nat.le_add_right .., by omega⟩, h, List.append_assoc,
    List.drop_left, Nat.add_sub_cancel_left, List.take_left]

namespace Forest

variable {β : Type} (visit : Nat → Nat → NodeKind → Option Name → List β → β)

/-- What a walk gives at the nodes at the top, if the first has number `id`. -/
def visits (depth id : Nat) : Forest → List β
  | nil => []
  | group _ rest => rest.visits depth id
  | node kind name below rest =>
    visit depth id kind name (below.visits (depth + 1) (id + 1)) ::
      rest.visits depth (id + 1 + below.size)

/-- A walk that notes its way comes to the nodes in the order of their numbers. -/
theorem visits_order (f : Forest) (depth id : Nat) :
    (f.visits (fun _ id _ _ below => id :: below.flatten) depth id).flatten =
      List.range' id f.size := by
  induction f generalizing depth id with
  | nil => rfl
  | group _ rest ih => exact ih ..
  | node kind name below rest ihbelow ihrest =>
    rw [visits, List.flatten_cons, ihbelow, ihrest, size, Nat.add_assoc 1, Nat.add_comm 1,
      List.range'_succ, ← List.range'_append_1, List.cons_append]

/-- A walk that writes a line at each node writes the outline. -/
theorem visits_outline (f : Forest) (depth id : Nat) :
    String.join (f.visits (fun depth _ kind name below =>
      outlineLine depth kind name ++ String.join below) depth id) = f.outline depth := by
  induction f generalizing depth id with
  | nil => rfl
  | group _ rest ih => exact ih ..
  | node kind name below rest ihbelow ihrest =>
    rw [visits, String.join_cons, ihbelow, ihrest]
    rfl

/-- The groups before a node are those up to its first. -/
theorem length_groupsBefore (f : Forest) (stop : NodeKind → Bool) (parent id before : Nat) :
    ((f.tops parent id before).find? fun p => stop p.tree.kind).elim (before + f.groups.length)
        (·.firstGroup) = before + (f.groupsBefore stop).length := by
  induction f generalizing id before with
  | nil => rfl
  | group _ rest ih =>
    have hrest := ih id (before + 1)
    rw [tops, groups, groupsBefore, List.length_cons, List.length_cons]
    rw [Nat.add_right_comm, Nat.add_assoc before] at hrest
    rw [hrest, Nat.add_right_comm, Nat.add_assoc]
  | node kind name below rest _ ih =>
    rw [tops, List.find?_cons, groups, groupsBefore, List.length_append]
    cases hstop : stop kind with
    | true => rfl
    | false =>
      rw [if_neg Bool.false_ne_true, List.length_append, ← Nat.add_assoc, ← Nat.add_assoc]
      exact ih ..

theorem groupsBefore_prefix (f : Forest) (stop : NodeKind → Bool) :
    f.groupsBefore stop <+: f.groups := by
  induction f with
  | nil => exact List.prefix_refl _
  | group g rest ih => exact List.cons_prefix_cons.2 ⟨rfl, ih⟩
  | node kind name below rest _ ih =>
    rw [groupsBefore, groups]
    split
    · exact List.nil_prefix
    · exact (List.prefix_append_right_inj _).2 ih

end Forest

namespace SyntaxTree

variable {t : SyntaxTree} {p : Nat} {q : Placement}

theorem table_node (t : SyntaxTree) (p : Nat) :
    t.table.nodes[p]? = t.placements[p]?.map Placement.row :=
  List.getElem?_map

theorem table_node_of_placement (hq : t.placements[p]? = some q) :
    t.table.nodes[p]? = some q.row := by
  rw [table_node, hq, Option.map_some]

/-- Every row is the row of a node that has been placed. -/
theorem placement_of_table_node {n : NodeRow} (hn : t.table.nodes[p]? = some n) :
    ∃ q, t.placements[p]? = some q ∧ q.row = n := by
  rw [table_node] at hn
  exact Option.map_eq_some_iff.1 hn

@[simp] theorem length_table_nodes (t : SyntaxTree) : t.table.nodes.length = t.size := by
  rw [table, List.length_map, placements_length]

/-- A node covers its groups. -/
theorem table_groups? (hq : t.placements[p]? = some q) :
    t.table.groups? p = some q.tree.groups := by
  obtain ⟨-, -, l, r, hgroups, hfirst⟩ := placements_below hq
  rw [NodeTable.groups?, table_node_of_placement hq, Option.bind_eq_bind, Option.bind_some]
  show t.table.slice? q.firstGroup (q.firstGroup + q.tree.groups.length) = _
  rw [hfirst]
  exact NodeTable.slice?_of_append hgroups

/-- The children of a node lead to rows. -/
theorem table_children (hq : t.placements[p]? = some q) :
    q.children.mapM (fun c => t.table.nodes[c]?) =
      some ((q.tree.below.tops p (p + 1) q.firstGroup).map Placement.row) := by
  refine mapM_eq_some ?_
  have hrow : (fun c => t.table.nodes[c]?) =
      fun c => Option.map Placement.row (t.placements[c]?) := funext fun c => t.table_node c
  have hchildren := congrArg (List.map (Option.map Placement.row)) (placements_children hq)
  rw [List.map_map, List.map_map] at hchildren
  rw [hrow, List.map_map]
  exact hchildren

/-- The groups of a node before its first member end where the member begins. -/
theorem firstMember (q : Placement) (p : Nat) :
    (((q.tree.below.tops p (p + 1) q.firstGroup).map Placement.row).find? (·.kind.isMember)).elim
        q.row.stopGroup (·.firstGroup) =
      q.firstGroup + (q.tree.below.groupsBefore NodeKind.isMember).length := by
  rw [List.find?_map, Option.elim_map]
  exact q.tree.below.length_groupsBefore NodeKind.isMember p (p + 1) q.firstGroup

/-- The header of a node is that of its first groups, and the row says how many. -/
theorem headerStop_row (q : Placement) (p : Nat) :
    ∃ shown after, q.tree.groups = shown ++ after ∧ q.tree.header = headerText shown ∧
      q.row.headerStop ((q.tree.below.tops p (p + 1) q.firstGroup).map Placement.row) =
        q.firstGroup + shown.length := by
  by_cases hunit : ∃ unit, q.tree.kind = .createUnit unit
  · obtain ⟨unit, hkind⟩ := hunit
    have hrow : q.row.kind = .createUnit unit := hkind
    obtain ⟨after, hafter⟩ := q.tree.below.groupsBefore_prefix NodeKind.isMember
    refine ⟨_, after, hafter.symm, ?_, ?_⟩
    · rw [header, hkind]
    · rw [NodeRow.headerStop, hrow]
      exact firstMember q p
  · refine ⟨_, [], (List.append_nil _).symm, ?_, ?_⟩
    · unfold header
      split
      · exact absurd ⟨_, ‹_›⟩ hunit
      · rfl
    · unfold NodeRow.headerStop
      split
      · exact absurd ⟨_, ‹_›⟩ hunit
      · rfl

/-- The header of a node is read up to its first member. -/
theorem table_header? (hq : t.placements[p]? = some q) :
    t.table.header? p = some q.tree.header := by
  obtain ⟨-, -, l, r, hgroups, hfirst⟩ := placements_below hq
  obtain ⟨shown, after, hshown, hheader, hstop⟩ := headerStop_row q p
  have hslice : t.groups = l ++ shown ++ (after ++ r) := by
    rw [hgroups, hshown, List.append_assoc, List.append_assoc, List.append_assoc]
  unfold NodeTable.header?
  rw [table_node_of_placement hq, Option.bind_eq_bind, Option.bind_some]
  show Option.bind (q.children.mapM fun c => t.table.nodes[c]?) _ = _
  rw [table_children hq, Option.bind_some, hstop, hheader]
  show Option.map headerText (t.table.slice? q.firstGroup (q.firstGroup + shown.length)) = _
  rw [hfirst]
  exact congrArg (Option.map headerText) (NodeTable.slice?_of_append hslice)

/-- A node has its text and its span. -/
theorem table_text? (hq : t.placements[p]? = some q) : t.table.text? p = some q.tree.text := by
  rw [NodeTable.text?, table_groups? hq, Option.map_some]
  rfl

theorem table_span? (hq : t.placements[p]? = some q) : t.table.span? p = some q.tree.span? := by
  rw [NodeTable.span?, table_groups? hq, Option.map_some]
  rfl

/-! ### Walks -/

variable {β : Type} (visit : Nat → Nat → NodeKind → Option Name → List β → β)

/-- A walk that is deep enough comes to the nodes at the top of a forest if it comes to each single
node. -/
theorem walks_tops (depth fuel : Nat) (f : Forest) {parent id before : Nat}
    (hf : StandsAt t.placements id (f.place parent id before)) (hfuel : f.size ≤ fuel)
    (hwalk : ∀ (p : Nat) (q : Placement), t.placements[p]? = some q → q.tree.size ≤ fuel →
      t.table.walk? visit fuel depth p = some (visit depth p q.tree.kind q.tree.name
        (q.tree.below.visits visit (depth + 1) (p + 1)))) :
    (f.ids id).mapM (t.table.walk? visit fuel depth) = some (f.visits visit depth id) := by
  induction f generalizing id before with
  | nil => rfl
  | group _ rest ih => exact ih hf hfuel
  | node kind name below rest _ ih =>
    have hrest := hf.tail.right
    rw [Forest.place_length] at hrest
    rw [Forest.size] at hfuel
    have hnode := hwalk id _ hf.head (by show 1 + below.size ≤ fuel; omega)
    rw [Forest.ids, Forest.visits, List.mapM_cons, hnode, ih hrest (by omega)]
    rfl

/-- A walk that is deep enough comes to a node and all nodes below it. -/
theorem table_walk? {depth fuel : Nat} (hq : t.placements[p]? = some q)
    (hfuel : q.tree.size ≤ fuel) : t.table.walk? visit fuel depth p =
      some (visit depth p q.tree.kind q.tree.name
        (q.tree.below.visits visit (depth + 1) (p + 1))) := by
  induction fuel generalizing depth p q with
  | zero =>
    rw [size] at hfuel
    omega
  | succ fuel ih =>
    obtain ⟨hchildren, hbelow, -⟩ := placements_below hq
    rw [size] at hfuel
    have hwalks := walks_tops visit (depth + 1) fuel q.tree.below hbelow (by omega) fun _ _ => ih
    rw [NodeTable.walk?, table_node_of_placement hq, Option.bind_eq_bind, Option.bind_some]
    show Option.bind (q.children.mapM _) _ = _
    rw [hchildren, hwalks]
    rfl

/-! ### The table as a whole -/

/-- The rows are in the order of a walk. -/
theorem table_visited? (t : SyntaxTree) :
    t.table.visited? 0 = some (List.range t.table.nodes.length) := by
  rw [NodeTable.visited?, length_table_nodes,
    table_walk? _ t.placements_zero (Nat.le_refl t.size), Forest.visits_order, List.range_eq_range',
    size, Nat.add_comm 1, List.range'_succ]

/-- The outline of a node is that of the tree below it. -/
theorem table_outline? (hq : t.placements[p]? = some q) :
    t.table.outline? p = some q.tree.outline := by
  have hsize : q.tree.size ≤ t.size := by
    have hlength := (placements_below hq).2.1.length_le
    rw [Forest.place_length, List.length_drop, placements_length] at hlength
    have := lt_size hq
    rw [size]
    omega
  rw [NodeTable.outline?, length_table_nodes, table_walk? _ hq hsize, Forest.visits_outline]
  exact congrArg some (String.append_empty).symm

/-- A node is among the children of its parent once, and not among those of another node. -/
theorem table_linked (hq : t.placements[p]? = some q) (c : Nat) :
    q.children.count c = if t.table.nodes[c]?.bind NodeRow.parent = some p then 1 else 0 := by
  have hnodup : q.children.Nodup := by
    rw [(placements_below hq).1]
    exact (Forest.ids_ordered _ _).imp Nat.ne_of_lt
  have hmem : c ∈ q.children ↔ t.table.nodes[c]?.bind NodeRow.parent = some p := by
    constructor
    · intro hc
      obtain ⟨x, hx, htop⟩ := of_mem_children hq hc
      rw [table_node_of_placement hx, Option.bind_some]
      exact (Forest.of_mem_tops htop).1
    · intro hparent
      obtain ⟨n, hn, hparent⟩ := Option.bind_eq_some_iff.1 hparent
      obtain ⟨x, hx, rfl⟩ := placement_of_table_node hn
      have hne : c ≠ 0 := by
        rintro rfl
        rw [t.placements_zero] at hx
        obtain rfl := Option.some.inj hx
        cases hparent
      obtain ⟨i, m, -, hm, hparent', hmem⟩ := placements_parent hx hne
      obtain rfl : i = p := Option.some.inj (hparent'.symm.trans hparent)
      obtain rfl := Option.some.inj (hm.symm.trans hq)
      exact hmem
  rw [List.Nodup.count hnodup]
  simp only [hmem]

/-- A node covers groups that its parent covers. -/
theorem table_nested (hq : t.placements[p]? = some q) {i : Nat} (hparent : q.parent = some i) :
    ∃ m, t.placements[i]? = some m ∧ m.firstGroup ≤ q.firstGroup ∧ q.stopGroup ≤ m.stopGroup := by
  have hp : p ≠ 0 := by
    rintro rfl
    rw [t.placements_zero] at hq
    obtain rfl := Option.some.inj hq
    cases hparent
  obtain ⟨i', m, -, hm, hparent', hmem⟩ := placements_parent hq hp
  obtain rfl : i' = i := Option.some.inj (hparent'.symm.trans hparent)
  obtain ⟨x, hx, htop⟩ := of_mem_children hm hmem
  obtain rfl := Option.some.inj (hx.symm.trans hq)
  obtain ⟨-, hfirst, hstop⟩ := Forest.of_mem_tops htop
  exact ⟨m, hm, hfirst, hstop⟩

/-- The groups of a node's children come one after the other. -/
theorem table_ordered (hq : t.placements[p]? = some q) :
    q.children.Pairwise fun a b => ∃ x y : Placement,
      t.placements[a]? = some x ∧ t.placements[b]? = some y ∧ x.stopGroup ≤ y.firstGroup := by
  let after := fun a b : Option Placement =>
    ∃ x y : Placement, a = some x ∧ b = some y ∧ x.stopGroup ≤ y.firstGroup
  have htops : ((q.tree.below.tops p (p + 1) q.firstGroup).map some).Pairwise after :=
    List.pairwise_map.2 ((Forest.tops_ordered ..).imp fun hxy => ⟨_, _, rfl, rfl, hxy⟩)
  rw [← placements_children hq] at htops
  exact List.pairwise_map.1 htops

/-- The parts of the table of a tree fit together. -/
theorem table_wellFormed (t : SyntaxTree) : t.table.WellFormed where
  root := ⟨_, table_node_of_placement t.placements_zero, rfl, rfl, Nat.zero_add _⟩
  parented := by
    intro c n hn hparent
    obtain ⟨q, hq, rfl⟩ := placement_of_table_node hn
    by_cases hc : c = 0
    · exact hc
    · obtain ⟨i, m, -, -, hsome, -⟩ := placements_parent hq hc
      cases hsome.symm.trans hparent
  linked := by
    intro c p n hn
    obtain ⟨q, hq, rfl⟩ := placement_of_table_node hn
    exact table_linked hq c
  preorder := t.table_visited?
  nested := by
    intro c p n hn hparent
    obtain ⟨q, hq, rfl⟩ := placement_of_table_node hn
    obtain ⟨m, hm, hfirst, hstop⟩ := table_nested hq hparent
    exact ⟨m.row, table_node_of_placement hm, hfirst, Nat.le_add_right .., hstop⟩
  ordered := by
    intro p n hn
    obtain ⟨q, hq, rfl⟩ := placement_of_table_node hn
    refine (table_ordered hq).imp ?_
    rintro a b ⟨x, y, hx, hy, hxy⟩
    exact ⟨x.row, y.row, table_node_of_placement hx, table_node_of_placement hy, hxy⟩

end SyntaxTree
end SqlDoc

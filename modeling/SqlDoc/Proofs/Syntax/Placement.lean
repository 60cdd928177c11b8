/-
# Where the nodes of a tree are placed

The placements of a tree are read off its forests. Below each node lies the list of the placements
of its forest, so what holds of the nodes at the top of a forest holds of the children of every node
(`SyntaxTree.placements_below`): their numbers are in order and lead to them, they name their
parent, and their groups follow one another inside the groups of the parent.

Key definitions: `StandsAt`, `Forest.tops`.
Key theorems: `Forest.ids_lookup`, `SyntaxTree.placements_below`,
`SyntaxTree.placements_children`, `SyntaxTree.placements_parent`.
-/
import SqlDoc.Syntax.Tree

namespace SqlDoc

/-- The number of the first group after a node. -/
def Placement.stopGroup (p : Placement) : Nat :=
  p.firstGroup + p.tree.groups.length

/-- The items stand in the list from index `id` on. -/
def StandsAt {α : Type} (list : List α) (id : Nat) (items : List α) : Prop :=
  items <+: list.drop id

namespace StandsAt

variable {α : Type} {list first second : List α} {id : Nat} {x : α}

theorem head (h : StandsAt list id (x :: first)) : list[id]? = some x := by
  obtain ⟨after, hafter⟩ := h
  have := congrArg (fun l => l[0]?) hafter
  rw [List.cons_append, List.getElem?_cons_zero, List.getElem?_drop, Nat.add_zero] at this
  exact this.symm

theorem left (h : StandsAt list id (first ++ second)) : StandsAt list id first :=
  (List.prefix_append first second).trans h

theorem right (h : StandsAt list id (first ++ second)) :
    StandsAt list (id + first.length) second := by
  obtain ⟨after, hafter⟩ := h
  refine ⟨after, ?_⟩
  rw [← List.drop_drop, ← hafter, List.append_assoc, List.drop_left]

theorem tail (h : StandsAt list id (x :: first)) : StandsAt list (id + 1) first :=
  right (show StandsAt list id ([x] ++ first) from h)

end StandsAt

namespace Forest

/-! ### Forests in a row -/

theorem ids_append (f g : Forest) (id : Nat) :
    (f.append g).ids id = f.ids id ++ g.ids (id + f.size) := by
  induction f generalizing id with
  | nil => rfl
  | group _ _ ih => exact ih id
  | node _ _ below _ _ ih =>
    rw [append, ids, ids, ih, size, List.cons_append]
    congr 3
    omega

theorem place_append (f g : Forest) (parent id before : Nat) :
    (f.append g).place parent id before =
      f.place parent id before ++ g.place parent (id + f.size) (before + f.groups.length) := by
  induction f generalizing parent id before with
  | nil => rfl
  | group _ rest ih =>
    rw [append, place, place, ih, size, groups, List.length_cons]
    congr 2
    omega
  | node _ _ below rest _ ih =>
    rw [append, place, place, ih, size, groups, List.length_append, List.cons_append,
      List.append_assoc]
    congr 4
    · omega
    · omega

/-! ### The nodes at the top of a forest -/

/-- The placements of the nodes at the top, below `parent`, if the first has number `id` and
`before` groups come first. -/
def tops (parent id before : Nat) : Forest → List Placement
  | nil => []
  | group _ rest => rest.tops parent id (before + 1)
  | node kind name below rest =>
    { tree := ⟨kind, name, below⟩, parent := some parent, children := below.ids (id + 1),
      firstGroup := before }
      :: rest.tops parent (id + 1 + below.size) (before + below.groups.length)

/-- The numbers of the nodes at the top lead to them. -/
theorem ids_lookup {f : Forest} {parent id before : Nat} {nodes : List Placement}
    (h : StandsAt nodes id (f.place parent id before)) :
    (f.ids id).map (fun c => nodes[c]?) = (f.tops parent id before).map some := by
  induction f generalizing parent id before with
  | nil => rfl
  | group _ rest ih => exact ih h
  | node kind name below rest _ ih =>
    have hrest := h.tail.right
    rw [place_length] at hrest
    rw [ids, tops, List.map_cons, List.map_cons, h.head, ih hrest]

/-- The nodes at the top are below the parent, and cover groups of the forest. -/
theorem of_mem_tops {f : Forest} {parent id before : Nat} {p : Placement}
    (h : p ∈ f.tops parent id before) :
    p.parent = some parent ∧ before ≤ p.firstGroup ∧ p.stopGroup ≤ before + f.groups.length := by
  induction f generalizing id before with
  | nil => cases h
  | group _ rest ih =>
    obtain ⟨hparent, hfirst, hstop⟩ := ih h
    rw [groups, List.length_cons]
    exact ⟨hparent, by omega, by omega⟩
  | node kind name below rest _ ih =>
    rw [groups, List.length_append]
    rcases List.mem_cons.1 h with rfl | h
    · refine ⟨rfl, Nat.le_refl _, ?_⟩
      show before + below.groups.length ≤ _
      omega
    · obtain ⟨hparent, hfirst, hstop⟩ := ih h
      exact ⟨hparent, by omega, by omega⟩

/-- The nodes at the top cover groups one after the other. -/
theorem tops_ordered (f : Forest) (parent id before : Nat) :
    (f.tops parent id before).Pairwise fun p q => p.stopGroup ≤ q.firstGroup := by
  induction f generalizing id before with
  | nil => exact List.Pairwise.nil
  | group _ rest ih => exact ih ..
  | node kind name below rest _ ih =>
    refine List.pairwise_cons.2 ⟨fun q hq => ?_, ih ..⟩
    exact (of_mem_tops hq).2.1

/-- The numbers of the nodes at the top are numbers of the forest. -/
theorem of_mem_ids {f : Forest} {id c : Nat} (h : c ∈ f.ids id) : id ≤ c ∧ c < id + f.size := by
  induction f generalizing id with
  | nil => cases h
  | group _ rest ih => exact ih h
  | node kind name below rest _ ih =>
    rw [size]
    rcases List.mem_cons.1 h with rfl | h
    · omega
    · have := ih h
      omega

/-- The numbers of the nodes at the top are in order. -/
theorem ids_ordered (f : Forest) (id : Nat) : (f.ids id).Pairwise (· < ·) := by
  induction f generalizing id with
  | nil => exact List.Pairwise.nil
  | group _ rest ih => exact ih ..
  | node kind name below rest _ ih =>
    refine List.pairwise_cons.2 ⟨fun c hc => ?_, ih ..⟩
    have := of_mem_ids hc
    omega

/-! ### The nodes of a forest -/

/-- Below every node stand the placements of its forest, and it covers its groups. -/
theorem place_below {f : Forest} {parent id before p : Nat} {nodes : List Placement}
    {q : Placement} (h : StandsAt nodes id (f.place parent id before)) (hge : id ≤ p)
    (hlt : p < id + f.size) (hq : nodes[p]? = some q) :
    q.children = q.tree.below.ids (p + 1) ∧
      StandsAt nodes (p + 1) (q.tree.below.place p (p + 1) q.firstGroup) ∧
      ∃ l r, f.groups = l ++ q.tree.groups ++ r ∧ q.firstGroup = before + l.length := by
  induction f generalizing parent id before with
  | nil => exact absurd hlt (Nat.not_lt.2 hge)
  | group g rest ih =>
    obtain ⟨hchildren, hbelow, l, r, hgroups, hfirst⟩ := ih h hge hlt
    refine ⟨hchildren, hbelow, g :: l, r, ?_, ?_⟩
    · rw [groups, hgroups]
      rfl
    · rw [hfirst, List.length_cons]
      omega
  | node kind name below rest ihbelow ihrest =>
    have hin := h.tail.left
    have hrest := h.tail.right
    rw [place_length] at hrest
    rw [size] at hlt
    by_cases heq : p = id
    · subst heq
      obtain rfl := Option.some.inj (h.head.symm.trans hq)
      exact ⟨rfl, hin, [], rest.groups, rfl, rfl⟩
    · by_cases hinside : p < id + 1 + below.size
      · obtain ⟨hchildren, hsub, l, r, hgroups, hfirst⟩ := ihbelow hin (by omega) hinside
        refine ⟨hchildren, hsub, l, r ++ rest.groups, ?_, hfirst⟩
        rw [groups, hgroups, List.append_assoc, List.append_assoc]
      · obtain ⟨hchildren, hsub, l, r, hgroups, hfirst⟩ := ihrest hrest (by omega) (by omega)
        refine ⟨hchildren, hsub, below.groups ++ l, r, ?_, ?_⟩
        · rw [groups, hgroups, List.append_assoc, List.append_assoc, List.append_assoc]
        · rw [hfirst, List.length_append, Nat.add_assoc]

/-- Every node is at the top, or among the children of a node before it. -/
theorem place_parent {f : Forest} {parent id before p : Nat} {nodes : List Placement}
    {q : Placement} (h : StandsAt nodes id (f.place parent id before)) (hge : id ≤ p)
    (hlt : p < id + f.size) (hq : nodes[p]? = some q) :
    q.parent = some parent ∧ p ∈ f.ids id ∨
      ∃ i m, i < p ∧ nodes[i]? = some m ∧ q.parent = some i ∧ p ∈ m.children := by
  induction f generalizing parent id before with
  | nil => exact absurd hlt (Nat.not_lt.2 hge)
  | group g rest ih => exact ih h hge hlt
  | node kind name below rest ihbelow ihrest =>
    have hin := h.tail.left
    have hrest := h.tail.right
    rw [place_length] at hrest
    rw [size] at hlt
    by_cases heq : p = id
    · subst heq
      obtain rfl := Option.some.inj (h.head.symm.trans hq)
      exact Or.inl ⟨rfl, List.mem_cons_self⟩
    · by_cases hinside : p < id + 1 + below.size
      · right
        rcases ihbelow hin (by omega) hinside with ⟨hparent, hmem⟩ | hdeep
        · exact ⟨id, _, by omega, h.head, hparent, hmem⟩
        · exact hdeep
      · rcases ihrest hrest (by omega) (by omega) with ⟨hparent, hmem⟩ | hdeep
        · exact Or.inl ⟨hparent, List.mem_cons_of_mem _ hmem⟩
        · exact Or.inr hdeep

end Forest

/-! ### The nodes of a tree -/

namespace SyntaxTree

variable {t : SyntaxTree} {p : Nat} {q : Placement}

theorem placements_zero (t : SyntaxTree) : t.placements[0]? =
    some { tree := t, parent := none, children := t.below.ids 1, firstGroup := 0 } :=
  rfl

theorem standsAt_placements (t : SyntaxTree) :
    StandsAt t.placements 1 (t.below.place 0 1 0) :=
  List.prefix_refl _

theorem lt_size (hq : t.placements[p]? = some q) : p < t.size := by
  rw [← t.placements_length]
  exact (List.getElem?_eq_some_iff.1 hq).1

/-- Below every node stand the placements of its forest, and it covers its groups. -/
theorem placements_below (hq : t.placements[p]? = some q) :
    q.children = q.tree.below.ids (p + 1) ∧
      StandsAt t.placements (p + 1) (q.tree.below.place p (p + 1) q.firstGroup) ∧
      ∃ l r, t.groups = l ++ q.tree.groups ++ r ∧ q.firstGroup = l.length := by
  have hlt := lt_size hq
  rw [size] at hlt
  cases p with
  | zero =>
    obtain rfl := Option.some.inj (t.placements_zero.symm.trans hq)
    exact ⟨rfl, t.standsAt_placements, [], [], (List.append_nil _).symm, rfl⟩
  | succ p =>
    obtain ⟨hchildren, hbelow, l, r, hgroups, hfirst⟩ :=
      Forest.place_below t.standsAt_placements (by omega) hlt hq
    exact ⟨hchildren, hbelow, l, r, hgroups, by rw [hfirst, Nat.zero_add]⟩

/-- The children of a node are the nodes at the top of its forest. -/
theorem placements_children (hq : t.placements[p]? = some q) :
    q.children.map (fun c => t.placements[c]?) =
      (q.tree.below.tops p (p + 1) q.firstGroup).map some := by
  obtain ⟨hchildren, hbelow, -⟩ := placements_below hq
  rw [hchildren]
  exact Forest.ids_lookup hbelow

/-- Every node but the first is among the children of its parent, which comes before it. -/
theorem placements_parent (hq : t.placements[p]? = some q) (hp : p ≠ 0) :
    ∃ i m, i < p ∧ t.placements[i]? = some m ∧ q.parent = some i ∧ p ∈ m.children := by
  have hlt := lt_size hq
  rw [size] at hlt
  rcases Forest.place_parent t.standsAt_placements (by omega) hlt hq with ⟨hparent, hmem⟩ | hdeep
  · exact ⟨0, _, by omega, t.placements_zero, hparent, hmem⟩
  · exact hdeep

/-- The children of a node are nodes after it that name it as their parent. -/
theorem of_mem_children (hq : t.placements[p]? = some q) {c : Nat} (hc : c ∈ q.children) :
    ∃ x, t.placements[c]? = some x ∧ x ∈ q.tree.below.tops p (p + 1) q.firstGroup := by
  have hmem := List.mem_map_of_mem (f := fun c => t.placements[c]?) hc
  rw [placements_children hq] at hmem
  obtain ⟨x, hx, heq⟩ := List.mem_map.1 hmem
  exact ⟨x, heq.symm, hx⟩

/-- Every child of a tree has a placement. -/
theorem exists_placement_of_mem_children {child : SyntaxTree} (h : child ∈ t.children) :
    ∃ q ∈ t.placements, q.tree = child := by
  have hplace (f : Forest) (parent id before : Nat) (hf : child ∈ f.trees) :
      ∃ q ∈ f.place parent id before, q.tree = child := by
    induction f generalizing parent id before with
    | nil => cases hf
    | group _ rest ih => exact ih parent id (before + 1) hf
    | node kind name below rest _ ih =>
      rcases List.mem_cons.1 hf with rfl | hf
      · exact ⟨_, List.mem_cons_self, rfl⟩
      · obtain ⟨q, hq, htree⟩ := ih parent (id + 1 + below.size) (before + below.groups.length) hf
        exact ⟨q, List.mem_cons_of_mem _ (List.mem_append_right _ hq), htree⟩
  obtain ⟨q, hq, htree⟩ := hplace t.below 0 1 0 h
  exact ⟨q, List.mem_cons_of_mem _ hq, htree⟩

end SyntaxTree
end SqlDoc

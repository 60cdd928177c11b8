/-
# A builder makes the table of a tree

While a rule is carried out the rows of a builder are those of the nodes that are closed, and one
for each node that is open, with the children it has so far (`TreeBuilder.opening`). Each step of a
rule keeps this, however the rule goes on, so that closing the first node leaves the table of the
tree that running the rule gives (`buildSql_eq`).

Key definitions: `TreeBuilder.opening`, `SameEnd`, `GrammarRule.OnlyLooks`.
Key theorems: `TreeBuilder.opening_start`, `TreeBuilder.opening_finish`, `sameEnd_of_build`,
`buildSql_eq`, `buildSql_tables`.
-/
import SqlDoc.Proofs.Syntax.Table
import SqlDoc.Syntax.Builder

namespace SqlDoc

/-! ### The open node -/

/-- The row of an open node. It covers nothing until it is closed. -/
def OpenNode.row (n : OpenNode) (parent : Option Nat) (id before : Nat) : NodeRow where
  kind := n.kind
  name := n.name
  parent
  children := n.below.ids (id + 1)
  firstGroup := before
  stopGroup := before

namespace OpenNode

variable (n child : OpenNode) (g : SqlGroup)

theorem groups_addGroup : (n.addGroup g).below.groups = n.below.groups ++ [g] :=
  Forest.groups_append ..

theorem place_addGroup (parent id before : Nat) :
    (n.addGroup g).below.place parent id before = n.below.place parent id before := by
  rw [addGroup, Forest.place_append]
  exact List.append_nil _

theorem row_addGroup (parent : Option Nat) (id before : Nat) :
    (n.addGroup g).row parent id before = n.row parent id before := by
  rw [row, addGroup, Forest.ids_append, Forest.ids, Forest.ids, List.append_nil, row]

theorem groups_addNode :
    (n.addNode child).below.groups = n.below.groups ++ child.below.groups := by
  rw [addNode, Forest.groups_append, Forest.groups, Forest.groups, List.append_nil]

theorem row_addNode (parent : Option Nat) (id before : Nat) :
    (n.addNode child).row parent id before =
      { n.row parent id before with
        children := n.below.ids (id + 1) ++ [id + 1 + n.below.size] } := by
  rw [row, addNode, Forest.ids_append]
  rfl

/-- A closed node is placed after the nodes before it, and then the nodes below it are. -/
theorem place_addNode (parent id before : Nat) :
    ((n.addNode child).below.place parent id before).map Placement.row =
      (n.below.place parent id before).map Placement.row ++
        { child.row (some parent) (id + n.below.size) (before + n.below.groups.length) with
          stopGroup := before + n.below.groups.length + child.below.groups.length } ::
        (child.below.place (id + n.below.size) (id + n.below.size + 1)
          (before + n.below.groups.length)).map Placement.row := by
  rw [addNode, Forest.place_append, List.map_append, Forest.place, Forest.place, List.append_nil]
  rfl

end OpenNode

theorem modify_at_length {α : Type} (before after : List α) (x : α) (f : α → α) :
    (before ++ x :: after).modify before.length f = before ++ f x :: after := by
  induction before with
  | nil => rfl
  | cons y before ih => rw [List.cons_append, List.length_cons, List.modify_succ_cons, ih]; rfl

namespace TreeBuilder

/-- The builder with `n` open below the node opened last: its row, the rows of the nodes below it
and its groups. -/
def opening (b : TreeBuilder) (n : OpenNode) : TreeBuilder where
  nodes := b.nodes ++ n.row b.opened.head? b.nodes.length b.groups.length ::
    (n.below.place b.nodes.length (b.nodes.length + 1) b.groups.length).map Placement.row
  groups := b.groups ++ n.below.groups
  opened := b.nodes.length :: b.opened

variable (b : TreeBuilder) (n : OpenNode)

theorem opening_modifyOpen (f : NodeRow → NodeRow) :
    (b.opening n).modifyOpen f =
      { b.opening n with
        nodes := b.nodes ++ f (n.row b.opened.head? b.nodes.length b.groups.length) ::
          (n.below.place b.nodes.length (b.nodes.length + 1) b.groups.length).map
            Placement.row } := by
  show ({ b.opening n with nodes := (b.opening n).nodes.modify b.nodes.length f } : TreeBuilder) = _
  rw [opening, modify_at_length]

theorem opening_setKind (kind : NodeKind) :
    (b.opening n).setKind kind = b.opening { n with kind } :=
  b.opening_modifyOpen n _

theorem opening_setName (name : Name) :
    (b.opening n).setName name = b.opening { n with name := some name } :=
  b.opening_modifyOpen n _

/-- A group that is added goes to the open node. -/
theorem opening_pushGroup (g : SqlGroup) :
    (b.opening n).pushGroup g = b.opening (n.addGroup g) := by
  ext1
  · show _ = b.nodes ++ (n.addGroup g).row _ _ _ :: _
    rw [OpenNode.row_addGroup, OpenNode.place_addGroup]
    rfl
  · show (b.groups ++ n.below.groups) ++ [g] = b.groups ++ (n.addGroup g).below.groups
    rw [OpenNode.groups_addGroup, List.append_assoc]
  · rfl

/-- The builder before a node is opened, with the number of that node among the children of the node
opened last. -/
def expecting : TreeBuilder :=
  b.modifyOpen fun row => { row with children := row.children ++ [b.nodes.length] }

theorem length_opening_nodes : (b.opening n).nodes.length = b.nodes.length + 1 + n.below.size := by
  rw [opening, List.length_append, List.length_cons, List.length_map, Forest.place_length]
  omega

theorem length_expecting_nodes :
    (b.opening n).expecting.nodes.length = (b.opening n).nodes.length :=
  List.length_modify ..

/-- The row of the open node is what it is when a node has been closed below it. -/
theorem expecting_nodes (child : OpenNode) :
    (b.opening n).expecting.nodes =
      b.nodes ++ (n.addNode child).row b.opened.head? b.nodes.length b.groups.length ::
        (n.below.place b.nodes.length (b.nodes.length + 1) b.groups.length).map Placement.row := by
  rw [expecting, opening_modifyOpen, length_opening_nodes, OpenNode.row_addNode]
  rfl

/-- Opening a node opens it below the open node. -/
theorem opening_start (kind : NodeKind) :
    (b.opening n).start kind = (b.opening n).expecting.opening { kind } := by
  ext1
  · show ((b.opening n).nodes ++ [_]).modify b.nodes.length _ =
      (b.opening n).expecting.nodes ++
        [OpenNode.row { kind } _ (b.opening n).expecting.nodes.length _]
    rw [length_expecting_nodes, b.expecting_nodes n { kind }, OpenNode.row_addNode, opening,
      List.append_assoc, List.cons_append, modify_at_length, ← opening, length_opening_nodes,
      List.append_assoc]
    rfl
  · exact (List.append_nil _).symm
  · exact congrArg (· :: (b.opening n).opened) (b.length_expecting_nodes n).symm

/-- A node that is closed stands below the node around it. -/
theorem opening_finish (child : OpenNode) :
    ((b.opening n).expecting.opening child).finish = b.opening (n.addNode child) := by
  have hbefore : (b.opening n).expecting.groups.length = b.groups.length + n.below.groups.length :=
    List.length_append
  have hafter : ((b.opening n).expecting.opening child).groups.length =
      b.groups.length + n.below.groups.length + child.below.groups.length := by
    rw [← hbefore]
    exact List.length_append
  ext1
  · show ((b.opening n).expecting.nodes ++ _ :: _).modify (b.opening n).expecting.nodes.length
      (fun row =>
        { row with stopGroup := ((b.opening n).expecting.opening child).groups.length }) =
      b.nodes ++ _ :: _
    rw [modify_at_length, hafter, length_expecting_nodes, length_opening_nodes, hbefore,
      b.expecting_nodes n child, OpenNode.place_addNode, List.append_assoc, List.cons_append]
    rfl
  · show (b.groups ++ n.below.groups) ++ _ = b.groups ++ _
    rw [OpenNode.groups_addNode, List.append_assoc]
  · rfl

/-- Closing the first node that was opened leaves the table of its tree. -/
theorem build_finish_opening : (opening {} n).finish.build = n.toTree.table := by
  have hstop : 0 + n.below.groups.length = (opening {} n).groups.length :=
    (Nat.zero_add _).trans rfl
  show _ = NodeTable.mk ({ n.row none 0 0 with stopGroup := 0 + n.below.groups.length } :: _) _
  rw [hstop]
  rfl

end TreeBuilder

/-! ### Rules carried out -/

/-- The place that `s` has come to, with a builder. -/
def ParseState.beside (s : ParseState) (tree : TreeBuilder) : BuildState where
  stream := s.stream
  started := s.started
  stop := s.stop
  tree

/-- The place that `s` has come to, with a builder that has the same node open inside `b`. -/
def ParseState.building (s : ParseState) (b : TreeBuilder) : BuildState :=
  s.beside (b.opening s.current)

/-- Running a rule and carrying it out with a builder end alike: with the same result and the same
node open, or with the same error. -/
inductive SameEnd {α : Type} (b : TreeBuilder) :
    Except SyntaxError α × ParseState → Except SyntaxError α × BuildState → Prop where
  | ok (a : α) (s : ParseState) : SameEnd b (.ok a, s) (.ok a, s.building b)
  | error (e : SyntaxError) (s : ParseState) (built : BuildState)
    (h : built.stream = s.stream) : SameEnd b (.error e, s) (.error e, built)

theorem beside_startsLine (s : ParseState) (tree : TreeBuilder) (n : Nat) :
    (s.beside tree).startsLine n = ((s.startsLine n).1, (s.startsLine n).2.beside tree) := by
  unfold BuildState.startsLine ParseState.startsLine
  show (if n = 0 ∧ !s.started then _ else _) = _
  split
  · rfl
  · rfl

theorem building_bump (s : ParseState) (b : TreeBuilder) :
    (s.building b).bump = s.bump.building b := by
  unfold BuildState.bump ParseState.bump
  have hstream : (s.building b).stream.next = s.stream.next := rfl
  rw [hstream]
  cases s.stream.next with
  | mk group stream =>
    cases group with
    | none => rfl
    | some group =>
      exact congrArg (BuildState.mk stream true group.span.stop)
        (b.opening_pushGroup s.current group)

theorem building_start (s : ParseState) (b : TreeBuilder) (kind : NodeKind) :
    (s.building b).start kind =
      ParseState.building { s with current := { kind } } (b.opening s.current).expecting :=
  congrArg (BuildState.mk s.stream s.started s.stop) (b.opening_start s.current kind)

theorem building_finish (s inner : ParseState) (b : TreeBuilder) :
    (inner.building (b.opening s.current).expecting).finish =
      ParseState.building { inner with current := s.current.addNode inner.current } b :=
  congrArg (BuildState.mk inner.stream inner.started inner.stop)
    (b.opening_finish s.current inner.current)

/-- Whatever rule is carried out, the builder keeps up with the run. -/
theorem sameEnd_of_build {α : Type} (r : GrammarRule α) (s : ParseState) (b : TreeBuilder) :
    SameEnd b (r.run s) (r.build (s.building b)) := by
  induction r generalizing s b with
  | done a => exact .ok a s
  | missing => exact .error _ _ _ rfl
  | look n next ih => exact ih _ (s.key n).2 b
  | lineStart n next ih =>
    have hnext := ih (s.startsLine n).1 (s.startsLine n).2 b
    rw [ParseState.building, ParseState.startsLine_current] at hnext
    rw [GrammarRule.build, ParseState.building, beside_startsLine]
    exact hnext
  | remaining next ih => exact ih _ s b
  | bump next ih =>
    rw [GrammarRule.build, building_bump]
    exact ih s.bump b
  | node kind inside next ihinside ihnext =>
    have hinside := ihinside { s with current := { kind } } (b.opening s.current).expecting
    rw [GrammarRule.build, GrammarRule.run, building_start]
    generalize inside.run { s with current := { kind } } = ran at hinside ⊢
    generalize inside.build _ = built at hinside ⊢
    cases hinside with
    | ok a inner =>
      dsimp only
      rw [building_finish]
      exact ihnext a _ b
    | error e inner built h => exact .error e inner built.finish h
  | setName name next ih =>
    have hnext := ih { s with current := { s.current with name := some name } } b
    rw [ParseState.building, ← TreeBuilder.opening_setName] at hnext
    exact hnext
  | setKind kind next ih =>
    have hnext := ih { s with current := { s.current with kind } } b
    rw [ParseState.building, ← TreeBuilder.opening_setKind] at hnext
    exact hnext
  | within construct inside next ihinside ihnext =>
    have hinside := ihinside s b
    rw [GrammarRule.build, GrammarRule.run]
    generalize inside.run s = ran at hinside ⊢
    generalize inside.build (s.building b) = built at hinside ⊢
    cases hinside with
    | ok a inner => exact ihnext a inner b
    | error e inner built h => exact .error _ inner built h

/-! ### Rules that only look -/

namespace GrammarRule

/-- The rule looks ahead and comes to a result. -/
def OnlyLooks {α : Type} : GrammarRule α → Prop
  | done _ => True
  | look _ next => ∀ seen, (next seen).OnlyLooks
  | lineStart _ next => ∀ b, (next b).OnlyLooks
  | remaining next => ∀ n, (next n).OnlyLooks
  | _ => False

namespace OnlyLooks

theorem bind {α β : Type} {r : GrammarRule α} {f : α → GrammarRule β} (h : r.OnlyLooks)
    (hf : ∀ a, (f a).OnlyLooks) : (r.bind f).OnlyLooks := by
  induction r with
  | done a => exact hf a
  | look n next ih => exact fun seen => ih seen (h seen) hf
  | lineStart n next ih => exact fun b => ih b (h b) hf
  | remaining next ih => exact fun n => ih n (h n) hf
  | missing => exact h.elim
  | bump => exact h.elim
  | node => exact h.elim
  | setName => exact h.elim
  | setKind => exact h.elim
  | within => exact h.elim

theorem at? (n : Nat) (p : Glance → Bool) : (at? n p).OnlyLooks :=
  fun _ => trivial

theorem and {r₁ r₂ : GrammarRule Bool} (h₁ : r₁.OnlyLooks) (h₂ : r₂.OnlyLooks) :
    (r₁ <&&> r₂).OnlyLooks := by
  refine h₁.bind fun b => ?_
  cases b with
  | false => trivial
  | true => exact h₂

theorem or {r₁ r₂ : GrammarRule Bool} (h₁ : r₁.OnlyLooks) (h₂ : r₂.OnlyLooks) :
    (r₁ <||> r₂).OnlyLooks := by
  refine h₁.bind fun b => ?_
  cases b with
  | false => exact h₂
  | true => trivial

theorem ite {α : Type} {c : Prop} [Decidable c] {r₁ r₂ : GrammarRule α} (h₁ : r₁.OnlyLooks)
    (h₂ : r₂.OnlyLooks) : (if c then r₁ else r₂).OnlyLooks := by
  split
  · exact h₁
  · exact h₂

theorem atTerminator (n : Nat) : (atTerminator n).OnlyLooks :=
  and (at? ..) (and (fun _ => trivial) (or (fun _ => trivial) fun _ => trivial))

theorem createOffset : createOffset.OnlyLooks := by
  refine bind (and (at? ..) (at? ..)) fun _ => ?_
  exact bind (at? ..) fun _ => trivial

theorem unitKind (n : Nat) (isBody : Bool) : (unitKind n isBody).OnlyLooks := by
  refine bind (at? ..) fun _ => ite trivial ?_
  refine bind (at? ..) fun _ => ite trivial ?_
  refine bind (at? ..) fun _ => ite trivial ?_
  exact bind (at? ..) fun _ => ite trivial trivial

/-- Telling what the next statement is takes nothing. -/
theorem statementForm : statementForm.OnlyLooks := by
  refine bind (at? ..) fun _ => ite ?_ ?_
  · exact bind createOffset fun _ => bind (at? ..) fun _ => bind (unitKind ..) fun _ => trivial
  · refine bind (or (atTerminator ..) (at? ..)) fun _ => ite trivial ?_
    exact bind (or (at? ..) (at? ..)) fun _ => ite trivial trivial

end OnlyLooks

/-- After `r` comes what its result calls for, unless it gives up. -/
theorem build_bind {α β : Type} (r : GrammarRule α) (f : α → GrammarRule β) (s : BuildState) :
    (r.bind f).build s =
      match r.build s with
      | (.ok a, s) => (f a).build s
      | (.error e, s) => (.error e, s) := by
  induction r generalizing s with
  | done => rfl
  | missing => rfl
  | look n next ih => exact ih ..
  | lineStart n next ih => exact ih ..
  | remaining next ih => exact ih ..
  | bump next ih => exact ih ..
  | node kind inside next _ ih =>
    simp only [bind, build]
    cases inside.build (s.start kind) with
    | mk result inner =>
      cases result with
      | ok b => exact ih ..
      | error e => rfl
  | setName name next ih => exact ih ..
  | setKind kind next ih => exact ih ..
  | within construct inside next _ ih =>
    simp only [bind, build]
    cases inside.build s with
    | mk result inner =>
      cases result with
      | ok b => exact ih ..
      | error e => rfl

/-- A rule that only looks comes to the same result with a builder, whatever nodes that has. -/
theorem OnlyLooks.build_eq {α : Type} {r : GrammarRule α} (h : r.OnlyLooks) (s : ParseState)
    (tree : TreeBuilder) : ∃ a next, r.run s = (.ok a, next) ∧ next.current = s.current ∧
      r.build (s.beside tree) = (.ok a, next.beside tree) := by
  induction r generalizing s with
  | done a => exact ⟨a, s, rfl, rfl, rfl⟩
  | look n next ih => exact ih _ (h _) (s.key n).2
  | lineStart n next ih =>
    obtain ⟨a, last, hrun, hcurrent, hbuild⟩ := ih _ (h _) (s.startsLine n).2
    rw [ParseState.startsLine_current] at hcurrent
    rw [build, beside_startsLine]
    exact ⟨a, last, hrun, hcurrent, hbuild⟩
  | remaining next ih => exact ih _ (h _) s
  | missing => exact h.elim
  | bump => exact h.elim
  | node => exact h.elim
  | setName => exact h.elim
  | setKind => exact h.elim
  | within => exact h.elim

end GrammarRule

/-! ### Statements -/

/-- Carrying out the rule for a statement opens and closes one node, with what running it reads. -/
theorem build_statementNode (s : ParseState) :
    match GrammarRule.statement.run s.openNode with
    | (.ok _, next) =>
      GrammarRule.statementNode.build (s.beside {}) = (.ok (), (next.building {}).finish)
    | (.error e, next) => ∃ built, built.stream = next.stream ∧
      GrammarRule.statementNode.build (s.beside {}) = (.error e, built) := by
  obtain ⟨form, next, hrun, hcurrent, hbuild⟩ :=
    GrammarRule.OnlyLooks.statementForm.build_eq s.openNode {}
  let opened : ParseState := { next with current := { kind := form.kind } }
  have hstatement : GrammarRule.statement.run s.openNode =
      (GrammarRule.statementInside form).run opened := by
    show (GrammarRule.statementForm.bind _).run _ = _
    rw [GrammarRule.run_bind, hrun]
    show (GrammarRule.statementInside form).run
      { next with current := { next.current with kind := form.kind } } = _
    rw [hcurrent]
    rfl
  have hnode : GrammarRule.statementNode.build (s.beside {}) =
      (GrammarRule.node form.kind (GrammarRule.statementInside form) .done).build
        (next.beside {}) := by
    show (GrammarRule.statementForm.bind _).build (s.openNode.beside {}) = _
    rw [GrammarRule.build_bind, hbuild]
  have hend : SameEnd {} _
      ((GrammarRule.statementInside form).build ((next.beside {}).start form.kind)) :=
    sameEnd_of_build (GrammarRule.statementInside form) opened {}
  rw [hstatement, hnode, GrammarRule.build]
  generalize (GrammarRule.statementInside form).run opened = ran at hend ⊢
  generalize (GrammarRule.statementInside form).build _ = built at hend ⊢
  cases hend with
  | ok a last => rfl
  | error e last built h => exact ⟨built.finish, h, rfl⟩

/-- Reading statements into tables gives the tables of the trees, and ends with the same error. -/
theorem tablesUpTo_eq (n : Nat) (s : ParseState) :
    (s.beside {}).tablesUpTo n =
      { tables := (s.statementsUpTo n).trees.map SyntaxTree.table
        error := (s.statementsUpTo n).error } := by
  induction n generalizing s with
  | zero => rfl
  | succ n ih =>
    rw [BuildState.tablesUpTo, ParseState.statementsUpTo]
    have hkey : (s.beside {}).key 0 = ((s.key 0).1, (s.key 0).2.beside {}) := rfl
    rw [hkey]
    cases s.key 0 with
    | mk key s =>
      cases key with
      | none => rfl
      | some key =>
        dsimp only
        have hnode := build_statementNode s
        generalize GrammarRule.statement.run s.openNode = ran at hnode ⊢
        obtain ⟨result, next⟩ := ran
        cases result with
        | error e =>
          obtain ⟨built, hstream, hbuild⟩ := hnode
          rw [hbuild]
          dsimp only
          rw [hstream]
          rfl
        | ok =>
          have hbuild : GrammarRule.statementNode.build (s.beside {}) =
            (.ok (), (next.building {}).finish) := hnode
          rw [hbuild]
          show { BuildState.tablesUpTo n (next.beside {}) with
            tables := (TreeBuilder.opening {} next.current).finish.build ::
              (BuildState.tablesUpTo n (next.beside {})).tables } = _
          rw [ih, TreeBuilder.build_finish_opening]
          rfl

theorem buildSql_eq (source : String) (filename : Option String) :
    buildSql source filename =
      { tables := (parseSql source filename).trees.map SyntaxTree.table
        error := (parseSql source filename).error } :=
  tablesUpTo_eq _ (ParseState.ofLexed (lexSql source filename))

/-- The tables that are built while a script is read are the tables of its trees. Their parts fit
together, so whatever is read from them under the number of a node is there. -/
theorem buildSql_tables (source : String) (filename : Option String) :
    (buildSql source filename).tables = (parseSql source filename).trees.map SyntaxTree.table ∧
      ∀ table ∈ (buildSql source filename).tables, table.WellFormed ∧
        ∀ id < table.nodes.length, (table.groups? id).isSome ∧ (table.text? id).isSome ∧
          (table.header? id).isSome ∧ (table.span? id).isSome ∧ (table.outline? id).isSome := by
  have htables : (buildSql source filename).tables =
      (parseSql source filename).trees.map SyntaxTree.table := by
    rw [buildSql_eq]
  refine ⟨htables, fun table htable => ?_⟩
  rw [htables] at htable
  obtain ⟨t, -, rfl⟩ := List.mem_map.1 htable
  refine ⟨t.table_wellFormed, fun id hid => ?_⟩
  rw [SyntaxTree.length_table_nodes, ← t.placements_length] at hid
  have hq := List.getElem?_eq_getElem hid
  rw [SyntaxTree.table_groups? hq, SyntaxTree.table_text? hq, SyntaxTree.table_header? hq,
    SyntaxTree.table_span? hq, SyntaxTree.table_outline? hq]
  exact ⟨rfl, rfl, rfl, rfl, rfl⟩

end SqlDoc

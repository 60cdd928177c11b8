/-
# Which nodes a comment stands in front of

A comment stands in front of every node that begins with the group after it: of a declaration, and
of the identifier that the declaration begins with. Among the nodes that have records it stands in
front of one at most. A list of parameters begins with its parenthesis, and what may hold other
declarations begins with a keyword, so a group is always taken before a node inside begins.

For a rule that reads the inside of a node this says that what it adds leaves out the comments of
its first group (`GrammarRule.Spares 1`): those are the comments of the node around it.

Key definitions: `Forest.recorded`, `Forest.Spares`, `GrammarRule.Spares`.
Key theorems: `Forest.Fits.spares`, `Spares.follow`, `Spares.node`, `spares_statement`,
`parseTokens_spares`.
-/
import Mathlib.Data.List.Flatten
import SqlDoc.Proofs.Context.Recording
import SqlDoc.Proofs.Syntax.Putting

namespace SqlDoc

/-! ### Comments in front of nodes -/

/-- The documentation comments in front of groups. -/
def docsOf (groups : List SqlGroup) : List SqlToken :=
  groups.flatMap fun g => g.leading.filter (·.kind = .docComment)

namespace Forest

/-- The nodes that have a record, each before those inside it. -/
def recorded : Forest → List SyntaxTree
  | nil => []
  | group _ rest => rest.recorded
  | node kind name below rest =>
    (if kind.isRecorded then [⟨kind, name, below⟩] else []) ++ below.recorded ++ rest.recorded

/-- The documentation comments in front of the nodes that have a record. -/
def docs (f : Forest) : List SqlToken :=
  f.recorded.flatMap (·.docComments)

/-- The comments in front of the nodes that have a record are, in order, among those in front of the
groups after the first `n`. -/
def Spares (n : Nat) (f : Forest) : Prop :=
  f.docs.Sublist (docsOf (f.groups.drop n))

variable {f g below : Forest} {n : Nat}

@[simp] theorem recorded_append : (f.append g).recorded = f.recorded ++ g.recorded := by
  induction f with
  | nil => rfl
  | group _ rest ih => exact ih
  | node kind name below rest _ ih => simp [append, recorded, ih]

@[simp] theorem docs_append : (f.append g).docs = f.docs ++ g.docs := by
  simp [docs]

theorem length_sites (f : Forest) (id : Nat) :
    (f.sites NodeKind.isRecorded id).length = f.recorded.length := by
  induction f generalizing id with
  | nil => rfl
  | group _ rest ih => exact ih id
  | node kind name below rest ihbelow ihrest =>
    by_cases hkind : kind.isRecorded = true <;> simp [sites, recorded, hkind, ihbelow, ihrest]

namespace Spares

theorem of_recorded (h : f.recorded = []) : f.Spares n := by
  rw [Spares, docs, h]
  exact List.nil_sublist _

theorem append (hf : f.Spares n) (hg : g.Spares n) : (f.append g).Spares n := by
  have hmore : (f.groups.drop n ++ g.groups.drop n).Sublist ((f.append g).groups.drop n) := by
    rw [groups_append, List.drop_append]
    exact List.Sublist.append_left (List.drop_sublist_drop_left _ (Nat.sub_le ..)) _
  rw [Spares, docs_append]
  refine (List.Sublist.append hf hg).trans ?_
  rw [docsOf, docsOf, ← List.flatMap_append]
  exact hmore.flatMap _

/-- What comes after a group leaves out the comments in front of that. -/
theorem follow (hf : f.Spares 1) (hne : f.groups ≠ []) (hg : g.Spares 0) :
    (f.append g).Spares 1 := by
  have hdrop : (f.append g).groups.drop 1 = f.groups.drop 1 ++ g.groups := by
    rw [groups_append, List.drop_append_of_le_length (List.length_pos_iff.2 hne)]
  rw [Spares, docs_append, hdrop, docsOf, List.flatMap_append]
  exact List.Sublist.append hf hg

/-- The comments of a node are those in front of its first group, which its inside leaves out. -/
theorem node (h : below.Spares 1) (kind : NodeKind) (name : Option Name) :
    (Forest.node kind name below .nil).Spares 0 := by
  have hown : (if kind.isRecorded then [(⟨kind, name, below⟩ : SyntaxTree)] else []).flatMap
      (·.docComments) |>.Sublist (docsOf (below.groups.take 1)) := by
    split
    · cases hgroups : below.groups with
      | nil => simp [SyntaxTree.docComments, SyntaxTree.leadingTrivia, SyntaxTree.groups, hgroups]
      | cons g rest =>
        simp [SyntaxTree.docComments, SyntaxTree.leadingTrivia, SyntaxTree.groups, hgroups, docsOf]
    · exact List.nil_sublist _
  have hgroups : (Forest.node kind name below .nil).groups =
      below.groups.take 1 ++ below.groups.drop 1 := by
    rw [List.take_append_drop]
    exact List.append_nil _
  rw [Spares, List.drop_zero, hgroups, docsOf, List.flatMap_append, docs, recorded, recorded,
    List.append_nil, List.flatMap_append]
  exact List.Sublist.append hown h

/-- Of a node that has no record nothing has to be left out. -/
theorem unrecorded {kind : NodeKind} (hkind : kind.isRecorded = false) (name : Option Name)
    (h : below.Spares 0) : (Forest.node kind name below .nil).Spares 0 := by
  have hrecorded : (Forest.node kind name below .nil).recorded = below.recorded := by
    simp [recorded, hkind]
  have hgroups : (Forest.node kind name below .nil).groups = below.groups := List.append_nil _
  rw [Spares, docs, hrecorded, hgroups]
  exact h

theorem group (g : SqlGroup) {rest : Forest} (h : rest.Spares 0) :
    (Forest.group g rest).Spares 0 :=
  List.Sublist.trans h (List.sublist_append_right ..)

end Spares
end Forest

/-! ### Nodes that hold no declarations with parts -/

/-- A node of the kind holds no packages' or types' members. -/
def NodeKind.isFlat : NodeKind → Bool
  | createUnit .package | createUnit .objectType => false
  | _ => true

/-- What holds no members holds lists of parameters and what holds nothing but pieces. -/
theorem NodeKind.mayHold_of_isFlat {kind child : NodeKind} (hflat : kind.isFlat)
    (h : kind.mayHold child) : child = .parameterList ∨ ∀ piece, child.mayHold piece = false := by
  cases kind with
  | createUnit unit =>
    cases unit with
    | package | objectType => cases hflat
    | packageBody | typeBody =>
      obtain rfl : child = .body := of_decide_eq_true h
      exact .inr fun _ => rfl
    | procedure | function =>
      have h : child = .parameterList ∨ child = .body := by simpa [mayHold] using h
      exact h.imp id (by rintro rfl _; rfl)
  | method => exact .inl (of_decide_eq_true h)
  | parameterList =>
    cases child with
    | parameter => exact .inr fun _ => rfl
    | _ => cases h
  | typeDecl shape =>
    cases shape with
    | record =>
      cases child with
      | fieldDecl => exact .inr fun _ => rfl
      | _ => cases h
    | _ => cases h
  | _ => cases h

namespace Forest

variable {f below : Forest} {parent kind : NodeKind} {n : Nat}

/-- Nothing below has a record. -/
theorem Fits.recorded_eq_nil (hf : f.Fits parent)
    (hparent : ∀ child, parent.mayHold child → child = .body) : f.recorded = [] := by
  rw [← List.length_eq_zero_iff, ← length_sites f 0,
    sites_eq_nil hf (fun t _ => hparent t.kind), List.length_nil]

/-- Parameters and fields hold nothing that has a record, so the comments in front of them are in
front of them alone. -/
theorem Fits.spares (hf : f.Fits parent) (hparent : parent.isFlat) : f.Spares 0 := by
  induction f generalizing parent with
  | nil => exact .of_recorded rfl
  | group g rest ih => exact (ih hf hparent).group g
  | node kind name below rest ihbelow ihrest =>
    have hkind : kind = .parameterList ∨ ∀ child, kind.mayHold child = false :=
      hf.1.1.elim (fun h => .inr (NodeKind.mayHold_of_isPiece h))
        (NodeKind.mayHold_of_isFlat hparent)
    have hnode : (Forest.node kind name below .nil).Spares 0 := by
      rcases hkind with rfl | hnothing
      · exact .unrecorded rfl name (ihbelow hf.1.2.1 rfl)
      · have hbelow : below.recorded = [] :=
          hf.1.2.1.recorded_eq_nil fun child h => by rw [hnothing] at h; cases h
        exact .node (.of_recorded hbelow) kind name
    exact hnode.append (ihrest hf.2 hparent)

end Forest

/-- Pieces have no records. -/
instance (n : Nat) : Forest.Additive (Forest.Spares n) where
  pieces hf := .of_recorded (hf.recorded_eq_nil fun _ h => by cases h)
  append := .append

/-! ### Rules -/

namespace GrammarRule

variable {α β σ : Type} {parent : NodeKind} {lists n : Nat}

/-- What a run of the rule adds to the open node leaves out the comments in front of its first `n`
groups. -/
abbrev Spares (n : Nat) (r : GrammarRule α) : Prop :=
  r.Puts (Forest.Spares n)

namespace Spares

/-- What adds only pieces and bodies adds nothing that has a record. -/
theorem of_bare {r : GrammarRule α} (h : r.Adds parent lists)
    (hparent : ∀ child, parent.mayHold child → child = .body) : r.Spares n :=
  .of_adds h fun _ hfits => .of_recorded (hfits.recorded_eq_nil hparent)

theorem of_flat {r : GrammarRule α} (h : r.Adds parent lists) (hparent : parent.isFlat) :
    r.Spares 0 :=
  .of_adds h fun _ hfits => hfits.spares hparent

/-- After a rule that must take a group the others may begin nodes with their first. -/
theorem follow {r : GrammarRule α} {f : α → GrammarRule β} (hr : r.Spares 1) (hmust : r.MustTake)
    (hf : ∀ a, (f a).Spares 0) : (r >>= f).Spares 1 := by
  intro groups error s next b h hrun
  obtain ⟨a, mid, hfirst, hsecond⟩ := ok_of_bind hrun
  obtain ⟨taken, left, htook, hne⟩ := took_of_run h hfirst
  obtain ⟨g, hg, hsparesg⟩ := hr h hfirst
  obtain ⟨k, hk, hsparesk⟩ := hf a htook.holds hsecond
  have hbelow : next.current.below = s.current.below.append (g.append k) := by
    rw [hk, hg, Forest.append_assoc]
  refine ⟨g.append k, hbelow, ?_⟩
  by_cases hgroups : groups = []
  · -- nothing is left to be taken, so there are no comments at all
    obtain ⟨rest, _, htookrest, -⟩ := took_of_run h hrun
    have hnone : g.groups = [] ∧ k.groups = [] := by
      rw [← List.append_eq_nil_iff, ← Forest.groups_append, htookrest.groups_of_below hbelow]
      exact (List.append_eq_nil_iff.1 (htookrest.groups_eq.symm.trans hgroups)).1
    have hsparesk : k.Spares 1 := by
      rw [Forest.Spares, hnone.2] at hsparesk ⊢
      exact hsparesk
    exact hsparesg.append hsparesk
  · have hne : g.groups ≠ [] := htook.groups_of_below hg ▸ hne hmust hgroups
    exact hsparesg.follow hne hsparesk

/-- A node that leaves the comments in front of its first group to itself. -/
theorem node {kind : NodeKind} {inside : GrammarRule α} (h : inside.Spares 1) :
    (GrammarRule.node kind inside .done).Spares 0 := by
  refine Puts.node fun groups error s next a hholds hcurrent hrun => ?_
  obtain ⟨f, hbelow, hspares⟩ := h hholds hrun
  rw [hcurrent] at hbelow
  have hinside : next.current.below = f := hbelow
  rw [hinside]
  exact hspares.node _ _

end Spares

/-! ### Declarations -/

theorem mustTake_declaredName : declaredName.MustTake := by
  refine MustTake.bind_left (r := identifier) (.inl (MustTake.bind_left (r := name) ?_ _)) _
  refine MustTake.bind_right (atName 0) fun isName => ?_
  cases isName with
  | true => exact MustTake.bind_left (r := namePart .empty) (fun _ => trivial) _
  | false => trivial

/-- What a declaration holds comes after its name. -/
theorem Spares.declared {rest : Unit → GrammarRule α} (h : ∀ u, (rest u).Spares 0) :
    (declaredName >>= rest).Spares 1 :=
  Spares.follow (.of_pieces adds_declaredName) mustTake_declaredName h

theorem spares_returnClause : returnClause.Spares n :=
  .of_pieces adds_returnClause

theorem spares_expectWord (word : String) : (expectWord word).Spares n :=
  .of_pieces (adds_expectWord word)

theorem spares_expectSemicolon : expectSemicolon.Spares n :=
  .of_pieces (adds_expectKind _ _)

theorem spares_parameterList : parameterList.Spares 0 := by
  have hlist : parameterList.Adds (.method .procedure) 1 := adds_parameterList rfl
  exact Spares.of_flat hlist rfl

theorem spares_methodHead (kind : MethodKind) (inObject : Bool) :
    (methodHead kind inObject).Spares 1 := by
  have hend : (do
      routineModifiers
      unless inObject do expectSemicolon : GrammarRule Unit).Spares 0 :=
    .bind (.of_pieces adds_routineModifiers) fun _ => .ite (.pure _) spares_expectSemicolon
  exact Spares.declared fun _ => spares_parameterList.bind fun _ =>
    .ite (spares_returnClause.bind fun _ => hend) hend

theorem spares_method (modifiers offset : Nat) (inObject : Bool) :
    (method modifiers offset inObject).Spares 0 := by
  have hmodifiers : (times modifiers (modifier do
      let _ ← takeWord "NOT"
      take)).Adds .identifier 0 :=
    .times (adds_modifier ((adds_takeWord _).bind fun _ => adds_take)) modifiers
  rw [method_eq]
  refine .bind (.of_pieces adds_at) fun _ => .bind (.of_pieces adds_at) fun _ =>
    .within _ (Spares.node ?_)
  exact .bind (.of_pieces hmodifiers) fun _ => .bind (.of_pieces (adds_methodWords _)) fun _ =>
    spares_methodHead _ inObject

theorem spares_cursor : cursor.Spares 0 := by
  have hquery : (do
      if ← takeWord "IS" then node .expression skipToSemicolon .done
      expectSemicolon : GrammarRule Unit).Spares 0 :=
    .test (adds_takeWord _)
      (.bind (.of_pieces ((adds_skipUntil _).piece rfl)) fun _ => spares_expectSemicolon)
      spares_expectSemicolon
  refine .within _ (Spares.node ?_)
  exact (spares_expectWord _).bind fun _ => Spares.declared fun _ =>
    spares_parameterList.bind fun _ =>
      .test adds_at (spares_returnClause.bind fun _ => hquery) hquery

theorem spares_typeDefinition : typeDefinition.Spares 0 := by
  intro groups error s next shape _ hrun
  obtain ⟨f, hbelow, hfits, -⟩ := (leaves_run (defines_typeDefinition s.current) hrun).below
  exact ⟨f, hbelow, hfits.spares rfl⟩

theorem spares_typeDecl : typeDecl.Spares 0 := by
  refine .within _ (Spares.node ?_)
  exact (spares_expectWord _).bind fun _ => Spares.declared fun _ =>
    .bind (.of_pieces adds_expectIsOrAs) fun _ => spares_typeDefinition.bind fun shape =>
      .bind (.setKind _ (.pure ())) fun _ => spares_expectSemicolon

/-- What is declared in one piece has no comments but those in front of it. -/
theorem putsDeclarations_spares : PutsDeclarations (Forest.Spares 0) where
  node _ h := Spares.node (.of_pieces h)
  method := spares_method 0 0 false
  cursor := spares_cursor
  typeDecl := spares_typeDecl

theorem spares_attributeDecl : attributeDecl.Spares 0 :=
  .within _ (Spares.node (.of_pieces (adds_declaredName.bind fun _ => adds_typeExpr)))

/-! ### Units -/

theorem spares_objectMember : objectMember.Spares 0 := by
  have hcount : countModifiers.Adds .identifier 0 :=
    .iterate (fun (_, _) => (Adds.and adds_at adds_at).bind fun _ => .ite (.pure _) <|
      adds_at.bind fun _ => .ite (.pure _) (.pure _)) _
  exact .bind (.of_pieces hcount) fun (offset, count) =>
    .test adds_at (spares_method count offset true) <| .ite (.missing _) <|
    .test adds_at (putsDeclarations_spares.pragma false) spares_attributeDecl

theorem spares_objectType : objectType.Spares 0 := by
  have hmembers : objectMembers.Spares 0 :=
    .test adds_at (.pure _) <| .repeatWhile <| spares_objectMember.bind fun _ =>
      .of_pieces (adds_takeKind _)
  have hrest : (do
      if ← takeKind .lparen then
        objectMembers
        expectKind .rparen "`)`"
      typeModifiers).Spares 0 :=
    .test (adds_takeKind _)
      (hmembers.bind fun _ => .of_pieces <| (adds_expectKind _ _).bind fun _ => adds_typeModifiers)
      (.of_pieces adds_typeModifiers)
  exact .test (.or (adds_takeKind _) (.or adds_atEnd (adds_atTerminator 0))) (.pure _) <|
    .test adds_at (.bind (.of_pieces adds_under) fun _ => hrest) <|
    .test (.or (adds_takeWord _) (adds_takeWord _))
      (.bind (.of_pieces adds_typeBasis) fun _ => hrest) (.bind (.missing _) fun _ => hrest)

theorem spares_unitRest (unit : UnitKind) : (unitRest unit).Spares 0 := by
  cases unit with
  | package => exact putsDeclarations_spares.package
  | objectType => exact .bind (.of_pieces adds_unitClauses) fun _ => spares_objectType
  | _ => exact Spares.of_flat (adds_unitRest _) rfl

/-- A statement leaves out the comments in front of it. -/
theorem spares_statement : statement.Spares 1 := by
  refine .bind (.of_pieces adds_statementForm) fun form => .setKind _ ?_
  have hbare (hform : ∀ child, form.kind.mayHold child → child = .body) :
      (statementInside form).Spares 1 := Spares.of_bare (adds_statementInside form) hform
  cases form with
  | create unit n isBody =>
    have hname : (do declaredName; unitRest unit).Spares 1 :=
      Spares.declared fun _ => spares_unitRest unit
    exact .within _ <| .bind (.of_pieces (.times adds_take _)) fun _ =>
      .ite (.bind (.of_pieces adds_take) fun _ => hname) hname
  | _ => exact hbare fun _ h => nomatch h

end GrammarRule

/-! ### Statements -/

theorem statementsUpTo_spares {groups : List SqlGroup} {error : Option LexError} {s : ParseState}
    (n : Nat) (h : s.stream.Holds groups error) :
    ∀ t ∈ (s.statementsUpTo n).trees, t.below.Spares 1 := by
  refine ParseState.forall_statementsUpTo (I := fun s => ∃ groups, s.stream.Holds groups error)
    (fun hheld _ hrun => ?_) ⟨groups, h⟩
  obtain ⟨groups, h⟩ := hheld
  obtain ⟨taken, left, htook, -⟩ := took_of_run (h.peekKey 0).2 hrun
  obtain ⟨f, hbelow, hspares⟩ := GrammarRule.spares_statement (h.peekKey 0).2 hrun
  rw [← show _ = f from hbelow] at hspares
  exact ⟨hspares, left, htook.holds⟩

/-- The comments in front of a statement are those of no declaration in it. -/
theorem parseTokens_spares (lexed : Lexed) : ∀ t ∈ (parseTokens lexed).trees, t.below.Spares 1 :=
  statementsUpTo_spares _ (TokenStream.holds_ofLexed lexed)

end SqlDoc

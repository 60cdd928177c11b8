/-
# Nodes hold what their kinds say

What the kind of a node says about its name and its groups is known from the rule that opens it:
identifiers and pragmas are named for their groups, bodies and expressions are runs of groups that
end where they should, and the declaration of a type has its parts in order. Each of these rules is
opened in a few places of the grammar. All other rules put rules together. If every node that the
parts of a rule add holds what its kind says, so does every node that the rule adds
(`GrammarRule.Labels`). This is a class, so that instances follow the rules down to those few and
only the rules that open a node or look at a token have to be named on the way.

A rule may set the kind of the node that is open, but it does not change what the kind says
(`NodeKind.role`).

Key definitions: `NodeKind.Role`, `NodeKind.Says`, `Forest.Labelled`, `SyntaxTree.LabelledFrom`,
`GrammarRule.Labels`.
Key theorems: `Labels.bind`, `Labels.node`, `Labels.iterate`, `statementsUpTo_labelled`,
`parseTokens_labelled`.
-/
import SqlDoc.Proofs.Syntax.Placement
import SqlDoc.Proofs.Syntax.Regions
import SqlDoc.Proofs.Syntax.TypeDeclarations

namespace SqlDoc

namespace NodeKind

/-- What the kind of a node says, without its particulars. -/
inductive Role where
  | plain
  | identifier
  | pragma
  | body
  | expression
  | typeDecl
  | cursor
  deriving DecidableEq

def role : NodeKind → Role
  | identifier => .identifier
  | pragma => .pragma
  | body => .body
  | expression => .expression
  | typeDecl _ => .typeDecl
  | method .cursor => .cursor
  | _ => .plain

/-- The tokens that end an expression directly below a node: a cursor has a query, which goes on
after a comma. -/
def Role.ends : Role → SqlKind → Bool
  | cursor => (· = .semicolon)
  | _ => fun kind => kind = .comma ∨ kind = .semicolon

/-- The name of a node of the role and what is below it are as its kind says. The node is below one
of the role `above`, and its first group has index `first`. -/
def Role.Says (role above : Role) (groups : List SqlGroup) (first : Nat) (name : Option Name)
    (below : Forest) : Prop :=
  match role with
  | plain | cursor => True
  | identifier => NodeKind.identifier.IsNamedFor name below.groups
  | pragma => NodeKind.pragma.IsNamedFor name below.groups
  | body => BodyRun groups first (first + below.groups.length)
  | expression => ExpressionRun groups above.ends first (first + below.groups.length)
  | typeDecl => below.IsTypeDecl

theorem Role.Says.isNamedFor {groups : List SqlGroup} {above : Role} {first : Nat} {kind : NodeKind}
    {name : Option Name} {below : Forest} (h : kind.role.Says above groups first name below) :
    kind.IsNamedFor name below.groups := by
  cases kind with
  | identifier | pragma => exact h
  | _ => trivial

end NodeKind

namespace Forest

variable {groups : List SqlGroup} {above : NodeKind.Role} {n : Nat}

/-- Every node, also further down, holds what its kind says. The first group has index `n`. -/
def Labelled (groups : List SqlGroup) (above : NodeKind.Role) (n : Nat) : Forest → Prop
  | nil => True
  | group _ rest => rest.Labelled groups above (n + 1)
  | node kind name below rest =>
    kind.role.Says above groups n name below ∧ below.Labelled groups kind.role n ∧
      rest.Labelled groups above (n + below.groups.length)

theorem Labelled.append {f g : Forest} (hf : f.Labelled groups above n)
    (hg : g.Labelled groups above (n + f.groups.length)) :
    (f.append g).Labelled groups above n := by
  induction f generalizing n with
  | nil => exact hg
  | group _ rest ih =>
    refine ih hf ?_
    rwa [Forest.groups, List.length_cons, Nat.add_comm _ 1, ← Nat.add_assoc] at hg
  | node kind name below rest _ ih =>
    refine ⟨hf.1, hf.2.1, ih hf.2.2 ?_⟩
    rwa [Forest.groups, List.length_append, ← Nat.add_assoc] at hg

end Forest

/-- The role of the node above a node of a tree. -/
def SyntaxTree.roleAbove (t : SyntaxTree) (p : Placement) : NodeKind.Role :=
  (p.parent.bind (t.placements[·]?)).elim .plain (·.tree.kind.role)

/-- What is true of the nodes of a labelled forest is true of them where they are placed. -/
theorem Forest.Labelled.place {groups : List SqlGroup} {above : NodeKind.Role} {first : Nat}
    {t : SyntaxTree} {f : Forest} {parent id before : Nat}
    (h : f.Labelled groups above (first + before))
    (hstands : StandsAt t.placements id (f.place parent id before))
    (habove : t.placements[parent]?.map (·.tree.kind.role) = some above) :
    ∀ p ∈ f.place parent id before, p.tree.kind.role.Says (t.roleAbove p)
      groups (first + p.firstGroup) p.tree.name p.tree.below := by
  induction f generalizing above parent id before with
  | nil =>
    intro p hp
    cases hp
  | group _ rest ih => exact ih h hstands habove
  | node kind name below rest ihbelow ihrest =>
    have hrest := hstands.tail.right
    rw [Forest.place_length] at hrest
    intro p hp
    rcases List.mem_cons.1 hp with rfl | hp
    · obtain ⟨q, hq, hrole⟩ := Option.map_eq_some_iff.1 habove
      have hup : t.roleAbove ⟨⟨kind, name, below⟩, some parent, below.ids (id + 1), before⟩ =
          above := by
        rw [SyntaxTree.roleAbove, Option.bind_some, hq, Option.elim_some, hrole]
      rw [hup]
      exact h.1
    · rcases List.mem_append.1 hp with hp | hp
      · exact ihbelow h.2.1 hstands.tail.left (by rw [hstands.head]; rfl) p hp
      · exact ihrest (by rw [← Nat.add_assoc]; exact h.2.2) hrest habove p hp

/-- Every node of the tree holds what its kind says. The first group has index `first`. -/
structure SyntaxTree.LabelledFrom (groups : List SqlGroup) (first : Nat) (t : SyntaxTree) :
    Prop where
  root : t.kind.role.Says .plain groups first t.name t.below
  below : t.below.Labelled groups t.kind.role first

theorem SyntaxTree.LabelledFrom.placements {groups : List SqlGroup} {first : Nat} {t : SyntaxTree}
    (h : t.LabelledFrom groups first) : ∀ p ∈ t.placements,
      p.tree.kind.role.Says (t.roleAbove p) groups (first + p.firstGroup) p.tree.name
        p.tree.below := by
  intro p hp
  rcases List.mem_cons.1 hp with rfl | hp
  · exact h.root
  · exact Forest.Labelled.place h.below t.standsAt_placements (by rw [t.placements_zero]; rfl) p hp

/-- Every node of the tree holds what its kind says, where the tree has been read. -/
def SyntaxTree.Labelled (t : SyntaxTree) : Prop :=
  ∃ groups first, t.LabelledFrom groups first

theorem SyntaxTree.Labelled.placements {t : SyntaxTree} (h : t.Labelled) :
    ∀ p ∈ t.placements, p.tree.kind.IsNamedFor p.tree.name p.tree.groups := by
  obtain ⟨groups, first, hlabelled⟩ := h
  exact fun p hp => NodeKind.Role.Says.isNamedFor (hlabelled.placements p hp)

/-! ### Rules -/

/-- Reading has gone on from the place `n` to the place `m`. Groups and nodes have been added, the
nodes hold what their kinds say, and the role of the open node is still `role`. -/
structure Relabelled (groups : List SqlGroup) (error : Option LexError) (role : NodeKind.Role)
    (s next : ParseState) (n m : Nat) : Prop where
  place : next.At groups error m
  le : m ≤ groups.length
  kind : next.current.kind.role = role
  below : ∃ f, next.current.below = s.current.below.append f ∧ m = n + f.groups.length ∧
    f.Labelled groups role n

namespace Relabelled

variable {groups : List SqlGroup} {error : Option LexError} {role : NodeKind.Role}
  {s mid next : ParseState} {n k m : Nat}

/-- Nothing has been added. -/
theorem looked (hs : next.At groups error n) (hn : n ≤ groups.length)
    (hrole : s.current.kind.role = role) (hcurrent : next.current = s.current) :
    Relabelled groups error role s next n n where
  place := hs
  le := hn
  kind := by rw [hcurrent, hrole]
  below := ⟨.nil, by rw [hcurrent, Forest.append_nil], rfl, trivial⟩

theorem trans (h1 : Relabelled groups error role s mid n k)
    (h2 : Relabelled groups error role mid next k m) : Relabelled groups error role s next n m := by
  obtain ⟨f, hf, hk, hlabelled⟩ := h1.below
  obtain ⟨g, hg, hm, hglabelled⟩ := h2.below
  rw [hk] at hglabelled
  refine ⟨h2.place, h2.le, h2.kind, f.append g, ?_, ?_, hlabelled.append hglabelled⟩
  · rw [hg, hf, Forest.append_assoc]
  · rw [Forest.groups_append, List.length_append, hm, hk, Nat.add_assoc]

/-- A group has been added, if one was left. -/
theorem bump (hs : s.At groups error n) (hn : n ≤ groups.length)
    (hrole : s.current.kind.role = role) :
    Relabelled groups error role s s.bump n (placeAfter groups n) := by
  have hplace : s.bump.At groups error (placeAfter groups n) :=
    (@Heeded.bump _ _ true _ _ hs fun h => Bool.noConfusion h).place
  have hcurrent := current_bump hs.holds
  rcases Nat.lt_or_ge n groups.length with hlt | hge
  · rw [List.drop_eq_getElem_cons hlt] at hcurrent
    rw [show placeAfter groups n = n + 1 from if_pos hlt] at hplace ⊢
    exact ⟨hplace, hlt, by rw [hcurrent]; exact hrole, .group groups[n] .nil, by rw [hcurrent]; rfl,
      rfl, trivial⟩
  · rw [List.drop_eq_nil_of_le hge] at hcurrent
    rw [show placeAfter groups n = n from if_neg (Nat.not_lt_of_ge hge)] at hplace ⊢
    exact looked hplace hn hrole hcurrent

end Relabelled

namespace GrammarRule

variable {α β σ : Type} {role above : NodeKind.Role}

/-- Carried out in a node of the role, the rule adds nodes that hold what their kinds say, and leaves
the role as it is. -/
class Labels (r : GrammarRule α) (role : NodeKind.Role) : Prop where
  relabelled : ∀ ⦃groups : List SqlGroup⦄ ⦃error : Option LexError⦄ ⦃s next : ParseState⦄ ⦃a : α⦄
    ⦃n : Nat⦄, s.At groups error n → n ≤ groups.length → s.current.kind.role = role →
      r.run s = (.ok a, next) → ∃ m, Relabelled groups error role s next n m

namespace Labels

instance done (a : α) : (GrammarRule.done a).Labels role where
  relabelled _ _ _ _ _ n hs hn hrole hrun := by
    cases hrun
    exact ⟨n, .looked hs hn hrole rfl⟩

instance pure (a : α) : (Pure.pure a : GrammarRule α).Labels role :=
  done a

instance missing (expected : String) :
    (GrammarRule.missing expected : GrammarRule α).Labels role where
  relabelled _ _ _ _ _ _ _ _ _ hrun := by cases hrun

instance bind (r : GrammarRule α) (f : α → GrammarRule β) [hr : r.Labels role]
    [hf : ∀ a, (f a).Labels role] : (r >>= f).Labels role where
  relabelled _ _ _ _ _ _ hs hn hrole hrun := by
    obtain ⟨a, mid, hfirst, hsecond⟩ := ok_of_bind hrun
    obtain ⟨k, hk⟩ := hr.relabelled hs hn hrole hfirst
    obtain ⟨m, hm⟩ := (hf a).relabelled hk.place hk.le hk.kind hsecond
    exact ⟨m, hk.trans hm⟩

instance map (f : α → β) (r : GrammarRule α) [r.Labels role] : (f <$> r).Labels role := by
  rw [map_eq_pure_bind]
  infer_instance

instance ite (c : Prop) [Decidable c] (r r' : GrammarRule α) [r.Labels role] [r'.Labels role] :
    (if c then r else r').Labels role := by
  split <;> infer_instance

-- The search counts an instance that stands under a binder twice. It takes the next two, which have
-- none, where `bind` would grow too large.
instance andThen (r : GrammarRule α) (r' : GrammarRule β) [r.Labels role] [r'.Labels role] :
    (r >>= fun _ => r').Labels role :=
  bind r _

instance branch (test : GrammarRule Bool) (r r' : GrammarRule α) [test.Labels role] [r.Labels role]
    [r'.Labels role] : (test >>= fun b => if b then r else r').Labels role :=
  bind test _

instance look (k : Nat) (next : Option Glance → GrammarRule α)
    [h : ∀ seen, (next seen).Labels role] : (GrammarRule.look k next).Labels role where
  relabelled _ _ s _ _ _ hs hn hrole hrun := by
    have hlooked : Relabelled _ _ role s (s.key k).2 _ _ := .looked (hs.key k).2 hn hrole rfl
    obtain ⟨m, hm⟩ := (h _).relabelled hlooked.place hn hlooked.kind hrun
    exact ⟨m, hlooked.trans hm⟩

instance lineStart (k : Nat) (next : Bool → GrammarRule α) [h : ∀ b, (next b).Labels role] :
    (GrammarRule.lineStart k next).Labels role where
  relabelled _ _ s _ _ _ hs hn hrole hrun := by
    have hcurrent := s.startsLine_current k
    have hlooked := Relabelled.looked (hs.startsLine k).2 hn hrole hcurrent
    obtain ⟨m, hm⟩ := (h _).relabelled hlooked.place hn hlooked.kind hrun
    exact ⟨m, hlooked.trans hm⟩

instance remaining (next : Nat → GrammarRule α) [h : ∀ n, (next n).Labels role] :
    (GrammarRule.remaining next).Labels role where
  relabelled _ _ _ _ _ _ hs hn hrole hrun := (h _).relabelled hs hn hrole hrun

instance bump (next : GrammarRule α) [h : next.Labels role] :
    (GrammarRule.bump next).Labels role where
  relabelled _ _ _ _ _ _ hs hn hrole hrun := by
    have htaken := Relabelled.bump hs hn hrole
    obtain ⟨m, hm⟩ := h.relabelled htaken.place htaken.le htaken.kind hrun
    exact ⟨m, htaken.trans hm⟩

instance setName (name : Name) (next : GrammarRule α) [h : next.Labels role] :
    (GrammarRule.setName name next).Labels role where
  relabelled _ _ s _ _ _ hs hn hrole hrun := by
    obtain ⟨m, hm⟩ := h.relabelled (s := { s with current := { s.current with name := some name } })
      ⟨hs.holds, hs.started⟩ hn hrole hrun
    exact ⟨m, hm.place, hm.le, hm.kind, hm.below⟩

theorem setKind {kind : NodeKind} (hkind : kind.role = role) (next : GrammarRule α)
    [h : next.Labels role] : (GrammarRule.setKind kind next).Labels role where
  relabelled _ _ s _ _ _ hs hn _ hrun := by
    obtain ⟨m, hm⟩ := h.relabelled (s := { s with current := { s.current with kind } })
      ⟨hs.holds, hs.started⟩ hn hkind hrun
    exact ⟨m, hm.place, hm.le, hm.kind, hm.below⟩

instance within (construct : String) (inside : GrammarRule β) (next : β → GrammarRule α)
    [hinside : inside.Labels role] [hnext : ∀ b, (next b).Labels role] :
    (GrammarRule.within construct inside next).Labels role where
  relabelled _ _ _ _ _ _ hs hn hrole hrun := by
    obtain ⟨b, inner, hinner, hrest⟩ := GrammarRule.ok_of_within hrun
    obtain ⟨k, hk⟩ := hinside.relabelled hs hn hrole hinner
    obtain ⟨m, hm⟩ := (hnext b).relabelled hk.place hk.le hk.kind hrest
    exact ⟨m, hk.trans hm⟩

/-- A node that is read into a forest of its own is added if it holds what its kind says. -/
theorem node_of_run (kind : NodeKind) (inside : GrammarRule α)
    [hinside : inside.Labels kind.role]
    (h : ∀ ⦃groups : List SqlGroup⦄ ⦃error : Option LexError⦄ ⦃s next : ParseState⦄ ⦃a : α⦄
      ⦃n : Nat⦄, s.At groups error n → s.current = { kind } → inside.run s = (.ok a, next) →
      Relabelled groups error kind.role s next n (n + next.current.below.groups.length) →
        kind.role.Says above groups n next.current.name next.current.below) :
    (GrammarRule.node kind inside .done).Labels above where
  relabelled groups error s _ _ n hs hn hrole hrun := by
    obtain ⟨b, inner, hinner, hdone⟩ := GrammarRule.ok_of_node hrun
    cases hdone
    have hopened : ({ s with current := { kind } } : ParseState).At groups error n :=
      ⟨hs.holds, hs.started⟩
    obtain ⟨m, hm⟩ := hinside.relabelled hopened hn rfl hinner
    obtain ⟨f, hbelow, hlength, hlabelled⟩ := hm.below
    have hbelow : inner.current.below = f := hbelow
    subst hbelow hlength
    have hnode : (Forest.node inner.current.kind inner.current.name inner.current.below
        .nil).groups = inner.current.below.groups := List.append_nil _
    have hsays := h hopened rfl hinner hm
    rw [← hm.kind] at hsays hlabelled
    exact ⟨_, ⟨hm.place.holds, hm.place.started⟩, hm.le, hrole, _, rfl, by rw [hnode], hsays,
      hlabelled, trivial⟩

/-- A node of a kind that says nothing. -/
theorem node {kind : NodeKind} (hkind : kind.role = .plain) (inside : GrammarRule α)
    [hinside : inside.Labels .plain] : (GrammarRule.node kind inside .done).Labels above := by
  rw [← hkind] at hinside
  refine node_of_run kind inside fun _ _ _ _ _ _ _ _ _ _ => ?_
  rw [hkind]
  trivial

theorem cursorNode (inside : GrammarRule α) [hinside : inside.Labels .cursor] :
    (GrammarRule.node (.method .cursor) inside .done).Labels above :=
  @node_of_run _ above (.method .cursor) inside hinside fun _ _ _ _ _ _ _ _ _ _ => trivial

instance iterateUpTo (step : σ → GrammarRule (Option σ)) [h : ∀ s, (step s).Labels role]
    (count : Nat) (s : σ) : (GrammarRule.iterateUpTo step count s).Labels role :=
  iterateUpTo_induction (P := (·.Labels role)) done (fun s f _ => bind (step s) f) count s

instance iterate (step : σ → GrammarRule (Option σ)) [∀ s, (step s).Labels role] (s : σ) :
    (GrammarRule.iterate step s).Labels role :=
  remaining _

instance repeatWhile (step : GrammarRule Bool) [step.Labels role] :
    (GrammarRule.repeatWhile step).Labels role :=
  iterate _ ()

instance times (n : Nat) (rule : GrammarRule Unit) [rule.Labels role] :
    (GrammarRule.times n rule).Labels role := by
  induction n with
  | zero => exact done ()
  | succ n ih => exact bind rule _

instance and (r r' : GrammarRule Bool) [r.Labels role] [r'.Labels role] :
    (r <&&> r').Labels role := by
  have h (b : Bool) :
      (match b with | true => r' | false => Pure.pure b : GrammarRule Bool).Labels role := by
    cases b <;> infer_instance
  exact bind r _

instance or (r r' : GrammarRule Bool) [r.Labels role] [r'.Labels role] :
    (r <||> r').Labels role := by
  have h (b : Bool) :
      (match b with | true => Pure.pure b | false => r' : GrammarRule Bool).Labels role := by
    cases b <;> infer_instance
  exact bind r _

end Labels

/-! ### Words and runs -/

instance (n : Nat) : (key n).Labels role :=
  .look _ _

/-- After a glance come a rule for the end and one for every token. -/
instance (n : Nat) (f : Option Glance → GrammarRule α) [hend : (f none).Labels role]
    [htoken : ∀ t, (f (some t)).Labels role] : (key n >>= f).Labels role := by
  have h (seen : Option Glance) : (f seen).Labels role := by
    cases seen with
    | none => exact hend
    | some t => exact htoken t
  exact .bind _ _

instance (n : Nat) (p : Glance → Bool) : (at? n p).Labels role :=
  .look _ _

instance : atEnd.Labels role :=
  .look _ _

instance (n : Nat) : (startsLine n).Labels role :=
  .lineStart _ _

instance (n : Nat) (kind : SqlKind) : (atKind n kind).Labels role := by
  unfold atKind
  infer_instance

instance (n : Nat) (words : List String) : (atAnyWord n words).Labels role := by
  unfold atAnyWord
  infer_instance

instance (n : Nat) (word : String) : (atWord n word).Labels role := by
  unfold atWord
  infer_instance

instance (n : Nat) : (atName n).Labels role := by
  unfold atName
  infer_instance

instance (n : Nat) (text : String) : (atOperator n text).Labels role := by
  unfold atOperator
  infer_instance

instance (n : Nat) : (atTerminator n).Labels role := by
  unfold atTerminator
  infer_instance

instance (n : Nat) : (atCreate n).Labels role := by
  unfold atCreate
  infer_instance

instance : take.Labels role :=
  .bump _

instance (test : GrammarRule Bool) [test.Labels role] : (takeIf test).Labels role := by
  unfold takeIf
  infer_instance

instance (word : String) : (takeWord word).Labels role := by
  unfold takeWord
  infer_instance

instance (kind : SqlKind) : (takeKind kind).Labels role := by
  unfold takeKind
  infer_instance

instance (word : String) : (expectWord word).Labels role := by
  unfold expectWord
  infer_instance

instance (kind : SqlKind) (what : String) : (expectKind kind what).Labels role := by
  unfold expectKind
  infer_instance

instance : expectSemicolon.Labels role := by
  unfold expectSemicolon
  infer_instance

instance : expectIsOrAs.Labels role := by
  unfold expectIsOrAs
  infer_instance

theorem labels_leaf {kind : NodeKind} (hkind : kind.role = .plain) : (leaf kind).Labels role :=
  .node hkind _

instance : skipParens.Labels role := by
  unfold skipParens
  infer_instance

instance (stop : SqlKind → Bool) : (skipUntil stop).Labels role := by
  unfold skipUntil
  infer_instance

instance : skipToSemicolon.Labels role := by
  unfold skipToSemicolon
  infer_instance

instance : skipStatement.Labels role := by
  unfold skipStatement
  infer_instance

instance : skipToTerminator.Labels role := by
  unfold skipToTerminator
  infer_instance

instance : skipLine.Labels role := by
  unfold skipLine
  infer_instance

/-! ### Pieces of declarations -/

instance (n : Name) : (namePart n).Labels role := by
  unfold namePart
  infer_instance

instance : name.Labels role := by
  unfold name
  infer_instance

/-- The node of an identifier is named for its groups. -/
instance : identifier.Labels role :=
  .node_of_run _ _ fun _ _ _ _ _ _ hs hcurrent hrun _ =>
    isNamedFor_identifier hs.holds hcurrent hrun

instance : declaredName.Labels role := by
  unfold declaredName
  infer_instance

instance (inside : GrammarRule Unit) [inside.Labels .plain] : (modifier inside).Labels role :=
  .node rfl _

instance (base : Name) : (typeWords base).Labels role := by
  unfold typeWords
  split <;> infer_instance

instance (base : Name) : (timeZone base).Labels role := by
  unfold timeZone
  infer_instance

instance (n : Name) : (typeAttribute n).Labels role := by
  unfold typeAttribute
  infer_instance

instance : databaseLink.Labels role := by
  unfold databaseLink
  infer_instance

instance : characterSet.Labels role := by
  unfold characterSet
  infer_instance

instance : typeExpr.Labels role :=
  .node rfl _

instance : notNull.Labels role := by
  unfold notNull
  infer_instance

instance : collectionType.Labels role := by
  have hliteral : (node .literal skipParens .done).Labels role := .node rfl _
  unfold collectionType
  infer_instance

/-- The node of an expression is a run of groups that ends where an expression may end. -/
theorem labels_expressionNode (stops : SqlKind → Bool) (h : above.ends = stops) :
    (node .expression (skipUntil stops) .done).Labels above :=
  .node_of_run _ _ fun _ _ _ _ _ _ hs _ hrun hm => by
    subst h
    exact expressionRun_of_run hs hm.place (Nat.le_add_right ..) hm.le hrun

theorem labels_expression (h : role.ends = NodeKind.Role.plain.ends) :
    expression.Labels role := by
  have hnode : (node .expression (skipUntil fun kind => kind = .comma ∨ kind = .semicolon)
      .done).Labels role := labels_expressionNode _ h
  unfold expression
  infer_instance

instance : expression.Labels .plain :=
  labels_expression rfl

instance : expression.Labels .typeDecl :=
  labels_expression rfl

instance : defaultValue.Labels .plain := by
  unfold defaultValue
  infer_instance

/-! ### Routines -/

instance (word : String) : (keywordNode word).Labels role := by
  have hleaf : (leaf .keyword).Labels role := labels_leaf rfl
  unfold keywordNode
  infer_instance

instance : parameter.Labels role := by
  have hkind (mode : ParamMode) : (setKind (.parameter mode) (.done ())).Labels .plain :=
    .setKind rfl _
  exact .node rfl _

instance (item : GrammarRule Unit) [item.Labels role] : (separatedByCommas item).Labels role := by
  unfold separatedByCommas
  infer_instance

instance (item : GrammarRule Unit) [item.Labels role] : (parenthesised item).Labels role := by
  unfold parenthesised
  infer_instance

instance : parameterList.Labels role := by
  have hlist : (node .parameterList (parenthesised parameter) .done).Labels role := .node rfl _
  unfold parameterList
  infer_instance

instance : returnClause.Labels role := by
  have hself : (node .typeExpr (do
      times 3 take
      setName ⟨["SELF AS RESULT"]⟩ (.done ())) .done).Labels .plain := .node rfl _
  exact .node rfl _

instance : routineModifier.Labels role := by
  unfold routineModifier
  infer_instance

instance : routineModifiers.Labels role := by
  unfold routineModifiers
  infer_instance

instance (kind : MethodKind) (inObject : Bool) : (methodHead kind inObject).Labels role := by
  unfold methodHead
  infer_instance

instance (kind : MethodKind) : (methodWords kind).Labels role := by
  unfold methodWords
  infer_instance

instance (modifiers offset : Nat) (inObject : Bool) :
    (method modifiers offset inObject).Labels role := by
  have hnode (kind : MethodKind) (inside : GrammarRule Unit) [∀ role, inside.Labels role] :
      (node (.method kind) inside .done).Labels role := by
    cases kind with
    | cursor => exact .cursorNode _
    | _ => exact .node rfl _
  rw [method_eq]
  infer_instance

/-- The query of a cursor goes on after a comma. -/
instance : cursor.Labels role := by
  have hquery : (node .expression skipToSemicolon .done).Labels .cursor :=
    labels_expressionNode _ rfl
  have hnode (inside : GrammarRule Unit) [inside.Labels .cursor] :
      (node (.method .cursor) inside .done).Labels role := .cursorNode _
  unfold cursor
  infer_instance

/-! ### Declarations -/

instance : variableDecl.Labels role := by
  have hleaf : (leaf .keyword).Labels .plain := labels_leaf rfl
  have hnode (constant : Bool) (inside : GrammarRule Unit) [inside.Labels .plain] :
      (node (.variableDecl constant) inside .done).Labels role := .node rfl _
  unfold variableDecl
  infer_instance

instance : exceptionDecl.Labels role :=
  .node rfl _

instance : subtypeDecl.Labels role := by
  have hnode (inside : GrammarRule Unit) [inside.Labels .plain] :
      (node .subtypeDecl inside .done).Labels role := .node rfl _
  unfold subtypeDecl
  infer_instance

instance : recordField.Labels role :=
  .node rfl _

instance : indexBy.Labels role :=
  .node rfl _

instance : typeDefinition.Labels .typeDecl := by
  have hleaf : (leaf .keyword).Labels .typeDecl := labels_leaf rfl
  unfold typeDefinition
  infer_instance

/-- The node of a type has the parts of a type's declaration. -/
instance : typeDecl.Labels role := by
  let inside : GrammarRule Unit := do
    expectWord "TYPE"
    declaredName
    expectIsOrAs
    let shape ← typeDefinition
    setKind (.typeDecl shape) (done ())
    expectSemicolon
  have hkind (shape : TypeShape) : (setKind (.typeDecl shape) (.done ())).Labels .typeDecl :=
    .setKind rfl _
  have hinside : inside.Labels (NodeKind.typeDecl .other).role :=
    inferInstanceAs (inside.Labels .typeDecl)
  have hnode : (node (.typeDecl .other) inside .done).Labels role :=
    .node_of_run _ _ fun _ _ _ _ _ _ hs hcurrent hrun _ =>
      isTypeDecl_of_run hs.holds hcurrent hrun
  exact .within _ _ _

/-- The node of a pragma is named for the word after `PRAGMA`. -/
instance (terminated : Bool) : (pragma terminated).Labels role :=
  .node_of_run _ _ fun _ _ _ _ _ _ hs hcurrent hrun _ =>
    isNamedFor_pragma hs.holds hcurrent hrun

instance : unknownDeclaration.Labels role :=
  .node rfl _

instance : declaration.Labels role := by
  unfold declaration
  infer_instance

instance : declarations.Labels role := by
  unfold declarations
  infer_instance

/-! ### Object types -/

instance : countModifiers.Labels role := by
  unfold countModifiers
  infer_instance

instance : attributeDecl.Labels role := by
  have hnode (inside : GrammarRule Unit) [inside.Labels .plain] :
      (node .attributeDecl inside .done).Labels role := .node rfl _
  unfold attributeDecl
  infer_instance

instance : objectMember.Labels role := by
  unfold objectMember
  infer_instance

instance : objectMembers.Labels role := by
  unfold objectMembers
  infer_instance

instance : under.Labels role := by
  have hnode (inside : GrammarRule Unit) [inside.Labels .plain] :
      (node .typeExpr inside .done).Labels .plain := .node rfl _
  unfold under
  infer_instance

instance : typeBasis.Labels role := by
  have hleaf : (leaf .keyword).Labels role := labels_leaf rfl
  unfold typeBasis
  infer_instance

instance : typeModifiers.Labels role := by
  unfold typeModifiers
  infer_instance

instance : objectType.Labels role := by
  unfold objectType
  infer_instance

/-! ### Statements -/

instance : createOffset.Labels role := by
  unfold createOffset
  infer_instance

instance : unitClause.Labels role := by
  unfold unitClause
  infer_instance

instance : unitClauses.Labels role := by
  unfold unitClauses
  infer_instance

instance : endClause.Labels role :=
  .node rfl _

/-- The node of a body is a run of groups that ends where a body may end. -/
instance : opaqueBody.Labels role := by
  have hbody : (node .body skipToTerminator .done).Labels role :=
    .node_of_run _ _ fun _ _ _ _ _ _ hs _ hrun hm =>
      bodyRun_of_run hs hm.place (Nat.le_add_right ..) hm.le hrun
  unfold opaqueBody
  infer_instance

instance (isFunction : Bool) : (standaloneRoutine isFunction).Labels role := by
  unfold standaloneRoutine
  infer_instance

instance (unit : UnitKind) : (unitRest unit).Labels role := by
  cases unit <;> simp only [unitRest, packageSpec, unitBody] <;> infer_instance

instance (n : Nat) (isBody : Bool) : (unitKind n isBody).Labels role := by
  unfold unitKind
  infer_instance

instance : atForeignBody.Labels role := by
  unfold atForeignBody
  infer_instance

instance : statementForm.Labels role := by
  unfold statementForm
  infer_instance

instance : unknownStatement.Labels role := by
  unfold unknownStatement
  infer_instance

instance : command.Labels role := by
  unfold command
  infer_instance

instance (form : StatementForm) : (statementInside form).Labels role := by
  cases form <;> unfold statementInside <;> infer_instance

instance : statement.Labels .plain := by
  have hkind (form : StatementForm) : (setKind form.kind (statementInside form)).Labels .plain :=
    .setKind (by cases form <;> rfl) _
  unfold statement
  infer_instance

end GrammarRule

/-- Every node of a statement that is read holds what its kind says. -/
theorem statementsUpTo_labelled {groups : List SqlGroup} {error : Option LexError} (count : Nat)
    {s : ParseState} {n : Nat} (hs : s.At groups error n) (hn : n ≤ groups.length)
    {before after : List SyntaxTree} {t : SyntaxTree}
    (h : (s.statementsUpTo count).trees = before ++ t :: after) :
    t.LabelledFrom groups (n + (before.flatMap (·.groups)).length) := by
  refine (ParseState.split_statementsUpTo
    (I := fun before s => s.At groups error (n + (before.flatMap (·.groups)).length) ∧
      n + (before.flatMap (·.groups)).length ≤ groups.length)
    (Q := fun before t => t.LabelledFrom groups (n + (before.flatMap (·.groups)).length))
    (@fun earlier s next ⟨hplace, hle⟩ _ hrun => ?_) ⟨hs, hn⟩ h)
  have hopened : (s.key 0).2.openNode.At groups error (n + (earlier.flatMap (·.groups)).length) :=
    ⟨(hplace.key 0).2.holds, (hplace.key 0).2.started⟩
  have hlabels : GrammarRule.statement.Labels .plain := inferInstance
  obtain ⟨m, hm⟩ := hlabels.relabelled hopened hle rfl hrun
  obtain ⟨f, hbelow, hlength, hlabelled⟩ := hm.below
  have hbelow : _ = f := hbelow
  subst hbelow
  refine ⟨⟨?_, ?_⟩, ?_⟩
  · rw [OpenNode.toTree, hm.kind]
    trivial
  · rw [OpenNode.toTree, hm.kind]
    exact hlabelled
  · rw [List.flatMap_append, List.length_append, List.flatMap_singleton, ← Nat.add_assoc]
    rw [hlength] at hm
    exact ⟨hm.place, hm.le⟩

/-- Every node of a script holds what its kind says. -/
theorem parseTokens_labelled (lexed : Lexed) : ∀ t ∈ (parseTokens lexed).trees, t.Labelled := by
  intro t ht
  obtain ⟨before, after, hsplit⟩ := List.append_of_mem ht
  have hstart : (ParseState.ofLexed lexed).At (groupsOf lexed.tokens) lexed.error 0 :=
    ⟨TokenStream.holds_ofLexed lexed, rfl⟩
  exact ⟨_, _, statementsUpTo_labelled _ hstart (Nat.zero_le _) hsplit⟩

end SqlDoc

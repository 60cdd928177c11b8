/-
# What rules add to the open node

Which nodes stand below which can be read off the grammar. Packages and object types hold members,
routines hold a list of parameters, records hold fields, and bodies stand below the units that have
them; everything else holds pieces of declarations only (`NodeKind.mayHold`, `Forest.Fits`).

Most rules leave the kind of the open node as it is and add nodes to it that may stand there
(`GrammarRule.Adds`). What the parts of a rule add, the rule adds. The rules for the pieces of
declarations, such as names and datatypes, add pieces, so they may be carried out anywhere.

Key definitions: `NodeKind.mayHold`, `Forest.Fits`, `GrammarRule.Adds`.
Key theorems: `Adds.bind`, `Adds.node`, `Adds.iterate`, `adds_typeExpr`.
-/
import SqlDoc.Proofs.Syntax.Leaving
import SqlDoc.Syntax.Statement

namespace SqlDoc

/-! ### What may stand below what -/

namespace NodeKind

/-- A piece of a declaration. -/
def isPiece (kind : NodeKind) : Bool :=
  !kind.isNameable && kind ≠ .parameterList

/-- What may stand directly below a node, apart from pieces. -/
def mayHold : NodeKind → NodeKind → Bool
  | createUnit .package, child | createUnit .objectType, child => child.isMember && child ≠ .body
  | createUnit .packageBody, child | createUnit .typeBody, child => child = .body
  | createUnit .procedure, child | createUnit .function, child =>
    child = .parameterList || child = .body
  | method _, child => child = .parameterList
  | parameterList, parameter _ => true
  | typeDecl .record, fieldDecl => true
  | _, _ => false

end NodeKind

namespace Forest

/-- How many lists of parameters there are at the top. -/
def lists (f : Forest) : Nat :=
  f.trees.countP (·.kind = .parameterList)

/-- The nodes at the top may stand below a node of the kind `parent`, and so on further down. No
node below them has two lists of parameters. -/
def Fits (parent : NodeKind) : Forest → Prop
  | nil => True
  | group _ rest => rest.Fits parent
  | node kind _ below rest =>
    ((kind.isPiece ∨ parent.mayHold kind) ∧ below.Fits kind ∧ below.lists ≤ 1) ∧ rest.Fits parent

variable {f g : Forest} {parent : NodeKind}

@[simp] theorem lists_append : (f.append g).lists = f.lists + g.lists := by
  rw [lists, trees_append, List.countP_append, lists, lists]

@[simp] theorem fits_append : (f.append g).Fits parent ↔ f.Fits parent ∧ g.Fits parent := by
  induction f with
  | nil => simp [append, Fits]
  | group _ rest ih => exact ih
  | node kind _ below rest _ ih => simp only [append, Fits, ih, and_assoc]

/-- A node that holds more holds this. -/
theorem Fits.mono {other : NodeKind} (h : f.Fits parent)
    (hother : ∀ child, parent.mayHold child → other.mayHold child) : f.Fits other := by
  induction f with
  | nil => trivial
  | group _ rest ih => exact ih h
  | node kind _ below rest _ ih => exact ⟨⟨h.1.1.imp id (hother kind), h.1.2⟩, ih h.2⟩

/-- Every node at the top holds what it may. -/
theorem Fits.of_mem {t : SyntaxTree} (h : f.Fits parent) (ht : t ∈ f.trees) :
    (t.kind.isPiece ∨ parent.mayHold t.kind) ∧ t.below.Fits t.kind ∧ t.below.lists ≤ 1 := by
  induction f with
  | nil => cases ht
  | group _ rest ih => exact ih h ht
  | node kind name below rest _ ih =>
    rcases List.mem_cons.1 ht with rfl | ht
    · exact h.1
    · exact ih h.2 ht

end Forest

/-- The node may stand below one of the kind `parent`, and so on further down. -/
def OpenNode.Fits (parent : NodeKind) (n : OpenNode) : Prop :=
  (n.kind.isPiece ∨ parent.mayHold n.kind) ∧ n.below.Fits n.kind ∧ n.below.lists ≤ 1

/-! ### What rules add -/

/-- From `n` to `m` nodes have been added that may stand below a node of the kind `parent`, among
them at most `lists` lists of parameters. -/
structure Grown (parent : NodeKind) (lists : Nat) (n m : OpenNode) : Prop where
  kind : m.kind = n.kind
  below : ∃ f, m.below = n.below.append f ∧ f.Fits parent ∧ f.lists ≤ lists

namespace Grown

variable {parent : NodeKind} {lists more : Nat} {n m l : OpenNode}

/-- Pieces may stand anywhere. -/
theorem pieces (h : Grown .identifier lists n m) : Grown parent lists n m :=
  let ⟨f, hbelow, hfits, hlists⟩ := h.below
  ⟨h.kind, f, hbelow, hfits.mono (fun _ h => nomatch h), hlists⟩

/-- Nothing has been added but groups. -/
theorem of_groups {f : Forest} (hkind : m.kind = n.kind) (hbelow : m.below = n.below.append f)
    (hf : f.Fits parent) (htrees : f.trees = []) : Grown parent lists n m :=
  ⟨hkind, f, hbelow, hf, by simp [Forest.lists, htrees]⟩

theorem refl (n : OpenNode) : Grown parent lists n n :=
  of_groups rfl (f := .nil) (Forest.append_nil n.below).symm trivial rfl

theorem trans (h1 : Grown parent lists n m) (h2 : Grown parent more m l) :
    Grown parent (lists + more) n l := by
  obtain ⟨f, hf, hfits, hlists⟩ := h1.below
  obtain ⟨g, hg, hgfits, hglists⟩ := h2.below
  refine ⟨h2.kind.trans h1.kind, f.append g, ?_, ?_, ?_⟩
  · rw [hg, hf, Forest.append_assoc]
  · exact Forest.fits_append.2 ⟨hfits, hgfits⟩
  · rw [Forest.lists_append]
    exact Nat.add_le_add hlists hglists

/-- The kind may change if what has been added so far may stand below the new one. -/
theorem setKind {first kind : NodeKind} (h1 : Grown kind lists { kind := first } n)
    (h2 : Grown kind more { n with kind } m) : Grown kind (lists + more) { kind } m :=
  (Grown.mk rfl h1.below : Grown kind lists { kind } { n with kind }).trans h2

/-- Grown from nothing, the node holds what it may. -/
theorem holds {kind : NodeKind} (h : Grown kind lists { kind } m) :
    m.kind = kind ∧ m.below.Fits m.kind ∧ m.below.lists ≤ lists := by
  obtain ⟨hsame, f, hbelow, hfits, hlists⟩ := h
  have hbelow : m.below = f := hbelow
  have hsame : m.kind = kind := hsame
  subst hbelow hsame
  exact ⟨rfl, hfits, hlists⟩

end Grown

namespace GrammarRule

/-- The rule adds to the open node what may stand below a node of the kind `parent`, with at most
`lists` lists of parameters at the top, and leaves its kind as it is. -/
def Adds {α : Type} (parent : NodeKind) (lists : Nat) (r : GrammarRule α) : Prop :=
  ∀ n, r.Leaves (fun _ => Grown parent lists n) n

variable {α β σ : Type} {parent : NodeKind} {lists : Nat}

namespace Adds

theorem done (a : α) : (GrammarRule.done a).Adds parent lists :=
  fun n => .refl n

theorem pure (a : α) : (Pure.pure a : GrammarRule α).Adds parent lists :=
  fun n => .refl n

theorem missing (expected : String) :
    (GrammarRule.missing expected : GrammarRule α).Adds parent lists :=
  fun _ => trivial

/-- First a rule that adds no list, then the others. -/
theorem bind {r : GrammarRule α} {f : α → GrammarRule β} (hr : r.Adds parent 0)
    (hf : ∀ a, (f a).Adds parent lists) : (r >>= f).Adds parent lists := by
  intro n
  refine (leaves_bind r f _ n).2 ((hr n).mono fun a m hm => (hf a m).mono fun _ l hl => ?_)
  have h := hm.trans hl
  rwa [Nat.zero_add] at h

/-- First a rule that may add lists, then others that add none. -/
theorem bind_left {r : GrammarRule α} {f : α → GrammarRule β} (hr : r.Adds parent lists)
    (hf : ∀ a, (f a).Adds parent 0) : (r >>= f).Adds parent lists := by
  intro n
  exact (leaves_bind r f _ n).2 ((hr n).mono fun a m hm => (hf a m).mono fun _ l hl => hm.trans hl)

theorem map {r : GrammarRule α} (f : α → β) (hr : r.Adds parent lists) :
    (f <$> r).Adds parent lists := by
  rw [map_eq_pure_bind]
  exact hr.bind_left fun a => pure (f a)

theorem ite {c : Prop} [Decidable c] {r r' : GrammarRule α} (hr : r.Adds parent lists)
    (hr' : r'.Adds parent lists) : (if c then r else r').Adds parent lists := by
  split
  · exact hr
  · exact hr'

theorem look {n : Nat} {next : Option Glance → GrammarRule α}
    (h : ∀ seen, (next seen).Adds parent lists) : (GrammarRule.look n next).Adds parent lists :=
  fun m seen => h seen m

theorem lineStart {n : Nat} {next : Bool → GrammarRule α}
    (h : ∀ b, (next b).Adds parent lists) : (GrammarRule.lineStart n next).Adds parent lists :=
  fun m b => h b m

theorem bump {next : GrammarRule α} (h : next.Adds parent lists) :
    (GrammarRule.bump next).Adds parent lists := by
  refine fun n => ⟨h n, fun g => (h _).mono fun _ m hm => ?_⟩
  have hg : Grown parent 0 n (n.addGroup g) := .of_groups rfl rfl trivial rfl
  have h := hg.trans hm
  rwa [Nat.zero_add] at h

theorem setName (name : Name) (a : α) :
    (GrammarRule.setName name (.done a)).Adds parent lists :=
  fun n => .of_groups rfl (Forest.append_nil n.below).symm trivial rfl

theorem within (construct : String) {r : GrammarRule α} (h : r.Adds parent lists) :
    (GrammarRule.within construct r .done).Adds parent lists :=
  h

/-- A node that may stand below the one around it is added to it. -/
theorem ofNode {kind : NodeKind} {inside : GrammarRule α}
    (h : inside.Leaves (fun _ child => child.Fits parent ∧
      (child.kind = .parameterList → 0 < lists)) { kind }) :
    (GrammarRule.node kind inside .done).Adds parent lists := by
  refine fun n => h.mono fun a child ⟨hfits, hlists⟩ => ⟨rfl, _, rfl, ⟨hfits, trivial⟩, ?_⟩
  by_cases hlist : child.kind = .parameterList
  · simpa [Forest.lists, Forest.trees, hlist] using Nat.succ_le_of_lt (hlists hlist)
  · simp [Forest.lists, Forest.trees, hlist]

/-- A node that keeps its kind and holds what it may. -/
theorem node {kind : NodeKind} {inside : GrammarRule α} (h : inside.Adds kind 1)
    (hkind : kind.isPiece ∨ parent.mayHold kind) (hlist : kind = .parameterList → 0 < lists) :
    (GrammarRule.node kind inside .done).Adds parent lists := by
  refine ofNode ((h { kind }).mono fun _ child hchild => ?_)
  obtain ⟨rfl, hholds⟩ := hchild.holds
  exact ⟨⟨hkind, hholds⟩, hlist⟩

/-- A piece of a declaration may stand anywhere. -/
theorem piece {kind : NodeKind} {inside : GrammarRule α} (h : inside.Adds kind 1)
    (hkind : kind.isPiece) : (GrammarRule.node kind inside .done).Adds parent lists :=
  h.node (Or.inl hkind) (by rintro rfl; cases hkind)

/-- A declaration below a node that may hold it. -/
theorem declaration {kind : NodeKind} {inside : GrammarRule α} (h : inside.Adds kind 1)
    (hkind : parent.mayHold kind) (hlist : kind ≠ .parameterList) :
    (GrammarRule.node kind inside .done).Adds parent lists :=
  h.node (Or.inr hkind) fun h => (hlist h).elim

theorem iterateUpTo {step : σ → GrammarRule (Option σ)} (h : ∀ s, (step s).Adds parent 0)
    (n : Nat) (s : σ) : (GrammarRule.iterateUpTo step n s).Adds parent lists :=
  iterateUpTo_induction (P := (·.Adds parent lists)) done (fun s _ hf => (h s).bind hf) n s

/-- What every step may add can be added by any number of steps. -/
theorem iterate {step : σ → GrammarRule (Option σ)} (h : ∀ s, (step s).Adds parent 0) (s : σ) :
    (GrammarRule.iterate step s).Adds parent lists :=
  fun n count => iterateUpTo h (count + 1) s n

theorem repeatWhile {step : GrammarRule Bool} (h : step.Adds parent 0) :
    (GrammarRule.repeatWhile step).Adds parent lists :=
  iterate (fun _ => h.bind fun _ => .pure _) ()

theorem times {rule : GrammarRule Unit} (h : rule.Adds parent 0) (n : Nat) :
    (GrammarRule.times n rule).Adds parent lists := by
  induction n with
  | zero => exact done ()
  | succ n ih => exact h.bind fun _ => ih

end Adds

/-! ### Pieces of declarations -/

theorem adds_key (n : Nat) : (key n).Adds parent lists :=
  .look .done

theorem adds_at {n : Nat} {p : Glance → Bool} : (at? n p).Adds parent lists :=
  .look fun _ => .done _

theorem adds_atEnd : atEnd.Adds parent lists :=
  .look fun _ => .done _

theorem adds_startsLine {n : Nat} : (startsLine n).Adds parent lists :=
  .lineStart .done

/-- Both, or the first only. -/
theorem Adds.and {r r' : GrammarRule Bool} (h : r.Adds parent 0) (h' : r'.Adds parent lists) :
    (r <&&> r').Adds parent lists := by
  refine h.bind fun b => ?_
  cases b
  · exact .pure _
  · exact h'

theorem Adds.or {r r' : GrammarRule Bool} (h : r.Adds parent 0) (h' : r'.Adds parent lists) :
    (r <||> r').Adds parent lists := by
  refine h.bind fun b => ?_
  cases b
  · exact h'
  · exact .pure _

theorem adds_atTerminator (n : Nat) : (atTerminator n).Adds parent lists :=
  .and adds_at (.and adds_startsLine (.or (.look fun _ => .done _) adds_startsLine))

theorem adds_atCreate (n : Nat) : (atCreate n).Adds parent lists :=
  .and adds_at adds_startsLine

theorem adds_take : take.Adds parent lists :=
  .bump (.done ())

theorem adds_takeIf {test : GrammarRule Bool} (h : test.Adds parent 0) :
    (takeIf test).Adds parent lists :=
  h.bind fun _ => .ite (adds_take.bind fun _ => .pure _) (.pure _)

theorem adds_takeWord (word : String) : (takeWord word).Adds parent lists :=
  adds_takeIf adds_at

theorem adds_takeKind (kind : SqlKind) : (takeKind kind).Adds parent lists :=
  adds_takeIf adds_at

theorem adds_expectWord (word : String) : (expectWord word).Adds parent lists :=
  (adds_takeWord word).bind fun _ => .ite (.pure _) (.missing _)

theorem adds_expectKind (kind : SqlKind) (what : String) :
    (expectKind kind what).Adds parent lists :=
  (adds_takeKind kind).bind fun _ => .ite (.pure _) (.missing _)

theorem adds_expectIsOrAs : expectIsOrAs.Adds parent lists :=
  (Adds.or (adds_takeWord _) (adds_takeWord _)).bind fun _ => .ite (.pure _) (.missing _)

theorem adds_leaf {kind : NodeKind} (hkind : kind.isPiece) : (leaf kind).Adds parent lists :=
  adds_take.piece hkind

theorem adds_skipParens : skipParens.Adds parent lists := by
  refine adds_at.bind fun _ => .ite (Adds.bind (.iterate (fun depth => ?_) 0) fun _ => .pure _)
    (.pure _)
  refine (adds_key 0).bind fun seen => ?_
  cases seen with
  | none => exact .pure _
  | some t => exact adds_take.bind fun _ => .pure _

theorem adds_skipUntil (stop : SqlKind → Bool) : (skipUntil stop).Adds parent lists := by
  refine Adds.bind (.iterate (fun depth => ?_) 0) fun _ => .pure _
  refine (adds_atTerminator 0).bind fun _ => .ite (.pure _) ((adds_key 0).bind fun seen => ?_)
  cases seen with
  | none => exact .pure _
  | some t => exact .ite (.pure _) (adds_take.bind fun _ => .pure _)

theorem adds_skipStatement : skipStatement.Adds parent lists :=
  (adds_skipUntil _).bind fun _ => (adds_takeKind _).bind fun _ => .pure _

theorem adds_skipToTerminator : skipToTerminator.Adds parent lists :=
  .repeatWhile <| (Adds.or adds_atEnd (.or (adds_atTerminator 0) (adds_atCreate 0))).bind fun _ =>
    .ite (.pure _) (adds_take.bind fun _ => .pure _)

theorem adds_skipLine : skipLine.Adds parent lists :=
  adds_take.bind fun _ => .repeatWhile <| (Adds.or adds_atEnd adds_startsLine).bind fun _ =>
    .ite (.pure _) (adds_take.bind fun _ => .pure _)

theorem adds_namePart (n : Name) : (namePart n).Adds parent lists :=
  .look fun _ => .bump (.done _)

theorem adds_name : name.Adds parent lists :=
  adds_at.bind fun _ => .ite ((adds_namePart _).bind (Adds.iterate fun n =>
    (Adds.and adds_at adds_at).bind fun _ =>
      .ite (adds_take.bind fun _ => (adds_namePart n).map some) (.pure _)))
    (.missing _)

theorem adds_identifier : identifier.Adds parent lists :=
  (adds_name.bind fun n => .setName n n).piece rfl

theorem adds_declaredName : declaredName.Adds parent lists :=
  adds_identifier.bind fun n => .setName n ()

theorem adds_modifier {inside : GrammarRule Unit} (h : inside.Adds .modifier 1) :
    (modifier inside).Adds parent lists := by
  refine Adds.piece ((adds_key 0).bind fun first => ?_) rfl
  cases first with
  | none => exact h
  | some t => exact (adds_key 1).bind fun second => Adds.bind (.setName _ ()) fun _ => h

theorem adds_typeWords (base : Name) : (typeWords base).Adds parent lists := by
  have hvarying (words : List String) : (repeatWhile do
      if ← atAnyWord 0 words <&&> (not <$> atWord 1 "SET") then
        take
        return true
      else return false).Adds parent 0 :=
    .repeatWhile <| (Adds.and adds_at (adds_at.map not)).bind fun _ =>
      .ite (adds_take.bind fun _ => .pure _) (.pure _)
  unfold typeWords
  split
  case h_1 | h_2 => exact (adds_takeWord _).bind fun _ => .ite (.pure _) (.pure _)
  case h_3 | h_4 | h_5 => exact (hvarying _).bind fun _ => .pure _
  case h_6 =>
    exact adds_take.bind fun _ => adds_skipParens.bind fun _ => (adds_expectWord _).bind fun _ =>
      adds_take.bind fun _ => .pure _
  case h_7 => exact .pure _

theorem adds_timeZone (base : Name) : (timeZone base).Adds parent lists :=
  .ite ((adds_takeWord _).bind fun _ => .ite ((adds_takeWord _).bind fun _ =>
    (adds_expectWord _).bind fun _ => adds_expectWord _) (.pure _)) (.pure _)

theorem adds_typeAttribute (n : Name) : (typeAttribute n).Adds parent lists :=
  (Adds.and adds_at adds_at).bind fun _ =>
    .ite (adds_take.bind fun _ => .look fun _ => .bump (.done _)) (.pure _)

theorem adds_databaseLink : databaseLink.Adds parent lists :=
  (Adds.and adds_at adds_at).bind fun _ =>
    .ite (adds_take.bind fun _ => adds_name.bind fun _ => .pure _) (.pure _)

theorem adds_characterSet : characterSet.Adds parent lists :=
  (Adds.and adds_at adds_at).bind fun _ =>
    .ite (adds_take.bind fun _ => adds_take.bind fun _ => adds_name.bind fun _ =>
      (adds_takeKind _).bind fun _ => .ite adds_take (.pure _)) (.pure _)

theorem adds_typeExpr : typeExpr.Adds parent lists := by
  refine Adds.piece ?_ rfl
  exact (adds_takeIf (.and adds_at (adds_at.map not))).bind fun _ => adds_name.bind fun base =>
    (adds_typeWords base).bind fun full => adds_skipParens.bind fun _ =>
    (adds_timeZone base).bind fun _ => (adds_typeAttribute full).bind fun full =>
    adds_databaseLink.bind fun _ => adds_characterSet.bind fun _ => .setName full ()

theorem adds_notNull : notNull.Adds parent lists :=
  (Adds.and adds_at adds_at).bind fun _ =>
    .ite (adds_modifier (adds_take.bind fun _ => adds_take)) (.pure _)

theorem adds_collectionType : collectionType.Adds parent lists := by
  have hrest : (do typeExpr; notNull : GrammarRule Unit).Adds parent lists :=
    adds_typeExpr.bind fun _ => adds_notNull
  refine (adds_takeWord _).bind fun _ => .ite ((adds_expectWord _).bind fun _ => hrest) ?_
  have harray : (do
      if ← atKind 0 .lparen then node .literal skipParens .done
      expectWord "OF"
      typeExpr
      notNull : GrammarRule Unit).Adds parent lists :=
    adds_at.bind fun _ => .ite
      ((adds_skipParens.piece rfl).bind fun _ => (adds_expectWord _).bind fun _ => hrest)
      ((adds_expectWord _).bind fun _ => hrest)
  exact (adds_takeWord _).bind fun _ =>
    .ite ((adds_expectWord _).bind fun _ => harray) ((adds_expectWord _).bind fun _ => harray)

theorem adds_expression : expression.Adds parent lists :=
  (Adds.or adds_atEnd adds_at).bind fun _ =>
    .ite ((Adds.missing _).bind fun _ => (adds_skipUntil _).piece rfl)
      ((adds_skipUntil _).piece rfl)

theorem adds_defaultValue : defaultValue.Adds parent lists :=
  adds_notNull.bind fun _ => (adds_takeIf (.or adds_at adds_at)).bind fun _ =>
    .ite adds_expression (.pure _)

theorem adds_keywordNode (word : String) : (keywordNode word).Adds parent lists :=
  adds_at.bind fun _ => .ite ((adds_leaf rfl).bind fun _ => .pure _) (.pure _)

theorem adds_returnClause : returnClause.Adds parent lists := by
  have hself : (do
      times 3 take
      setName ⟨["SELF AS RESULT"]⟩ (.done ()) : GrammarRule Unit).Adds .typeExpr 1 :=
    (Adds.times adds_take 3).bind fun _ => .setName _ ()
  refine Adds.piece ?_ rfl
  exact (adds_expectWord _).bind fun _ => (Adds.and adds_at (.and adds_at adds_at)).bind fun _ =>
    .ite (hself.piece rfl) adds_typeExpr

theorem adds_routineModifiers : routineModifiers.Adds parent lists := by
  have hwords (more : Nat) : (do
      let more ← Pure.pure more
      times (more + 1) take
      skipParens : GrammarRule Unit).Adds .modifier 1 :=
    (Adds.pure more).bind fun more => (Adds.times adds_take _).bind fun _ => adds_skipParens
  have hmodifier : routineModifier.Adds parent 0 :=
    adds_modifier <| adds_at.bind fun _ => adds_at.bind fun _ =>
      .ite (hwords 1) (.ite (hwords 2) (hwords 0))
  exact .repeatWhile <| (Adds.or adds_atEnd
    (.or (adds_atTerminator 0) (.or adds_at adds_at))).bind fun _ =>
      .ite (.pure _) (hmodifier.bind fun _ => .pure _)

theorem adds_indexBy : indexBy.Adds parent lists := by
  refine Adds.piece ?_ rfl
  exact Adds.bind (.setName _ ()) fun _ => adds_take.bind fun _ => (adds_expectWord _).bind fun _ =>
    adds_typeExpr

theorem adds_under : under.Adds parent lists := by
  have hname : (do
      if ← atName 0 then setName (← name) (.done ()) : GrammarRule Unit).Adds .typeExpr 1 :=
    adds_at.bind fun _ => .ite (adds_name.bind fun n => .setName n ()) (.pure _)
  exact adds_modifier (adds_take.bind fun _ => hname.piece rfl)

theorem adds_typeBasis : typeBasis.Adds parent lists :=
  adds_at.bind fun _ => .ite (adds_leaf rfl) <| adds_at.bind fun _ =>
    .ite adds_collectionType (.missing _)

theorem adds_typeModifiers : typeModifiers.Adds parent lists := by
  refine Adds.bind (.repeatWhile ?_) fun _ => (adds_takeKind _).bind fun _ => .pure _
  have hmodifier : (modifier do
      let _ ← takeWord "NOT"
      take).Adds parent 0 :=
    adds_modifier ((adds_takeWord _).bind fun _ => adds_take)
  exact (Adds.or adds_atEnd (.or (adds_atTerminator 0) (.or adds_at (adds_atCreate 0)))).bind
    fun _ => .ite (.pure _) (hmodifier.bind fun _ => .pure _)

theorem adds_createOffset : createOffset.Adds parent lists :=
  (Adds.and adds_at adds_at).bind fun _ => adds_at.bind fun _ => .pure _

theorem adds_atForeignBody : atForeignBody.Adds parent lists :=
  adds_createOffset.bind fun _ => .and adds_at adds_at

theorem adds_unitClauses : unitClauses.Adds parent lists := by
  have hclause {inside : GrammarRule Unit} (h : inside.Adds .modifier 1) :
      (modifier inside >>= fun _ => Pure.pure true).Adds parent 0 :=
    (adds_modifier h).bind fun _ => .pure _
  have hsharing : (do
      take
      let _ ← takeIf (atOperator 0 "=")
      take).Adds .modifier 1 :=
    adds_take.bind fun _ => (adds_takeIf adds_at).bind fun _ => adds_take
  have haccessible : (do
      times 2 take
      skipParens).Adds .modifier 1 :=
    (Adds.times adds_take 2).bind fun _ => adds_skipParens
  refine .repeatWhile ?_
  exact adds_at.bind fun _ => .ite (hclause hsharing) <|
    adds_at.bind fun _ => .ite (hclause (.times adds_take 2)) <|
    (Adds.and adds_at adds_at).bind fun _ => .ite (hclause haccessible) <|
    (Adds.and adds_at adds_at).bind fun _ => .ite (hclause (.times adds_take 3)) <|
    adds_at.bind fun _ => .ite (hclause adds_take) <|
    adds_at.bind fun _ => .ite (hclause (.times adds_take 2)) (.pure _)

theorem adds_endClause : endClause.Adds parent lists := by
  have hmark : (do let _ ← takeKind .semicolon : GrammarRule Unit).Adds .keyword 1 :=
    (adds_takeKind _).bind fun _ => .pure _
  refine Adds.piece ?_ rfl
  exact (adds_expectWord _).bind fun _ => adds_at.bind fun _ =>
    .ite (adds_name.bind fun n => Adds.bind (.setName n ()) fun _ => hmark) hmark

end GrammarRule
end SqlDoc

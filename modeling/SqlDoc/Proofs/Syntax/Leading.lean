/-
# Statements and the methods of packages begin with a token

A rule that takes a group before it opens a node leaves a node that begins with that group
(`begins_run`). The words that tell what a statement is, or that a declaration of a package is a
method, are taken first. So the nodes of both begin with a group of their own, which is in no other
node below them (`parseTokens_begins`, `parseTokens_leading`). In an object type modifiers may come
before the words of a method.

Key definitions: `GrammarRule.TakesFirst`, `Forest.Begins`, `Forest.Led`.
Key theorems: `begins_run`, `begins_of_takesFirst`, `parseTokens_begins`, `parseTokens_leading`.
-/
import SqlDoc.Proofs.Syntax.Builder
import SqlDoc.Proofs.Syntax.Putting

namespace SqlDoc

/-! ### Rules that take a group first -/

/-- A group comes first. -/
def Forest.Begins (f : Forest) : Prop :=
  ∃ g rest, f = .group g rest

theorem Forest.Begins.append {f : Forest} (h : f.Begins) (g : Forest) : (f.append g).Begins := by
  obtain ⟨first, rest, rfl⟩ := h
  exact ⟨first, _, rfl⟩

namespace GrammarRule

variable {α β : Type}

/-- The rule takes a group before it opens a node, on every way to a result. -/
def TakesFirst {α : Type} : GrammarRule α → Prop
  | done _ => False
  | missing _ => True
  | look _ next => ∀ seen, (next seen).TakesFirst
  | lineStart _ next => ∀ b, (next b).TakesFirst
  | remaining next => ∀ n, (next n).TakesFirst
  | bump _ => True
  | node _ _ _ => False
  | setName _ next => next.TakesFirst
  | setKind _ next => next.TakesFirst
  | within _ inside _ => inside.TakesFirst

theorem TakesFirst.bind {r : GrammarRule α} (h : r.TakesFirst) (f : α → GrammarRule β) :
    (r >>= f).TakesFirst := by
  show (r.bind f).TakesFirst
  induction r with
  | done => exact h.elim
  | missing => trivial
  | look n next ih => exact fun seen => ih seen (h seen) f
  | lineStart n next ih => exact fun b => ih b (h b) f
  | remaining next ih => exact fun n => ih n (h n) f
  | bump next ih => trivial
  | node => exact h.elim
  | setName name next ih => exact ih h f
  | setKind kind next ih => exact ih h f
  | within => exact h

/-- A word that is there is taken. If it is not, what comes next must take a group. -/
theorem TakesFirst.takeWord (word : String) {f : Bool → GrammarRule β} (h : (f false).TakesFirst) :
    (GrammarRule.takeWord word >>= f).TakesFirst := by
  intro seen
  change ((if (seen.any fun t => t.kind.isWord && [word].contains t.value) = true then
    (take >>= fun _ => pure true) else pure false : GrammarRule Bool).bind f).TakesFirst
  split
  · trivial
  · exact h

/-- Looking ahead takes nothing. -/
theorem OnlyLooks.takesFirst_bind {r : GrammarRule α} (h : r.OnlyLooks) {f : α → GrammarRule β}
    (hf : ∀ a, (f a).TakesFirst) : (r >>= f).TakesFirst := by
  show (r.bind f).TakesFirst
  induction r with
  | done a => exact hf a
  | look n next ih => exact fun seen => ih seen (h seen) hf
  | lineStart n next ih => exact fun b => ih b (h b) hf
  | remaining next ih => exact fun n => ih n (h n) hf
  | _ => exact h.elim

theorem takesFirst_expectWord (word : String) : (expectWord word).TakesFirst :=
  .takeWord word trivial

theorem takesFirst_methodWords (kind : MethodKind) : (methodWords kind).TakesFirst := by
  unfold methodWords
  split
  · exact (takesFirst_expectWord _).bind _
  · show (takeWord "PROCEDURE" >>= _ >>= _ : GrammarRule Unit).TakesFirst
    rw [LawfulMonad.bind_assoc]
    refine .takeWord "PROCEDURE" ?_
    exact .takeWord "FUNCTION" trivial

end GrammarRule

theorem GrammarRule.takesFirst_statement : statement.TakesFirst := by
  refine OnlyLooks.statementForm.takesFirst_bind fun form => ?_
  show (statementInside form).TakesFirst
  cases form with
  | create | terminator => trivial
  | command =>
    intro seen
    cases seen <;> trivial
  | unknown =>
    have hlooks : (atAnyWord 0 ["DECLARE", "BEGIN"] <||> atForeignBody).OnlyLooks :=
      .or (.at? ..) (.bind .createOffset fun _ => .and (.at? ..) (.at? ..))
    exact hlooks.takesFirst_bind fun _ => trivial

/-- Reading has come to a place where a group is next, or a group has been taken first. -/
def ParseState.Begun {α : Type} (r : GrammarRule α) (s : ParseState) : Prop :=
  s.current.below.Begins ∨ r.TakesFirst ∧ s.current.below = .nil ∧
    ∃ g groups error, s.stream.Holds (g :: groups) error

/-- What a rule leaves begins with the group that it takes first. -/
theorem begins_run {α : Type} {r : GrammarRule α} {s next : ParseState} {a : α} (h : s.Begun r)
    (hrun : r.run s = (.ok a, next)) : next.current.below.Begins := by
  induction r generalizing s next with
  | done =>
    cases hrun
    exact h.resolve_right fun hmust => hmust.1
  | missing => cases hrun
  | look n rest ih =>
    refine ih _ (s := (s.key n).2) ?_ hrun
    refine h.imp id fun ⟨hmust, hnil, g, groups, error, hholds⟩ => ?_
    exact ⟨hmust _, hnil, g, groups, error, (hholds.peekKey n).2⟩
  | lineStart n rest ih =>
    have hcurrent := s.startsLine_current n
    refine ih _ (s := (s.startsLine n).2) ?_ hrun
    rw [ParseState.Begun, hcurrent]
    refine h.imp id fun ⟨hmust, hnil, g, groups, error, hholds⟩ => ?_
    exact ⟨hmust _, hnil, g, groups, error, (took_startsLine hholds n).holds⟩
  | remaining rest ih =>
    exact ih _ (h.imp id fun ⟨hmust, hrest⟩ => ⟨hmust _, hrest⟩) hrun
  | bump rest ih =>
    refine ih (.inl ?_) hrun
    rcases h with hbegins | ⟨-, hnil, g, groups, error, hholds⟩
    · unfold ParseState.bump
      split
      · exact hbegins
      · exact hbegins.append _
    · have hhead := hholds.next.1
      unfold ParseState.bump
      split
      · rename_i stream hnext
        rw [hnext] at hhead
        cases hhead
      · rename_i group stream hnext
        exact ⟨group, .nil, congrArg (Forest.append · _) hnil⟩
  | node kind inside rest ihinside ihrest =>
    obtain ⟨b, inner, hinner, hrest⟩ := GrammarRule.ok_of_node hrun
    have hbelow := h.resolve_right fun hmust => hmust.1
    exact ihrest b (.inl (hbelow.append _)) hrest
  | setName name rest ih =>
    exact ih (s := { s with current := { s.current with name := some name } }) h hrun
  | setKind kind rest ih => exact ih (s := { s with current := { s.current with kind } }) h hrun
  | within construct inside rest ihinside ihrest =>
    obtain ⟨b, inner, hinner, hrest⟩ := GrammarRule.ok_of_within hrun
    exact ihrest b (.inl (ihinside h hinner)) hrest

/-- A node whose inside takes a group first begins with that group, if it has groups. -/
theorem begins_of_takesFirst {α : Type} {r : GrammarRule α} {groups : List SqlGroup}
    {error : Option LexError} {s next : ParseState} {a : α} (h : r.TakesFirst)
    (hholds : s.stream.Holds groups error) (hcurrent : s.current.below = .nil)
    (hrun : r.run s = (.ok a, next)) (hgroups : next.current.below.groups ≠ []) :
    next.current.below.Begins := by
  cases groups with
  | nil =>
    obtain ⟨taken, left, htook, -⟩ := took_of_run hholds hrun
    have hcovers := htook.current
    rw [hcurrent, (List.append_eq_nil_iff.1 htook.groups_eq.symm).1] at hcovers
    exact absurd hcovers hgroups
  | cons g groups => exact begins_run (.inr ⟨h, hcurrent, g, groups, error, hholds⟩) hrun

/-! ### Methods of a package -/

/-- A method at the top that has groups begins with one of them. -/
def Forest.Led (f : Forest) : Prop :=
  ∀ t ∈ f.trees, ∀ kind, t.kind = .method kind → t.groups ≠ [] → t.below.Begins

/-- Methods are no pieces of declarations. -/
instance : Forest.Additive Forest.Led where
  pieces hf t ht kind hkind := by
    rcases (hf.of_mem ht).1 with hpiece | hhold
    · rw [hkind] at hpiece
      cases hpiece
    · cases hhold
  append hf hg t ht := by
    rw [Forest.trees_append] at ht
    exact (List.mem_append.1 ht).elim (hf t) (hg t)

namespace GrammarRule

variable {α : Type} {kind : NodeKind} {inside : GrammarRule α}

/-- A node that is no method. -/
theorem puts_node (h : inside.Leaves (fun _ child => ∀ m, child.kind ≠ .method m) { kind }) :
    (GrammarRule.node kind inside .done).Puts Forest.Led := by
  refine Puts.node fun groups error s next a hholds hcurrent hrun => ?_
  rw [← hcurrent] at h
  intro t ht m hm
  obtain rfl := List.mem_singleton.1 ht
  exact absurd hm (leaves_run h hrun m)

/-- A node whose inside takes a group first. -/
theorem puts_node_of_takesFirst (h : inside.TakesFirst) :
    (GrammarRule.node kind inside .done).Puts Forest.Led := by
  refine Puts.node fun groups error s next a hholds hcurrent hrun => ?_
  intro t ht m hm hgroups
  obtain rfl := List.mem_singleton.1 ht
  exact begins_of_takesFirst h hholds (by rw [hcurrent]) hrun hgroups

theorem puts_method : (method 0 0 false).Puts Forest.Led := by
  rw [method_eq]
  refine .bind (.of_pieces adds_at) fun _ => .bind (.of_pieces adds_at) fun _ => .within _ ?_
  exact puts_node_of_takesFirst ((takesFirst_methodWords _).bind _)

theorem puts_cursor : cursor.Puts Forest.Led :=
  .within _ (puts_node_of_takesFirst ((takesFirst_expectWord _).bind _))

theorem puts_typeDecl : typeDecl.Puts Forest.Led := by
  have hany {β : Type} {r : GrammarRule β} (h : r.Adds .identifier 0) (n : OpenNode) :
      r.Leaves (fun _ _ => True) n := (h n).mono fun _ _ _ => trivial
  have hend : expectSemicolon.Adds .identifier 0 := adds_expectKind _ _
  refine .within _ (puts_node ?_)
  refine (leaves_bind ..).2 ((hany (adds_expectWord _) _).mono fun _ _ _ => ?_)
  refine (leaves_bind ..).2 ((hany adds_declaredName _).mono fun _ _ _ => ?_)
  refine (leaves_bind ..).2 ((hany adds_expectIsOrAs _).mono fun _ _ _ => ?_)
  refine (leaves_bind ..).2 ((defines_typeDefinition _).mono fun shape n _ => ?_)
  refine (hend { n with kind := .typeDecl shape }).mono fun _ m hm kind hkind => ?_
  cases hm.kind.symm.trans hkind

/-- Every declaration of a package that is a method begins with a group. -/
theorem putsDeclarations_led : PutsDeclarations Forest.Led where
  node hkind h := puts_node ((h _).mono fun _ _ hchild m hm => hkind m (hchild.kind.symm.trans hm))
  method := puts_method
  cursor := puts_cursor
  typeDecl := puts_typeDecl

theorem puts_package (n : Nat) (isBody : Bool) :
    (statementInside (.create .package n isBody)).Puts Forest.Led := by
  have hname : (do declaredName; unitRest .package).Puts Forest.Led :=
    .bind (.of_pieces adds_declaredName) fun _ => putsDeclarations_led.package
  exact .within _ <| .bind (.of_pieces (.times adds_take _)) fun _ =>
    .ite (.bind (.of_pieces adds_take) fun _ => hname) hname

/-- A statement that creates a package leaves its methods, each beginning with a group. -/
theorem led_statement {groups : List SqlGroup} {error : Option LexError} {s next : ParseState}
    (h : s.stream.Holds groups error) (hcurrent : s.current.below = .nil)
    (hrun : statement.run s = (.ok (), next)) (hkind : next.current.kind = .createUnit .package) :
    next.current.below.Led := by
  obtain ⟨form, mid, hform, hinside⟩ := ok_of_statement hrun
  obtain ⟨taken, left, htook, -⟩ := took_of_run h hform
  have hformkind : next.current.kind = form.kind :=
    (leaves_run (adds_statementInside form _) hinside).kind
  obtain ⟨n, isBody, rfl⟩ : ∃ n isBody, form = .create .package n isBody := by
    cases form with
    | create unit n isBody =>
      cases hformkind.symm.trans hkind
      exact ⟨n, isBody, rfl⟩
    | _ => cases hformkind.symm.trans hkind
  have hpieces : statementForm.Puts Forest.Led := .of_pieces adds_statementForm
  obtain ⟨f, hf, hledf⟩ := hpieces h hform
  have hpackage := Puts.setKind (.createUnit .package) (puts_package n isBody)
  obtain ⟨g, hg, hledg⟩ := hpackage htook.holds hinside
  rw [hg, hf, hcurrent]
  exact Forest.Additive.append hledf hledg

end GrammarRule

/-- A statement that has groups begins with one of them. -/
theorem parseTokens_begins (lexed : Lexed) :
    ∀ t ∈ (parseTokens lexed).trees, t.groups ≠ [] → t.below.Begins := by
  refine ParseState.forall_statementsUpTo
    (I := fun s => ∃ groups, s.stream.Holds groups lexed.error) (fun hheld _ hrun => ?_)
    ⟨_, TokenStream.holds_ofLexed lexed⟩
  obtain ⟨groups, h⟩ := hheld
  obtain ⟨taken, left, htook, -⟩ := took_of_run (h.peekKey 0).2 hrun
  exact ⟨begins_of_takesFirst GrammarRule.takesFirst_statement (h.peekKey 0).2 rfl hrun, left,
    htook.holds⟩

/-- In a package a method that has groups begins with one of them. -/
theorem parseTokens_leading (lexed : Lexed) :
    ∀ t ∈ (parseTokens lexed).trees, t.kind = .createUnit .package → t.below.Led := by
  refine ParseState.forall_statementsUpTo
    (I := fun s => ∃ groups, s.stream.Holds groups lexed.error) (fun hheld _ hrun => ?_)
    ⟨_, TokenStream.holds_ofLexed lexed⟩
  obtain ⟨groups, h⟩ := hheld
  obtain ⟨taken, left, htook, -⟩ := took_of_run (h.peekKey 0).2 hrun
  exact ⟨GrammarRule.led_statement (h.peekKey 0).2 rfl hrun, left, htook.holds⟩

end SqlDoc

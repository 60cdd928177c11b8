/-
# What a rule takes

A rule that ends with a result has put the groups that it took, in order and each of them once, into
the node that was open when it began, and has left the others to be read (`took_of_run`). This holds
of every rule, whatever it looks at and however its nodes are nested, because a rule can take groups
in one way only.

Some rules cannot end without taking a group, unless none is left (`GrammarRule.MustTake`). The rule
for a statement is one of them, so reading statements comes to an end.

Key definitions: `Took`, `GrammarRule.MustTake`.
Key theorems: `took_of_run`, `mustTake_statement`.
-/
import SqlDoc.Proofs.Sql.Grouping
import SqlDoc.Syntax.Statement

namespace SqlDoc

open GrammarRule

/-! ### Steps of a rule -/

/-- From `s`, which holds `groups`, reading comes to `next`: some groups have been taken into the
open node, and the others are left. -/
structure Took (groups : List SqlGroup) (error : Option LexError) (s next : ParseState)
    (taken left : List SqlGroup) : Prop where
  groups_eq : groups = taken ++ left
  holds : next.stream.Holds left error
  current : next.current.below.groups = s.current.below.groups ++ taken

variable {groups : List SqlGroup} {error : Option LexError} {s : ParseState}

theorem Took.append {mid next : ParseState} {first second between left : List SqlGroup}
    (h1 : Took groups error s mid first between) (h2 : Took between error mid next second left) :
    Took groups error s next (first ++ second) left where
  groups_eq := by rw [h1.groups_eq, h2.groups_eq, List.append_assoc]
  holds := h2.holds
  current := by rw [h2.current, h1.current, List.append_assoc]

/-- What has been added to the open node holds the groups that have been taken. -/
theorem Took.groups_of_below {next : ParseState} {taken left : List SqlGroup} {f : Forest}
    (h : Took groups error s next taken left)
    (hbelow : next.current.below = s.current.below.append f) : f.groups = taken := by
  have hcurrent := h.current
  rw [hbelow, Forest.groups_append] at hcurrent
  exact List.append_cancel_left hcurrent

/-- If the second of two rules takes a group wherever one is left, the two together take one. -/
theorem Took.append_ne_nil {mid : ParseState} {first second between : List SqlGroup}
    (h1 : Took groups error s mid first between) (hgroups : groups ≠ [])
    (h : first ≠ [] ∨ (between ≠ [] → second ≠ [])) : first ++ second ≠ [] := by
  intro hnil
  obtain ⟨hfirst, hsecond⟩ := List.append_eq_nil_iff.1 hnil
  rcases h with h | h
  · exact h hfirst
  · refine h (fun hbetween => hgroups ?_) hsecond
    rw [h1.groups_eq, hfirst, hbetween]
    rfl

/-- What only looks takes nothing. -/
theorem Took.looked {next : ParseState} (h : next.stream.Holds groups error)
    (hcurrent : next.current.below.groups = s.current.below.groups) :
    Took groups error s next [] groups where
  groups_eq := rfl
  holds := h
  current := by rw [hcurrent, List.append_nil]

theorem took_key (h : s.stream.Holds groups error) (n : Nat) :
    Took groups error s (s.key n).2 [] groups :=
  .looked (h.peekKey n).2 rfl

theorem took_startsLine (h : s.stream.Holds groups error) (n : Nat) :
    Took groups error s (s.startsLine n).2 [] groups := by
  unfold ParseState.startsLine
  split
  · exact .looked h rfl
  · exact .looked (h.peek n).2 rfl

/-- The first group that is left comes to stand at the end of the open node. -/
theorem current_bump (h : s.stream.Holds groups error) :
    s.bump.current = groups.head?.elim s.current s.current.addGroup := by
  obtain ⟨hhead, -⟩ := h.next
  unfold ParseState.bump
  rw [← hhead]
  cases s.stream.next with
  | mk group stream => cases group <;> rfl

/-- Taking a group moves the first one that is left to the end of the open node. -/
theorem took_bump (h : s.stream.Holds groups error) :
    Took groups error s s.bump (groups.take 1) groups.tail := by
  obtain ⟨hhead, hnext⟩ := h.next
  unfold ParseState.bump
  cases groups with
  | nil =>
    cases hn : s.stream.next with
    | mk group stream =>
      rw [hn] at hhead hnext
      obtain rfl : group = none := hhead
      exact .looked hnext rfl
  | cons g groups =>
    cases hn : s.stream.next with
    | mk group stream =>
      rw [hn] at hhead hnext
      obtain rfl : group = some g := hhead
      refine ⟨rfl, hnext, ?_⟩
      simp [OpenNode.addGroup, Forest.groups]

/-! ### Rules that must take -/

namespace GrammarRule

/-- The rule takes a group on every way to a result. -/
def MustTake {α : Type} : GrammarRule α → Prop
  | done _ => False
  | missing _ => True
  | look _ next => ∀ seen, (next seen).MustTake
  | lineStart _ next => ∀ b, (next b).MustTake
  | remaining next => ∀ n, (next n).MustTake
  | bump _ => True
  | node _ inside next => inside.MustTake ∨ ∀ b, (next b).MustTake
  | setName _ next => next.MustTake
  | setKind _ next => next.MustTake
  | within _ inside next => inside.MustTake ∨ ∀ b, (next b).MustTake

theorem MustTake.bind_left {α β : Type} {r : GrammarRule α} (h : r.MustTake)
    (f : α → GrammarRule β) : (r.bind f).MustTake := by
  induction r with
  | done => exact h.elim
  | missing => trivial
  | look n next ih => exact fun seen => ih seen (h seen) f
  | lineStart n next ih => exact fun b => ih b (h b) f
  | remaining next ih => exact fun n => ih n (h n) f
  | bump next ih => trivial
  | node kind inside next _ ih => exact h.imp id fun h b => ih b (h b) f
  | setName name next ih => exact ih h f
  | setKind kind next ih => exact ih h f
  | within construct inside next _ ih => exact h.imp id fun h b => ih b (h b) f

theorem MustTake.bind_right {α β : Type} (r : GrammarRule α) {f : α → GrammarRule β}
    (h : ∀ a, (f a).MustTake) : (r.bind f).MustTake := by
  induction r with
  | done a => exact h a
  | missing => trivial
  | look n next ih => exact fun seen => ih seen h
  | lineStart n next ih => exact fun b => ih b h
  | remaining next ih => exact fun n => ih n h
  | bump next ih => trivial
  | node kind inside next _ ih => exact Or.inr fun b => ih b h
  | setName name next ih => exact ih h
  | setKind kind next ih => exact ih h
  | within construct inside next _ ih => exact Or.inr fun b => ih b h

end GrammarRule

/-! ### Runs of a rule -/

/-- Whatever a rule that ends with a result has taken is in the open node, and it has taken
something if it must and can. -/
theorem took_of_run {α : Type} {r : GrammarRule α} {a : α} {next : ParseState}
    (h : s.stream.Holds groups error) (hrun : r.run s = (.ok a, next)) :
    ∃ taken left, Took groups error s next taken left ∧
      (r.MustTake → groups ≠ [] → taken ≠ []) := by
  induction r generalizing s groups next with
  | done =>
    cases hrun
    exact ⟨[], groups, .looked h rfl, fun hmust => hmust.elim⟩
  | missing => cases hrun
  | look n rest ih =>
    have hlook := took_key h n
    obtain ⟨taken, left, htook, hne⟩ := ih _ hlook.holds hrun
    exact ⟨taken, left, hlook.append htook, fun hmust => hne (hmust _)⟩
  | lineStart n rest ih =>
    have hlook := took_startsLine h n
    obtain ⟨taken, left, htook, hne⟩ := ih _ hlook.holds hrun
    exact ⟨taken, left, hlook.append htook, fun hmust => hne (hmust _)⟩
  | remaining rest ih =>
    obtain ⟨taken, left, htook, hne⟩ := ih _ h hrun
    exact ⟨taken, left, htook, fun hmust => hne (hmust _)⟩
  | bump rest ih =>
    have hbump := took_bump h
    obtain ⟨taken, left, htook, -⟩ := ih hbump.holds hrun
    refine ⟨_, left, hbump.append htook, fun _ hgroups => ?_⟩
    obtain ⟨g, more, rfl⟩ := List.exists_cons_of_ne_nil hgroups
    exact List.cons_ne_nil g _
  | node kind inside rest ihinside ihrest =>
    obtain ⟨b, inner, hinner, hrest⟩ := GrammarRule.ok_of_node hrun
    -- the node holds what was read inside, and goes to the end of the node around it
    have hempty : ({ s with current := { kind } } : ParseState).stream.Holds groups error := h
    obtain ⟨first, between, hfirst, hne1⟩ := ihinside hempty hinner
    have hnode : Took groups error s { inner with current := s.current.addNode inner.current }
        first between := by
      have hinside : inner.current.below.groups = [] ++ first := hfirst.current
      refine ⟨hfirst.groups_eq, hfirst.holds, ?_⟩
      simp [OpenNode.addNode, Forest.groups, hinside]
    obtain ⟨second, left, hsecond, hne2⟩ := ihrest _ hnode.holds hrest
    refine ⟨_, left, hnode.append hsecond, fun hmust hgroups => ?_⟩
    exact hnode.append_ne_nil hgroups (hmust.imp (hne1 · hgroups) fun h => hne2 (h b))
  | setName name rest ih =>
    have hnamed : Took groups error s
        { s with current := { s.current with name := some name } } [] groups := .looked h rfl
    obtain ⟨taken, left, htook, hne⟩ := ih hnamed.holds hrun
    exact ⟨taken, left, hnamed.append htook, hne⟩
  | setKind kind rest ih =>
    have hkind : Took groups error s { s with current := { s.current with kind } } [] groups :=
      .looked h rfl
    obtain ⟨taken, left, htook, hne⟩ := ih hkind.holds hrun
    exact ⟨taken, left, hkind.append htook, hne⟩
  | within construct inside rest ihinside ihrest =>
    obtain ⟨b, inner, hinner, hrest⟩ := GrammarRule.ok_of_within hrun
    obtain ⟨first, between, hfirst, hne1⟩ := ihinside h hinner
    obtain ⟨second, left, hsecond, hne2⟩ := ihrest _ hfirst.holds hrest
    refine ⟨_, left, hfirst.append hsecond, fun hmust hgroups => ?_⟩
    exact hfirst.append_ne_nil hgroups (hmust.imp (hne1 · hgroups) fun h => hne2 (h b))

/-! ### The rule for a statement -/

namespace GrammarRule

theorem mustTake_skipLine : skipLine.MustTake :=
  trivial

theorem mustTake_unknownStatement : unknownStatement.MustTake := by
  refine MustTake.bind_right _ fun isBlock => ?_
  exact MustTake.bind_left (r := take) trivial _

theorem mustTake_command : command.MustTake := by
  refine MustTake.bind_right _ fun first => ?_
  cases first with
  | none => exact mustTake_skipLine
  | some t => exact MustTake.bind_right _ fun _ => mustTake_skipLine

theorem mustTake_statementInside (form : StatementForm) : (statementInside form).MustTake := by
  cases form with
  | create unit n isBody =>
    -- the words up to the name are taken first
    exact Or.inl (MustTake.bind_left (r := times (n + 1) take) trivial _)
  | terminator => trivial
  | command => exact mustTake_command
  | unknown => exact mustTake_unknownStatement

/-- A statement takes a group. -/
theorem mustTake_statement : statement.MustTake :=
  MustTake.bind_right _ mustTake_statementInside

end GrammarRule
end SqlDoc

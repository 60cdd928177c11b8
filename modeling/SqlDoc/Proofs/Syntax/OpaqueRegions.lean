/-
# Bodies and expressions end where they should

A body holds no `/` alone on its line and no `CREATE` that begins a line, and the next significant
token of the script, if there is one, is one of the two. An expression holds no comma and no `;`
outside parentheses, closes no parenthesis that it does not open and holds no `/` alone on its line,
and the next significant token is one of these. The query of a cursor is an expression that goes on
after a comma (`endsExpression`).

The rules that take such a run ask for its end before they take a group (`Regions`), and they are the
only ones that open these nodes (`Labelling`).

Key definitions: `SyntaxTree.kindAbove?`, `endsExpression`.
Key theorem: `parseSql_regions`.
-/
import SqlDoc.Proofs.Syntax.CommandLine
import SqlDoc.Proofs.Syntax.Labelling

namespace SqlDoc

/-- The kind of the node above a node of a tree. -/
def SyntaxTree.kindAbove? (t : SyntaxTree) (p : Placement) : Option NodeKind :=
  (p.parent.bind (t.placements[·]?)).map (·.tree.kind)

/-- A token of the kind ends an expression below a node of the kind `above`, outside parentheses. -/
def endsExpression (above : Option NodeKind) (kind : SqlKind) : Bool :=
  kind = .semicolon || kind = .comma && above ≠ some (.method .cursor)

theorem ends_roleAbove (t : SyntaxTree) (p : Placement) :
    (t.roleAbove p).ends = endsExpression (t.kindAbove? p) := by
  have hends (above : NodeKind) : above.role.ends = endsExpression (some above) := by
    funext kind
    cases above with
    | method m => cases m <;> cases kind <;> rfl
    | _ => cases kind <;> rfl
  rw [SyntaxTree.roleAbove, SyntaxTree.kindAbove?]
  cases p.parent.bind (t.placements[·]?) with
  | none =>
    funext kind
    cases kind <;> rfl
  | some q => exact hends q.tree.kind

theorem insignificant_of_glanceAt {tokens : List SqlToken} {n : Nat}
    (h : glanceAt (groupsOf tokens) n = none) :
    ∀ v ∈ ((groupsOf tokens).drop n).flatMap (·.tokens), v.isSignificant = false := by
  intro v hv
  by_contra hsignificant
  have hsome : (((groupsOf tokens).drop n).flatMap (·.tokens)).find? (·.isSignificant) ≠ none :=
    fun hnone => hsignificant (by simpa using List.find?_eq_none.1 hnone v hv)
  obtain ⟨u, hu⟩ := Option.ne_none_iff_exists'.1 hsome
  obtain ⟨leading, rest, hdrop⟩ := find?_significant (List.take_append_drop n _).symm hu
  have hgroup : (groupsOf tokens)[n]? = some (.keyed leading u) := by
    rw [← Nat.add_zero n, ← List.getElem?_drop, hdrop]
    rfl
  rw [glanceAt, keyAt, hgroup] at h
  cases h

/-- A node covers the groups of the file from its first one on. -/
theorem groups_prefix_of_placement {t : SyntaxTree} {groups : List SqlGroup} {first : Nat}
    (h : t.groups <+: groups.drop first) {p : Placement} (hp : p ∈ t.placements) :
    p.tree.groups <+: groups.drop (first + p.firstGroup) := by
  obtain ⟨id, hid⟩ := List.mem_iff_getElem?.1 hp
  obtain ⟨-, -, l, r, hgroups, hfirst⟩ := t.placements_below hid
  obtain ⟨rest, hrest⟩ := h
  refine ⟨r ++ rest, ?_⟩
  rw [hfirst, ← List.drop_drop, ← hrest, hgroups, List.append_assoc, List.append_assoc,
    List.drop_left]

/-- The groups of every body and of every expression of a script are a run that ends where it should.
Either that is at the next significant token after the node, or there is none. -/
theorem parseSql_regions (source : String) (filename : Option String)
    {before after : List SyntaxTree} {t : SyntaxTree}
    (h : (parseSql source filename).trees = before ++ t :: after) :
    let groups := groupsOf (lexSql source filename).tokens
    ∀ p ∈ t.placements,
      let first := (before.flatMap (·.groups)).length + p.firstGroup
      let stop := first + p.tree.groups.length
      p.tree.groups <+: groups.drop first ∧
        (p.tree.kind = .body → BodyRun groups first stop) ∧
        (p.tree.kind = .expression →
          ExpressionRun groups (endsExpression (t.kindAbove? p)) first stop) ∧
        (glanceAt groups stop = none →
          ∀ v ∈ (groups.drop stop).flatMap (·.tokens), v.isSignificant = false) := by
  intro groups p hp first stop
  have hstart : (ParseState.ofLexed (lexSql source filename)).At groups
      (lexSql source filename).error 0 :=
    ⟨TokenStream.holds_ofLexed _, rfl⟩
  have hheeds := statementsUpTo_heeds _ hstart h
  have hprefix := hheeds.groups_prefix
  have hsays := (statementsUpTo_labelled _ hstart (Nat.zero_le _) h).placements p hp
  rw [Nat.zero_add] at hprefix hsays
  refine ⟨groups_prefix_of_placement hprefix hp, fun hkind => ?_, fun hkind => ?_,
    insignificant_of_glanceAt⟩
  · rw [hkind] at hsays
    exact hsays
  · rw [hkind] at hsays
    rw [← ends_roleAbove]
    exact hsays

/-- A default value with a list of arguments is one expression. It ends at the comma before the next
parameter, and the body ends at the `/`. -/
theorem parseSql_regions_procedure :
    let source := "CREATE PROCEDURE p(a NUMBER := f(1, 2), b NUMBER) IS\nBEGIN NULL; END;\n/\n"
    let groups := groupsOf (lexSql source none).tokens
    ∃ t after, (parseSql source none).trees = [] ++ t :: after ∧
      (∃ p ∈ t.placements, p.tree.kind = .expression ∧
        ExpressionRun groups (endsExpression (some (.parameter .input))) 7 13) ∧
      ∃ p ∈ t.placements, p.tree.kind = .body ∧ BodyRun groups 18 23 := by
  intro source groups
  have hlist : (parseSql source none).trees.map (fun t =>
      (t.placements.any fun p => p.tree.kind = .expression ∧ p.firstGroup = 7 ∧
          p.tree.groups.length = 6 ∧ t.kindAbove? p = some (.parameter .input),
        t.placements.any fun p => p.tree.kind = .body ∧ p.firstGroup = 18 ∧
          p.tree.groups.length = 5)) = [(true, true), (false, false)] := by decide +kernel
  obtain ⟨t, after, htrees, ht, -⟩ := List.map_eq_cons_iff.1 hlist
  obtain ⟨hexpression, hbody⟩ := Prod.mk.inj ht
  obtain ⟨p, hp, hchecks⟩ := List.any_eq_true.1 hexpression
  obtain ⟨q, hq, hchecks'⟩ := List.any_eq_true.1 hbody
  obtain ⟨hkind, hfirst, hlength, habove⟩ := of_decide_eq_true hchecks
  obtain ⟨hkind', hfirst', hlength'⟩ := of_decide_eq_true hchecks'
  have htrees : (parseSql source none).trees = [] ++ t :: after := htrees
  obtain ⟨-, -, hrun, -⟩ := parseSql_regions source none htrees p hp
  obtain ⟨-, hrun', -, -⟩ := parseSql_regions source none htrees q hq
  rw [hfirst, hlength, habove] at hrun
  rw [hfirst', hlength'] at hrun'
  exact ⟨t, after, htrees, ⟨p, hp, hkind, hrun hkind⟩, q, hq, hkind', hrun' hkind'⟩

end SqlDoc

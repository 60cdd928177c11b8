/-
# The parts of a type declaration

The declaration of a type is `TYPE`, the name as a node of its own, `IS` or `AS`, and what the type
is. So the keyword is the group right after the node of the name, whatever the name is and whatever
is written after the keyword.

Key definition: `Forest.IsTypeDecl`.
Key theorems: `ok_of_expectIsOrAs`, `isTypeDecl_of_run`.
-/
import SqlDoc.Proofs.Syntax.Naming

namespace SqlDoc

/-- The forest of a type's declaration: `TYPE`, the node of its name, `IS` or `AS`, and the rest. -/
inductive Forest.IsTypeDecl : Forest → Prop where
  | mk (leading leading' : List SqlToken) {first keyword : SqlToken} (name : Option Name)
      (ident rest : Forest) (hfirst : first.value = "TYPE")
      (hkeyword : keyword.value = "IS" ∨ keyword.value = "AS") :
      IsTypeDecl (.group (.keyed leading first)
        (.node .identifier name ident (.group (.keyed leading' keyword) rest)))

namespace GrammarRule

variable {groups : List SqlGroup} {error : Option LexError} {s next : ParseState}

theorem ok_of_expectIsOrAs (h : s.stream.Holds groups error)
    (hrun : expectIsOrAs.run s = (.ok (), next)) :
    ∃ leading t left, groups = .keyed leading t :: left ∧ (t.value = "IS" ∨ t.value = "AS") ∧
      Took groups error s next [.keyed leading t] left ∧
      next.current = s.current.addGroup (.keyed leading t) := by
  have hvalue {t : SqlToken} {word : String}
      (ht : (t.glance.kind.isWord && [word].contains t.glance.value) = true) :
      t.glance.value = word := by
    simpa using (Bool.and_eq_true_iff.1 ht).2
  obtain ⟨found, mid, hwords, hrest⟩ := ok_of_bind hrun
  obtain ⟨isIs, first, his, has⟩ := ok_of_bind hwords
  rcases ok_of_takeIf h his with ⟨rfl, hlooked, hsame⟩ | ⟨rfl, leading, t, left, rfl, ht, htook⟩
  · rcases ok_of_takeIf hlooked.holds has with
      ⟨rfl, -⟩ | ⟨rfl, leading, t, left, rfl, ht, htook, hcurrent⟩
    · cases hrest
    · cases hrest
      rw [hsame] at hcurrent
      exact ⟨leading, t, left, rfl, .inr (hvalue ht), hlooked.append htook, hcurrent⟩
  · cases has
    cases hrest
    exact ⟨leading, t, left, rfl, .inl (hvalue ht), htook⟩

theorem leaves_declaredName (n : OpenNode) : declaredName.Leaves (fun _ m =>
    ∃ name ident, m.below = n.below.append (.node .identifier name ident .nil)) n := by
  have hinside : (do let n ← name; setName n (done n)).Adds .identifier 1 :=
    adds_name.bind fun n => .setName n n
  refine (leaves_bind identifier _ _ n).2 ((hinside { kind := .identifier }).mono
    fun _ child hchild => ⟨child.name, child.below, ?_⟩)
  have hkind : child.kind = .identifier := hchild.kind
  show (n.addNode child).below = _
  rw [OpenNode.addNode, hkind]

/-- The node of a type has the parts of a type's declaration. -/
theorem isTypeDecl_of_run {kind : NodeKind} (h : s.stream.Holds groups error)
    (hcurrent : s.current = { kind })
    (hrun : (do
      expectWord "TYPE"
      declaredName
      expectIsOrAs
      let shape ← typeDefinition
      setKind (.typeDecl shape) (done ())
      expectSemicolon : GrammarRule Unit).run s = (.ok (), next)) :
    next.current.below.IsTypeDecl := by
  obtain ⟨_, typed, hword, hrun⟩ := ok_of_bind hrun
  obtain ⟨leading, first, left, rfl, hfirst, htyped, hgroup⟩ := ok_of_expectWord h hword
  obtain ⟨_, named, hname, hrun⟩ := ok_of_bind hrun
  obtain ⟨taken, after, hnamed, -⟩ := took_of_run htyped.holds hname
  obtain ⟨name, ident, hident⟩ := leaves_run (leaves_declaredName _) hname
  obtain ⟨_, begun, his, hrun⟩ := ok_of_bind hrun
  obtain ⟨leading', keyword, definition, rfl, hkeyword, hbegun, hgroup'⟩ :=
    ok_of_expectIsOrAs hnamed.holds his
  obtain ⟨rest, hrest⟩ := leaves_run (leaves_append _ _) hrun
  have hbelow : next.current.below = .group (.keyed leading first)
      (.node .identifier name ident (.group (.keyed leading' keyword) rest)) := by
    rw [hrest, hgroup', OpenNode.addGroup, hident, hgroup, OpenNode.addGroup, hcurrent]
    rfl
  rw [hbelow]
  exact .mk leading leading' name ident rest hfirst hkeyword

end GrammarRule
end SqlDoc

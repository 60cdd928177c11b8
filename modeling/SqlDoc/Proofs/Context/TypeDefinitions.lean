/-
# Definitions of types

The grammar knows which group of a type's declaration is the `IS` or `AS` before its definition: the
one right after the node of its name (`Forest.IsTypeDecl`). A context looks for it again: it has the
text after the first token of the declaration whose normal form is `IS`, or `AS` if there is none.
That is the same token if no part of the name has the normal form, and if nothing has the normal form
`IS` where the keyword is `AS` (`SyntaxTree.showsKeyword`). A name in quotes may have it.

Types are declared directly below packages and object types only (`Forest.Fits.mem_numbered`).

Key definitions: `Forest.afterIdentifier`, `definitionOf`, `SyntaxTree.showsKeyword`.
Key theorems: `Forest.IsTypeDecl.definitionText`, `resolveAll_definition`.
-/
import Mathlib.Data.List.TakeWhile
import SqlDoc.Proofs.Context.Throwing
import SqlDoc.Proofs.Syntax.Labelling

namespace SqlDoc

/-! ### Where types are declared -/

theorem NodeKind.mayHold_typeDecl {kind : NodeKind} {shape : TypeShape}
    (h : kind.mayHold (.typeDecl shape)) : ∃ unit, kind = .createUnit unit := by
  cases kind with
  | createUnit unit => exact ⟨unit, rfl⟩
  | typeDecl s => cases s <;> cases h
  | _ => cases h

theorem NodeKind.not_mayHold_createUnit (kind : NodeKind) (unit : UnitKind) :
    kind.mayHold (.createUnit unit) = false := by
  cases kind with
  | createUnit u => cases u <;> rfl
  | typeDecl s => cases s <;> rfl
  | _ => rfl

/-- What may stand below a node is no unit. -/
theorem NodeKind.ne_createUnit_of_held {parent kind : NodeKind}
    (h : kind.isPiece ∨ parent.mayHold kind) (unit : UnitKind) : kind ≠ .createUnit unit := by
  rintro rfl
  rcases h with hpiece | hheld
  · cases hpiece
  · rw [not_mayHold_createUnit] at hheld
    cases hheld

namespace Forest

variable {f : Forest} {kind : NodeKind}

/-- Below a node that is no unit no type is declared. -/
theorem Fits.not_typeDecl (h : f.Fits kind) (hkind : ∀ unit, kind ≠ .createUnit unit)
    (number id before : Nat) :
    ∀ q ∈ f.place number id before, ∀ shape, q.tree.kind ≠ .typeDecl shape := by
  induction f generalizing kind number id before with
  | nil =>
    intro q hq
    cases hq
  | group _ rest ih => exact ih h hkind number id (before + 1)
  | node k name below rest ihbelow ihrest =>
    obtain ⟨⟨hheld, hbelow, -⟩, hrest⟩ := h
    intro q hq shape
    rcases List.mem_cons.1 hq with rfl | hq
    · rintro rfl
      rcases hheld with hpiece | hheld
      · cases hpiece
      · obtain ⟨unit, rfl⟩ := NodeKind.mayHold_typeDecl hheld
        exact hkind unit rfl
    · rcases List.mem_append.1 hq with hq | hq
      · exact ihbelow hbelow (NodeKind.ne_createUnit_of_held hheld) _ _ _ q hq shape
      · exact ihrest hrest hkind _ _ _ q hq shape

/-- A type is declared at the top. -/
theorem Fits.mem_numbered (h : f.Fits kind) {number id before i : Nat} {q : Placement}
    (hq : (f.place number id before)[i]? = some q) {shape : TypeShape}
    (hshape : q.tree.kind = .typeDecl shape) : (id + i, q.tree) ∈ f.numbered id := by
  induction f generalizing id before i with
  | nil => cases hq
  | group _ rest ih => exact ih h hq
  | node k name below rest _ ih =>
    obtain ⟨⟨hheld, hbelow, -⟩, hrest⟩ := h
    cases i with
    | zero =>
      cases hq
      exact List.mem_cons_self
    | succ i =>
      rw [place, List.getElem?_cons_succ] at hq
      rcases Nat.lt_or_ge i below.size with hlt | hge
      · rw [List.getElem?_append_left (by rwa [place_length])] at hq
        exact absurd hshape (hbelow.not_typeDecl (NodeKind.ne_createUnit_of_held hheld) _ _ _ q
          (List.mem_of_getElem? hq) shape)
      · rw [List.getElem?_append_right (by rwa [place_length]), place_length] at hq
        have hmem := ih hrest hq
        rw [show id + 1 + below.size + (i - below.size) = id + (i + 1) by omega] at hmem
        exact List.mem_cons_of_mem _ hmem

/-! ### The keyword of a declaration -/

/-- The groups after the first identifier at the top. -/
def afterIdentifier : Forest → List SqlGroup
  | nil => []
  | group _ rest => rest.afterIdentifier
  | node kind _ _ rest => if kind = .identifier then rest.groups else rest.afterIdentifier

end Forest

/-- No significant token has the normal form. -/
def lacksWord (groups : List SqlGroup) (word : String) : Bool :=
  groups.all fun g => g.key?.all (·.value ≠ word)

/-- The flattened text of groups, without the `;` and the blanks at its end. -/
def definitionOf (groups : List SqlGroup) : String :=
  Text.trimEnd (String.ofList (Text.dropTrailing (· = ';') (flattenGroups groups).toList))

namespace SyntaxTree

variable {t : SyntaxTree}

/-- The keyword after the name is the first token of the declaration with its normal form, and there
is no `IS` if it is `AS`. -/
def showsKeyword (t : SyntaxTree) : Bool :=
  let name := (t.child? .identifier).elim [] (·.groups)
  match t.below.afterIdentifier with
  | [] => false
  | keyword :: rest =>
    lacksWord name "IS" &&
      (keyword.key?.any (·.value = "IS") || lacksWord name "AS" && lacksWord rest "IS")

/-- The text after a word is that after the first group with the word. -/
theorem flatTextAfter?_of_split {word : String} {before after : List SqlGroup} {g : SqlGroup}
    (hgroups : t.groups = before ++ g :: after) (hbefore : lacksWord before word = true)
    (hg : g.key?.any (·.value = word) = true) :
    t.flatTextAfter? word = some (flattenGroups after) := by
  have hpass : before.dropWhile (fun g => g.key?.all (·.value ≠ word)) = [] :=
    List.dropWhile_eq_nil_iff.2 (List.all_eq_true.1 hbefore)
  have hstop : g.key?.all (fun k => decide (k.value ≠ word)) = false := by
    obtain ⟨k, hk, hword⟩ := (Option.any_eq_true ..).1 hg
    rw [hk, Option.all_some, of_decide_eq_true hword]
    simp
  rw [flatTextAfter?, hgroups, List.dropWhile_append, hpass, List.isEmpty_nil, if_pos rfl,
    List.dropWhile_cons_of_neg (by simpa using hstop)]

theorem flatTextAfter?_eq_none {word : String} (h : lacksWord t.groups word = true) :
    t.flatTextAfter? word = none := by
  rw [flatTextAfter?, List.dropWhile_eq_nil_iff.2 (List.all_eq_true.1 h)]

end SyntaxTree

theorem lacksWord_append (before after : List SqlGroup) (word : String) :
    lacksWord (before ++ after) word = (lacksWord before word && lacksWord after word) :=
  List.all_append

theorem lacksWord_cons (leading : List SqlToken) (t : SqlToken) (groups : List SqlGroup)
    (word : String) :
    lacksWord (.keyed leading t :: groups) word =
      (decide (t.value ≠ word) && lacksWord groups word) :=
  rfl

/-- The text that a context has of a type's declaration is that after the keyword, if the keyword
shows. -/
theorem Forest.IsTypeDecl.definitionText {t : SyntaxTree} (h : t.below.IsTypeDecl)
    (hshows : t.showsKeyword = true) : ∃ leading keyword rest,
      t.below.afterIdentifier = .keyed leading keyword :: rest ∧
        (keyword.value = "IS" ∨ keyword.value = "AS") ∧ t.definitionText = definitionOf rest := by
  obtain ⟨kind, name, below⟩ := t
  obtain ⟨leading, leading', name', ident, rest, hfirst, hkeyword⟩ := h
  rename_i first keyword
  refine ⟨leading', keyword, rest.groups, rfl, hkeyword, ?_⟩
  let t : SyntaxTree := ⟨kind, name, .group (.keyed leading first)
    (.node .identifier name' ident (.group (.keyed leading' keyword) rest))⟩
  have hgroups : t.groups = (.keyed leading first :: ident.groups) ++
      .keyed leading' keyword :: rest.groups := rfl
  have hshows : (lacksWord ident.groups "IS" && (decide (keyword.value = "IS") ||
      lacksWord ident.groups "AS" && lacksWord rest.groups "IS")) = true := hshows
  obtain ⟨hident, hshows⟩ := Bool.and_eq_true_iff.1 hshows
  have hbefore {word : String} (hword : word ≠ "TYPE") (hident : lacksWord ident.groups word) :
      lacksWord (.keyed leading first :: ident.groups) word = true := by
    rw [lacksWord_cons, hfirst, hident, decide_eq_true hword.symm, Bool.and_self]
  have htext : (t.flatTextAfter? "IS").or (t.flatTextAfter? "AS") =
      some (flattenGroups rest.groups) := by
    rcases hkeyword with his | has
    · rw [SyntaxTree.flatTextAfter?_of_split hgroups (hbefore (by decide) hident)
        (decide_eq_true his)]
      rfl
    · rw [has, decide_eq_false (by decide), Bool.false_or] at hshows
      obtain ⟨hident', hrest⟩ := Bool.and_eq_true_iff.1 hshows
      have hnone : lacksWord t.groups "IS" = true := by
        rw [hgroups, lacksWord_append, hbefore (by decide) hident, lacksWord_cons, has, hrest]
        rfl
      rw [SyntaxTree.flatTextAfter?_eq_none hnone,
        SyntaxTree.flatTextAfter?_of_split hgroups (hbefore (by decide) hident')
          (decide_eq_true has)]
      rfl
  show SyntaxTree.definitionText t = _
  rw [SyntaxTree.definitionText, htext]
  rfl

/-! ### Contexts of types -/

/-- The context of a type that is no record has the definition of its declaration. -/
theorem ContextTable.Holds.exists_typeContext {table : ContextTable} {warnOrphans : Bool}
    {statement next : Nat} {t : SyntaxTree} (h : table.Holds warnOrphans statement next t)
    (ht : t.Fits) (hunit : endsUnit t.kind) {node : Nat} {d : SyntaxTree}
    (hmember : (node, d) ∈ t.numberedChildren 0) {shape : TypeShape}
    (hkind : d.kind = .typeDecl shape) (hshape : shape ≠ .record) :
    ∃ number c, table.contextAt? statement node = some number ∧ table.context? number = some c ∧
      c.kind = .typeDecl ∧ c.name = d.nameOrEmpty ∧ c.definition? = some d.definitionText := by
  obtain ⟨before, after, hmembers⟩ := List.append_of_mem hmember
  obtain ⟨ids, seen, first, -, -, hrecords, htops⟩ := DocForest.exists_ofMembers_append
    (t.children.filterMap codeBinding?) .empty [] before ((node, d) :: after) statement (next + 1)
  rw [← hmembers] at hrecords htops
  have hcontext : memberContext? d =
      some (.ofNamed .typeDecl (.typeDef shape d.definitionText) d) := by
    rw [memberContext?, hkind]
    cases shape with
    | record => exact absurd rfl hshape
    | _ => rfl
  have hfirst : DocForest.ofMembers (t.children.filterMap codeBinding?) ids seen
      ((node, d) :: after) = .node (.ofTree node d)
        (some (.ofNamed .typeDecl (.typeDef shape d.definitionText) d)) .nil
          (DocForest.ofMembers (t.children.filterMap codeBinding?) ids seen after) := by
    rw [DocForest.ofMembers, ← hcontext, hkind]
    cases shape with
    | record => exact absurd rfl hshape
    | _ => rfl
  rw [hfirst] at hrecords htops
  obtain ⟨c, hnumber, hc, hsame⟩ := h.exists_context ht hunit (hrecords List.mem_cons_self) rfl
    (htops List.mem_cons_self) (fun c => (c.kind, c.name, c.definition?))
    (fun c d hform => by rw [hform.kind, hform.name, hform.definition]) fun _ _ => rfl
  obtain ⟨hckind, hsame⟩ := Prod.mk.inj hsame
  obtain ⟨hname, hdefinition⟩ := Prod.mk.inj hsame
  exact ⟨first, c, hnumber, hc, hckind, hname, hdefinition⟩

/-- The context of a type that is no record has the text after the `IS` or `AS` behind its name, if
that is the first token of its declaration with its normal form. -/
theorem resolveAll_definition (source : String) (filename : Option String) (warnOrphans : Bool)
    {k : Nat} {t : SyntaxTree} (ht : (parseSql source filename).trees[k]? = some t)
    (hpackage : t.kind = .createUnit .package) {node : Nat} {p : Placement}
    (hp : t.placements[node]? = some p) {shape : TypeShape}
    (hkind : p.tree.kind = .typeDecl shape) (hshape : shape ≠ .record)
    (hshows : p.tree.showsKeyword = true) :
    let table := (resolveAll (parseSql source filename).trees warnOrphans).1
    ∃ leading keyword rest, p.tree.below.afterIdentifier = .keyed leading keyword :: rest ∧
      (keyword.value = "IS" ∨ keyword.value = "AS") ∧
      ∃ number c, table.contextAt? k node = some number ∧ table.context? number = some c ∧
        c.kind = .typeDecl ∧ c.name = p.tree.nameOrEmpty ∧
        c.definition? = some (definitionOf rest) := by
  intro table
  have hmem := List.mem_of_getElem? ht
  have hfits := parseSql_fits source filename
  have hunit : endsUnit t.kind := by
    rw [hpackage]
    rfl
  -- the node is a member of the package
  obtain ⟨i, rfl⟩ : ∃ i, node = i + 1 := by
    refine Nat.exists_eq_succ_of_ne_zero fun hzero => ?_
    rw [hzero, t.placements_zero] at hp
    rw [← Option.some.inj hp, hpackage] at hkind
    cases hkind
  have hmember := (hfits t hmem).below.mem_numbered (i := i) hp hkind
  rw [Nat.add_comm] at hmember
  obtain ⟨groups, first, hlabelled⟩ := parseTokens_labelled (lexSql source filename) t hmem
  have hsays := hlabelled.placements p (List.mem_of_getElem? hp)
  rw [hkind] at hsays
  obtain ⟨leading, keyword, rest, hafter, hkeyword, htext⟩ :=
    Forest.IsTypeDecl.definitionText hsays hshows
  obtain ⟨number, c, hnumber, hc, hckind, hname, hdefinition⟩ :=
    (holds_resolveAll hfits warnOrphans ht).exists_typeContext (hfits t hmem) hunit hmember hkind
      hshape
  exact ⟨leading, keyword, rest, hafter, hkeyword, number, c, hnumber, hc, hckind, hname,
    hdefinition.trans (congrArg some htext)⟩

/-- The keyword is `AS`, and the definition has a comment in it and blanks before its `;`. -/
theorem resolveAll_definition_table :
    let source := "CREATE PACKAGE p IS TYPE t AS TABLE -- of\n OF NUMBER ;\nEND;"
    let table := (resolveAll (parseSql source none).trees true).1
    ∃ number c, table.contextAt? 0 2 = some number ∧ table.context? number = some c ∧
      c.kind = .typeDecl ∧ c.definition? = some "TABLE OF NUMBER" := by
  intro source table
  have hfacts : (parseSql source none).trees.map (fun t => (t.kind, t.placements[2]?.map fun p =>
      (p.tree.kind, p.tree.showsKeyword, definitionOf p.tree.below.afterIdentifier.tail))) =
      [(.createUnit .package, some (.typeDecl .nestedTable, true, "TABLE OF NUMBER"))] := by
    decide +kernel
  obtain ⟨t, htrees, hfacts⟩ := List.map_eq_singleton_iff.1 hfacts
  obtain ⟨hpackage, hfacts⟩ := Prod.mk.inj hfacts
  obtain ⟨p, hp, hfacts⟩ := Option.map_eq_some_iff.1 hfacts
  obtain ⟨hkind, hfacts⟩ := Prod.mk.inj hfacts
  obtain ⟨hshows, htext⟩ := Prod.mk.inj hfacts
  have ht : (parseSql source none).trees[0]? = some t := by
    rw [htrees]
    rfl
  obtain ⟨leading, keyword, rest, hafter, -, number, c, hnumber, hc, hckind, -, hdefinition⟩ :=
    resolveAll_definition source none true ht hpackage hp hkind (by decide) hshows
  rw [hafter, List.tail_cons] at htext
  exact ⟨number, c, hnumber, hc, hckind, hdefinition.trans (congrArg some htext)⟩

/-- A type whose name is `IS` in quotes has the keyword in its definition. -/
theorem not_definition_after_keyword :
    ¬ ∀ (source : String) (filename : Option String) (warnOrphans : Bool) (k : Nat)
      (t : SyntaxTree) (node : Nat) (p : Placement) (shape : TypeShape),
      (parseSql source filename).trees[k]? = some t → t.kind = .createUnit .package →
      t.placements[node]? = some p → p.tree.kind = .typeDecl shape → shape ≠ .record →
      let table := (resolveAll (parseSql source filename).trees warnOrphans).1
      ((table.contextAt? k node).bind table.context?).bind (·.definition?) =
        some (definitionOf p.tree.below.afterIdentifier.tail) := by
  intro h
  let source := "CREATE PACKAGE p IS TYPE \"IS\" AS TABLE OF NUMBER; END;"
  have hfacts : (parseSql source none).trees.map (fun t => (t.kind, t.placements[2]?.map fun p =>
      (p.tree.kind, definitionOf p.tree.below.afterIdentifier.tail))) =
      [(.createUnit .package, some (.typeDecl .nestedTable, "TABLE OF NUMBER"))] := by
    decide +kernel
  have hstored : (((resolveAll (parseSql source none).trees true).1.contextAt? 0 2).bind
      (resolveAll (parseSql source none).trees true).1.context?).bind (·.definition?) =
      some "AS TABLE OF NUMBER" := by
    decide +kernel
  obtain ⟨t, htrees, hfacts⟩ := List.map_eq_singleton_iff.1 hfacts
  obtain ⟨hpackage, hfacts⟩ := Prod.mk.inj hfacts
  obtain ⟨p, hp, hfacts⟩ := Option.map_eq_some_iff.1 hfacts
  obtain ⟨hkind, htext⟩ := Prod.mk.inj hfacts
  have ht : (parseSql source none).trees[0]? = some t := by
    rw [htrees]
    rfl
  have hclaimed := h source none true 0 t 2 p .nestedTable ht hpackage hp hkind (by decide)
  rw [htext] at hclaimed
  exact absurd (hstored.symm.trans hclaimed) (by decide)

end SqlDoc

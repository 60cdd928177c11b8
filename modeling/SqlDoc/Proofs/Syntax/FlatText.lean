/-
# Flattened texts are the same code

The flattened text of a node is its source with a gap for each run of trivia. The lexer that reads
it goes along with the one that read the node (`flatten_run`): in a gap it reads a blank, and each
significant token it reads as it was read, since the two texts are alike up to the next gap. So the
flattened text of every node gives no error and the significant tokens of the node
(`parseSql_flatText`).

Key definitions: `significant`, `IsCodeOf`.
Key theorems: `gapped_flatten`, `flatten_run`, `parseSql_flatText`.
-/
import SqlDoc.Proofs.Sql.Gaps
import SqlDoc.Proofs.Syntax.Coverage
import SqlDoc.Proofs.Syntax.Placement

namespace SqlDoc

open Sql (Outside CookedStep Gapped BeginAlike)

variable {cut lx : Lexer sqlGrammar} {t : SqlToken} {tokens after : List SqlToken}

/-! ### Significant tokens -/

/-- What is significant among tokens: their kinds, texts and normal forms. -/
def significant (tokens : List SqlToken) : List (SqlKind × String × String) :=
  (tokens.filter (!·.isTrivia)).map Token.content

theorem significant_trivia (ht : t.isTrivia = true) :
    significant (t :: tokens) = significant tokens := by
  rw [significant, List.filter_cons_of_neg (by simpa using ht)]
  rfl

theorem significant_cons (ht : t.isTrivia = false) :
    significant (t :: tokens) = t.content :: significant tokens := by
  rw [significant, List.filter_cons_of_pos (by simpa using ht)]
  rfl

theorem isTrivia_of_content {t t' : SqlToken} (h : t.content = t'.content) :
    t.isTrivia = t'.isTrivia := by
  simp only [Token.isTrivia, Token.trivia, Sql.kind_of_content h]

/-- A significant token is read in one step. -/
theorem significant_step (h : Outside cut) (htokens : cook cut.run.1 = t :: after)
    (ht : t.isTrivia = false) :
    ∃ raw next, cut.step = .token raw next ∧ t = cookOne raw ∧ Sql.isPiece raw.kind = false ∧
      raw.kind.isComment = false ∧ Outside next ∧ cook next.run.1 = after := by
  have hrest : cut.rest ≠ [] := by
    intro hnil
    rw [Lexer.run_of_finished (h.finished hnil), cook] at htokens
    cases htokens
  obtain ⟨raw, next, hstep, hplain | hline | hblock⟩ := h.step hrest
  · obtain ⟨hpiece, hcomment, hnext⟩ := hplain
    rw [(Sql.cookedStep_plain hstep hpiece hcomment hnext).tokens] at htokens
    obtain ⟨ht, hafter⟩ := List.cons.inj htokens
    exact ⟨raw, next, hstep, ht.symm, hpiece, hcomment, hnext, hafter⟩
  · rw [Lexer.run_of_token hstep, Sql.cook_lineOpen hline.1] at htokens
    rw [← (List.cons.inj htokens).1] at ht
    cases ht
  · rw [Lexer.run_of_token hstep, Sql.cook_blockOpen hblock.1] at htokens
    cases hclose : throughClose next.run.1 with
    | none =>
      rw [hclose] at htokens
      cases htokens
    | some pair =>
      rw [hclose] at htokens
      rw [← (List.cons.inj htokens).1, Token.isTrivia, Token.trivia, Sql.joinBlock_kind] at ht
      split at ht
      · cases ht
      · cases ht

theorem isTrivia_of_whitespace {raw : SqlToken} (h : raw.kind = .whitespace) :
    (cookOne raw).isTrivia = true := by
  obtain ⟨kind, text, value, span⟩ := raw
  obtain rfl : kind = .whitespace := h
  rfl

theorem kind_ne_whitespace {raw : SqlToken} (h : (cookOne raw).isTrivia = false) :
    raw.kind ≠ .whitespace := by
  intro hkind
  rw [isTrivia_of_whitespace hkind] at h
  cases h

/-! ### The text of tokens -/

theorem flatten_trivia (ht : t.isTrivia = true) (started pending : Bool) :
    flatten started pending (t :: tokens) = flatten started true tokens := by
  rw [flatten, if_pos ht]

theorem flatten_significant (ht : t.isTrivia = false) (started pending : Bool) :
    flatten started pending (t :: tokens) = (if started && pending then [' '] else []) ++
      (t.text.toList ++ flatten true false tokens) := by
  rw [flatten, if_neg (by rw [ht]; exact Bool.false_ne_true), List.append_assoc]

/-- The flattened text of the tokens ahead is the text ahead with gaps, also if a gap was begun
before. -/
theorem gapped_flatten (h : Outside cut) (htokens : cook cut.run.1 = tokens ++ after) :
    Gapped cut.rest (flatten true false tokens) ∧
      ∀ piece, Gapped (piece ++ cut.rest) (flatten true true tokens) := by
  induction tokens generalizing cut with
  | nil => exact ⟨.cut _, fun piece => .cut _⟩
  | cons t tokens ih =>
    obtain ⟨next, hstep, hafter⟩ := Sql.cooked_cons h htokens
    obtain ⟨hnext, hgap⟩ := ih hstep.outside hafter
    rw [hstep.passes.text]
    cases ht : t.isTrivia with
    | true =>
      rw [flatten_trivia ht, flatten_trivia ht]
      refine ⟨hgap t.text.toList, fun piece => ?_⟩
      rw [← List.append_assoc]
      exact hgap _
    | false =>
      rw [flatten_significant ht, flatten_significant ht]
      exact ⟨hnext.append t.text.toList, fun piece => (hnext.append t.text.toList).gap piece⟩

/-! ### Reading the text -/

/-- A significant token with which the flattened text begins is read there, too. -/
theorem flatten_step (h : Outside cut) (htokens : cook cut.run.1 = t :: (tokens ++ after))
    (ht : t.isTrivia = false) (hlx : Outside lx)
    (hrest : lx.rest = t.text.toList ++ flatten true false tokens) :
    ∃ t' next cut', CookedStep lx t' next ∧ t'.content = t.content ∧
      next.rest = flatten true false tokens ∧ Outside cut' ∧
      cook cut'.run.1 = tokens ++ after := by
  obtain ⟨raw, cut', hstep, rfl, hpiece, hcomment, hcut', hafter⟩ := significant_step h htokens ht
  obtain ⟨c, s, s', htext, hflat, hparted⟩ := (gapped_flatten hcut' hafter).1.parts
  rw [Sql.cookOne_text] at hrest
  have halike : BeginAlike (raw.text.toList ++ c) s s' cut lx := by
    refine ⟨h, hlx, ?_, ?_⟩
    · rw [← Lexer.step_text hstep, htext, List.append_assoc]
    · rw [hrest, hflat, List.append_assoc]
  have hle : raw.text.toList.length ≤ (raw.text.toList ++ c).length := by
    rw [List.length_append]
    exact Nat.le_add_right _ _
  obtain ⟨raw', next, hstep', hcontent⟩ := 
    halike.step hparted hstep hle fun _ => kind_ne_whitespace ht
  have hkind : raw'.kind = raw.kind := Sql.kind_of_content hcontent
  have hnext : next.rest = flatten true false tokens := by
    have htext' : raw'.text = raw.text := congrArg (·.2.1) hcontent
    have := Lexer.step_text hstep'
    rw [hrest, htext'] at this
    exact List.append_cancel_left this
  have hread : CookedStep lx (cookOne raw') next := by
    rw [← hkind] at hpiece hcomment
    exact Sql.cookedStep_plain hstep' hpiece hcomment ((hlx.of_step hstep').outside hpiece)
  exact ⟨_, next, cut', hread, Sql.cookOne_content hcontent, hnext, hcut', hafter⟩

/-- In a gap of the flattened text a blank is read. -/
theorem gap_step (h : Outside cut) (htokens : cook cut.run.1 = t :: after)
    (ht : t.isTrivia = false) (hlx : Outside lx) {rest : List Char}
    (hrest : lx.rest = ' ' :: (t.text.toList ++ rest)) :
    ∃ blank next, CookedStep lx blank next ∧ blank.isTrivia = true ∧
      next.rest = t.text.toList ++ rest := by
  obtain ⟨raw, cut', hstep, rfl, -⟩ := significant_step h htokens ht
  obtain ⟨d, more, htext, hd⟩ := h.head_of_step hstep (kind_ne_whitespace ht)
  rw [Sql.cookOne_text, htext, List.cons_append] at hrest ⊢
  obtain ⟨blank, next, hread, hkind, hnext, hafter⟩ := hlx.step_gap hrest hd
  have hpiece : Sql.isPiece blank.kind = false := by
    rw [hkind]
    rfl
  have hcomment : blank.kind.isComment = false := by
    rw [hkind]
    rfl
  exact ⟨_, next, Sql.cookedStep_plain hread hpiece hcomment hnext, isTrivia_of_whitespace hkind,
    hafter⟩

/-- The significant tokens of the flattened text are those of the tokens that it is the text of. -/
theorem flatten_run {started pending : Bool} (h : Outside cut)
    (htokens : cook cut.run.1 = tokens ++ after) (hlx : Outside lx)
    (hrest : lx.rest = flatten started pending tokens) :
    lx.run.2 = none ∧ significant (cook lx.run.1) = significant tokens := by
  induction tokens generalizing cut lx started pending with
  | nil =>
    rw [Lexer.run_of_finished (hlx.finished hrest), cook]
    exact ⟨rfl, rfl⟩
  | cons t tokens ih =>
    cases ht : t.isTrivia with
    | true =>
      obtain ⟨next, hstep, hafter⟩ := Sql.cooked_cons h htokens
      rw [flatten_trivia ht] at hrest
      rw [significant_trivia ht]
      exact ih hstep.outside hafter hlx hrest
    | false =>
      rw [flatten_significant ht] at hrest
      rw [significant_cons ht]
      -- the token is read where the gap before it, if there is one, has been read
      have hread {lx : Lexer sqlGrammar} (hlx : Outside lx)
          (hrest : lx.rest = t.text.toList ++ flatten true false tokens) :
          lx.run.2 = none ∧ significant (cook lx.run.1) = t.content :: significant tokens := by
        obtain ⟨t', next, cut', hstep, hcontent, hnext, hcut', hafter⟩ :=
          flatten_step h htokens ht hlx hrest
        obtain ⟨herror, hsame⟩ := ih hcut' hafter hstep.outside hnext
        have ht' : t'.isTrivia = false := (isTrivia_of_content hcontent).trans ht
        rw [hstep.error, hstep.tokens, significant_cons ht', hcontent, hsame]
        exact ⟨herror, rfl⟩
      cases hgap : started && pending with
      | false =>
        rw [hgap] at hrest
        exact hread hlx hrest
      | true =>
        rw [hgap] at hrest
        obtain ⟨blank, next, hstep, hblank, hnext⟩ := gap_step h htokens ht hlx hrest
        rw [hstep.error, hstep.tokens, significant_trivia hblank]
        exact hread hstep.outside hnext

/-! ### The texts of nodes -/

/-- The text is read without an error, and its significant tokens are those of the groups. -/
def IsCodeOf (text : String) (groups : List SqlGroup) : Prop :=
  ∀ filename : Option String, (lexSql text filename).error = none ∧
    significant (lexSql text filename).tokens = significant (groups.flatMap (·.tokens))

section

variable {source : String} {filename : Option String} {groups : List SqlGroup}

/-- The flattened text of groups whose tokens follow one another in a script is their code. -/
theorem isCodeOf_flattenGroups
    (h : groups.flatMap (·.tokens) <:+: (lexSql source filename).tokens) :
    IsCodeOf (flattenGroups groups) groups := by
  obtain ⟨before, after, htokens⟩ := h
  rw [List.append_assoc] at htokens
  obtain ⟨cut, hcut, -, hafter, -⟩ := lexSql_cut htokens.symm
  intro filename'
  have hrest : (scriptLexer (flattenGroups groups) filename').rest =
      flatten false false (groups.flatMap (·.tokens)) :=
    String.toList_ofList
  exact flatten_run hcut hafter (Sql.outside_start _ _) hrest

/-- The groups of a tree follow one another in the script. -/
theorem groups_infix_of_mem_trees {t : SyntaxTree} (ht : t ∈ (parseSql source filename).trees) :
    t.groups <:+: groupsOf (lexSql source filename).tokens := by
  obtain ⟨left, hcovers⟩ := parseTokens_covers (lexSql source filename)
  have hcovers : Covers (parseSql source filename) _ _ left := hcovers
  obtain ⟨before, after, htrees⟩ := List.append_of_mem ht
  rw [hcovers.groups_eq, htrees, List.flatMap_append, List.flatMap_cons]
  simp only [List.append_assoc]
  exact ⟨_, _, List.append_assoc _ _ _⟩

/-- The tokens of a tree follow one another in the script. -/
theorem tokens_infix_of_mem_trees {t : SyntaxTree} (ht : t ∈ (parseSql source filename).trees) :
    t.groups.flatMap (·.tokens) <:+: (lexSql source filename).tokens := by
  obtain ⟨before, after, hgroups⟩ := groups_infix_of_mem_trees ht
  rw [← tokens_groupsOf (lexSql source filename).tokens, ← hgroups, List.flatMap_append,
    List.flatMap_append]
  exact ⟨_, _, rfl⟩

/-- The flattened text of groups that follow one another in a tree is their code. -/
theorem isCodeOf_of_infix {t : SyntaxTree} (ht : t ∈ (parseSql source filename).trees)
    (h : groups <:+: t.groups) : IsCodeOf (flattenGroups groups) groups := by
  obtain ⟨l, r, hgroups⟩ := h
  refine isCodeOf_flattenGroups (List.IsInfix.trans ?_ (tokens_infix_of_mem_trees ht))
  rw [← hgroups, List.flatMap_append, List.flatMap_append]
  exact ⟨_, _, rfl⟩

theorem groups_infix_of_mem_placements {t : SyntaxTree} {p : Placement} (hp : p ∈ t.placements) :
    p.tree.groups <:+: t.groups := by
  obtain ⟨i, hi⟩ := List.getElem?_of_mem hp
  obtain ⟨-, -, l, r, hgroups, -⟩ := SyntaxTree.placements_below hi
  exact ⟨l, r, hgroups.symm⟩

/-- The flattened text of every node of a script is the code of the node. -/
theorem parseSql_flatText (source : String) (filename : Option String) {t : SyntaxTree}
    (ht : t ∈ (parseSql source filename).trees) {p : Placement} (hp : p ∈ t.placements) :
    IsCodeOf p.tree.flatText p.tree.groups :=
  isCodeOf_of_infix ht (groups_infix_of_mem_placements hp)

/-- Of a datatype the comment and the line end are gone, and in a default what stands in quotes is
left. -/
theorem parseSql_flatText_gaps :
    let source := "CREATE PACKAGE p IS\n  v VARCHAR2 -- short\n  (4) := q'[ ']' || '--';\nEND;"
    ∃ t ∈ (parseSql source none).trees, ∃ p ∈ t.placements, ∃ q ∈ t.placements,
      p.tree.flatText = "VARCHAR2 (4)" ∧ IsCodeOf p.tree.flatText p.tree.groups ∧
      q.tree.flatText = "q'[ ']' || '--'" ∧ IsCodeOf q.tree.flatText q.tree.groups := by
  intro source
  have htexts : (parseSql source none).trees.map (fun t =>
      (t.placements[4]?.map (·.tree.flatText), t.placements[5]?.map (·.tree.flatText))) =
      [(some "VARCHAR2 (4)", some "q'[ ']' || '--'")] := by decide +kernel
  obtain ⟨t, htrees, htexts⟩ := List.map_eq_singleton_iff.1 htexts
  obtain ⟨hp, hq⟩ := Prod.mk.inj htexts
  obtain ⟨p, hp, hptext⟩ := Option.map_eq_some_iff.1 hp
  obtain ⟨q, hq, hqtext⟩ := Option.map_eq_some_iff.1 hq
  have ht : t ∈ (parseSql source none).trees := by
    rw [htrees]
    exact List.mem_singleton_self t
  have hp := List.mem_of_getElem? hp
  have hq := List.mem_of_getElem? hq
  exact ⟨t, ht, p, hp, q, hq, hptext, parseSql_flatText source none ht hp, hqtext,
    parseSql_flatText source none ht hq⟩

end

end SqlDoc

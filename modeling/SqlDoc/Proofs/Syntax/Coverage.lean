/-
# Statements cover a script

The trees of a script hold its text from the start, each group once and in order. Where reading ends
without an error nothing but trivia is left (`parseSql_covers`).

Key theorems: `statementsUpTo_covers`, `parseSql_covers`.
-/
import SqlDoc.Proofs.Sql.Content
import SqlDoc.Proofs.Syntax.Taking

namespace SqlDoc

/-! ### Groups -/

/-- The trees hold the first of the groups. If there is no error after them, the next group, if
there is one, has no significant token, and the groups are not cut short. -/
structure Covers (parsed : Parsed) (groups : List SqlGroup) (error : Option LexError)
    (left : List SqlGroup) : Prop where
  groups_eq : groups = parsed.trees.flatMap (·.groups) ++ left
  finished : parsed.error = none → error = none ∧ ∀ g ∈ left.head?, g.key? = none

theorem covers_end {groups : List SqlGroup} {error : Option LexError} {s : ParseState}
    (h : s.stream.Holds groups error) (hkey : (s.key 0).1 = none) :
    Covers { trees := [], error := (s.key 0).2.stream.error.map .lex } groups error groups where
  groups_eq := rfl
  finished herror := by
    have hnoticed : (s.key 0).2.stream.error = error := h.error_of_peekKey hkey
    constructor
    · rw [← hnoticed]
      exact Option.map_eq_none_iff.1 herror
    · intro g hg
      have hpeek : (s.key 0).1 = groups[0]?.bind (·.key?) := (h.peekKey 0).1
      rw [← List.head?_eq_getElem?, hg, hkey] at hpeek
      exact hpeek.symm

theorem Covers.cons {groups between left : List SqlGroup} {error : Option LexError}
    {s next : ParseState} {taken : List SqlGroup} {rest : Parsed}
    (htook : Took groups error s.openNode next taken between) (h : Covers rest between error left) :
    Covers { rest with trees := next.current.toTree :: rest.trees } groups error left where
  groups_eq := by
    have htree : next.current.toTree.groups = taken := by
      rw [SyntaxTree.groups, OpenNode.toTree, htook.current]
      rfl
    rw [htook.groups_eq, h.groups_eq, List.flatMap_cons, htree, List.append_assoc]
  finished := h.finished

theorem countP_left_lt {groups taken left : List SqlGroup} (hgroups : groups = taken ++ left)
    (hne : taken ≠ []) (hkey : (groups[0]?.bind (·.key?)).isSome = true) :
    left.countP (·.key?.isSome) < groups.countP (·.key?.isSome) := by
  obtain ⟨g, taken, rfl⟩ := List.exists_cons_of_ne_nil hne
  rw [hgroups] at hkey ⊢
  rw [List.cons_append, List.getElem?_cons_zero, Option.bind_some] at hkey
  rw [List.cons_append, List.countP_cons_of_pos (p := fun g : SqlGroup => g.key?.isSome) hkey,
    List.countP_append]
  omega

/-- Reading as many statements as there are significant tokens, and one more, reads them all. -/
theorem statementsUpTo_covers {groups : List SqlGroup} {error : Option LexError} {n : Nat}
    {s : ParseState} (h : s.stream.Holds groups error) (hn : groups.countP (·.key?.isSome) < n) :
    ∃ left, Covers (s.statementsUpTo n) groups error left := by
  induction n generalizing s groups with
  | zero => exact absurd hn (Nat.not_lt_zero _)
  | succ n ih =>
    obtain ⟨hkey, hheld⟩ := h.peekKey 0
    unfold ParseState.statementsUpTo
    cases hk : s.key 0 with
    | mk key s' =>
      have hkey : (s.key 0).1 = groups[0]?.bind (·.key?) := hkey
      have hheld : (s.key 0).2.openNode.stream.Holds groups error := hheld
      rw [hk] at hkey hheld
      cases key with
      | none =>
        have hend := covers_end h (congrArg Prod.fst hk)
        rw [hk] at hend
        exact ⟨groups, hend⟩
      | some key =>
        dsimp only
        have hsome : (groups[0]?.bind (·.key?)).isSome = true := by
          rw [← hkey]
          rfl
        cases hrun : GrammarRule.statement.run s'.openNode with
        | mk result next =>
          cases result with
          | error e => exact ⟨groups, rfl, fun herror => absurd herror (Option.some_ne_none _)⟩
          | ok =>
            obtain ⟨taken, between, htook, hne⟩ := took_of_run hheld hrun
            have hgroups : groups ≠ [] := by
              intro hnil
              rw [hnil] at hsome
              cases hsome
            have htaken := hne GrammarRule.mustTake_statement hgroups
            have hlt := countP_left_lt htook.groups_eq htaken hsome
            obtain ⟨left, hleft⟩ := ih htook.holds (by omega)
            exact ⟨left, hleft.cons htook⟩

theorem parseTokens_covers (lexed : Lexed) :
    ∃ left, Covers (parseTokens lexed) (groupsOf lexed.tokens) lexed.error left := by
  have hholds : (ParseState.ofLexed lexed).stream.Holds (groupsOf lexed.tokens) lexed.error :=
    TokenStream.holds_ofLexed _
  exact statementsUpTo_covers hholds (Nat.lt_succ_of_le hholds.remaining.ge)

/-! ### Texts -/

theorem join_text (groups : List SqlGroup) :
    String.join (groups.map (·.text)) = tokensText (groups.flatMap (·.tokens)) := by
  induction groups with
  | nil => rfl
  | cons g groups ih =>
    rw [List.map_cons, List.flatMap_cons, tokensText_append, ← ih, String.join_cons]
    rfl

/-- Groups that begin with one that has no significant token are trivia. -/
theorem isTrivia_of_left {tokens : List SqlToken} {before left : List SqlGroup}
    (h : groupsOf tokens = before ++ left) (hleft : ∀ g ∈ left.head?, g.key? = none) :
    ∀ t ∈ left.flatMap (·.tokens), t.isTrivia = true := by
  cases left with
  | nil =>
    intro t ht
    cases ht
  | cons g after =>
    have hnone := hleft g rfl
    obtain rfl := after_of_trailing h hnone
    have hmem : g ∈ groupsOf tokens := by
      rw [h]
      exact List.mem_append_right _ List.mem_cons_self
    have htrivia := (groupsAfter_leading (fun _ ht => absurd ht List.not_mem_nil) g hmem).1
    intro t ht
    refine isTrivia_of_not_isSignificant (htrivia t ?_)
    cases g with
    | keyed => cases hnone
    | trailing first rest => simpa [TokenGroup.leading] using ht

/-- The text of the trees of a script, in order. -/
def readText (parsed : Parsed) : String :=
  String.join ((parsed.trees.flatMap (·.groups)).map (·.text))

/-- The groups of the trees, one after the other, are a beginning of the script. If reading ends
without an error, what is left of the script is trivia. -/
theorem parseSql_covers (source : String) (filename : Option String) :
    ∃ rest : String, source = readText (parseSql source filename) ++ rest ∧
      ((parseSql source filename).error = none → ∀ filename' : Option String,
        (lexSql rest filename').error = none ∧
          ∀ t ∈ (lexSql rest filename').tokens, t.isTrivia = true) := by
  have hholds : (ParseState.ofLexed (lexSql source filename)).stream.Holds
      (groupsOf (lexSql source filename).tokens) (lexSql source filename).error :=
    TokenStream.holds_ofLexed _
  have henough := Nat.lt_succ_of_le hholds.remaining.ge
  obtain ⟨left, hcovers⟩ := statementsUpTo_covers hholds henough
  have hcovers : Covers (parseSql source filename) _ _ left := hcovers
  have htokens : (lexSql source filename).tokens =
      ((parseSql source filename).trees.flatMap (·.groups)).flatMap (·.tokens) ++
        left.flatMap (·.tokens) := by
    rw [← List.flatMap_append, ← hcovers.groups_eq, tokens_groupsOf]
  obtain ⟨cut, hout, hpasses, hafter, herror⟩ := lexSql_cut htokens
  refine ⟨String.ofList cut.rest, ?_, fun hfinished filename' => ?_⟩
  · have htext : source.toList = _ ++ cut.rest := hpasses.text
    rw [← String.toList_inj, String.toList_append, String.toList_ofList, htext, readText, join_text]
  · obtain ⟨hnone, hleft⟩ := hcovers.finished hfinished
    obtain ⟨hcontent, hcause⟩ := lexSql_rest hout filename'
    constructor
    · rw [herror, hnone] at hcause
      exact Option.map_eq_none_iff.1 hcause
    · intro t ht
      have hmem := List.mem_map_of_mem (f := Token.content) ht
      rw [hcontent, hafter] at hmem
      obtain ⟨t', ht', hsame⟩ := List.mem_map.1 hmem
      have htrivia := isTrivia_of_left hcovers.groups_eq hleft t' ht'
      rw [← htrivia]
      simp only [Token.isTrivia, Token.trivia, Sql.kind_of_content hsame]

end SqlDoc

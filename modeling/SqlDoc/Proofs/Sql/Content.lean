/-
# Positions do not decide the tokens of a script

What raw tokens are joined to depends on their kinds, texts and normal forms alone
(`Sql.cook_content`). So wherever a script is cut between two tokens, the tokens after the cut are
those of the rest of the script read on its own, but for their places (`lexSql_rest`).

Key theorems: `Sql.cook_content`, `lexSql_rest`.
-/
import SqlDoc.Proofs.Lexer.Alike
import SqlDoc.Proofs.Sql.Lossless

namespace SqlDoc
namespace Sql

/-! ### Joining -/

theorem kind_of_content {t t' : SqlToken} (h : t.content = t'.content) : t.kind = t'.kind :=
  congrArg (·.1) h

theorem tokensText_content {tokens tokens' : List SqlToken}
    (h : tokens.map Token.content = tokens'.map Token.content) :
    tokensText tokens = tokensText tokens' := by
  have htext (tokens : List SqlToken) :
      tokens.map (·.text) = (tokens.map Token.content).map (·.2.1) := by
    rw [List.map_map]
    rfl
  rw [tokensText, tokensText, htext, htext, h]

theorem cookOne_content {t t' : SqlToken} (h : t.content = t'.content) :
    (cookOne t).content = (cookOne t').content := by
  obtain ⟨kind, text, value, span⟩ := t
  obtain ⟨kind', text', value', span'⟩ := t'
  cases h
  cases kind <;> rfl

/-- Comments with the same text are the same token. -/
theorem joinPieces_content {kind : SqlKind} {value : List Char → List Char} {t t' : SqlToken}
    {more more' : List SqlToken} (h : tokensText (t :: more) = tokensText (t' :: more')) :
    (joinPieces kind value t more).content = (joinPieces kind value t' more').content := by
  simp only [Token.content, joinPieces, h]

theorem joinBlock_content {t t' : SqlToken} {more more' : List SqlToken}
    (h : tokensText (t :: more) = tokensText (t' :: more')) :
    (joinBlock t more).content = (joinBlock t' more').content := by
  rw [joinBlock, joinBlock, h]
  split
  · exact joinPieces_content h
  · exact joinPieces_content h

/-- The same pieces are taken up to the end of a comment. -/
theorem throughClose_content {tokens tokens' : List SqlToken}
    (h : tokens.map Token.content = tokens'.map Token.content) :
    throughClose tokens = none ∧ throughClose tokens' = none ∨
      ∃ pieces rest pieces' rest', throughClose tokens = some (pieces, rest) ∧
        throughClose tokens' = some (pieces', rest') ∧
        pieces.map Token.content = pieces'.map Token.content ∧
        rest.map Token.content = rest'.map Token.content := by
  induction tokens generalizing tokens' with
  | nil =>
    rw [List.map_eq_nil_iff.1 h.symm]
    exact Or.inl ⟨rfl, rfl⟩
  | cons t tokens ih =>
    obtain ⟨t', tokens', rfl, ht, htokens⟩ := List.map_eq_cons_iff.1 h.symm
    rw [throughClose, throughClose, kind_of_content ht]
    split
    · exact Or.inr ⟨[t], tokens, [t'], tokens', rfl, rfl, by simp [ht], htokens.symm⟩
    · rcases ih htokens.symm with ⟨h1, h2⟩ | ⟨pieces, rest, pieces', rest', h1, h2, hp, hr⟩
      · rw [h1, h2]
        exact Or.inl ⟨rfl, rfl⟩
      · rw [h1, h2]
        exact Or.inr ⟨t :: pieces, rest, t' :: pieces', rest', rfl, rfl, by simp [ht, hp], hr⟩

/-- The same pieces are taken up to the end of a line. -/
theorem takeWhile_content {tokens tokens' : List SqlToken} (kind : SqlKind)
    (h : tokens.map Token.content = tokens'.map Token.content) :
    (tokens.takeWhile (·.kind = kind)).map Token.content =
      (tokens'.takeWhile (·.kind = kind)).map Token.content := by
  have htake (tokens : List SqlToken) : (tokens.takeWhile (·.kind = kind)).map Token.content =
      (tokens.map Token.content).takeWhile (·.1 = kind) := by
    rw [List.takeWhile_map]
    rfl
  rw [htake, htake, h]

/-- The same tokens come from the same raw tokens, wherever those are. -/
theorem cook_content {tokens tokens' : List SqlToken}
    (h : tokens.map Token.content = tokens'.map Token.content) :
    (cook tokens).map Token.content = (cook tokens').map Token.content := by
  induction hn : tokens.length using Nat.strongRecOn generalizing tokens tokens' with
  | ind n ih =>
    cases tokens with
    | nil => rw [List.map_eq_nil_iff.1 h.symm]
    | cons t tokens =>
      obtain ⟨t', tokens', rfl, ht, htokens⟩ := List.map_eq_cons_iff.1 h.symm
      have hkind := kind_of_content ht
      by_cases hline : t.kind = .lineOpen
      · have htake := takeWhile_content .commentText htokens.symm
        have hlength := congrArg List.length htake
        rw [List.length_map, List.length_map] at hlength
        rw [cook_lineOpen hline, cook_lineOpen (hkind.trans hline), List.map_cons, List.map_cons,
          hlength]
        have hjoin : (joinLine t (tokens.takeWhile (·.kind = .commentText))).content =
            (joinLine t' (tokens'.takeWhile (·.kind = .commentText))).content :=
          joinPieces_content (tokensText_content (by rw [List.map_cons, List.map_cons, ht, htake]))
        rw [hjoin]
        congr 1
        refine ih _ ?_ ?_ rfl
        · rw [List.length_drop]
          simp only [List.length_cons] at hn
          omega
        · rw [List.map_drop, List.map_drop, htokens]
      · by_cases hblock : t.kind = .blockOpen
        · rw [cook_blockOpen hblock, cook_blockOpen (hkind.trans hblock)]
          rcases throughClose_content htokens.symm with
            ⟨h1, h2⟩ | ⟨pieces, rest, pieces', rest', h1, h2, hpieces, hrest⟩
          · rw [h1, h2]
            rfl
          · rw [h1, h2, Option.elim_some, Option.elim_some, List.map_cons, List.map_cons]
            have hjoin : (joinBlock t pieces).content = (joinBlock t' pieces').content :=
              joinBlock_content (tokensText_content (by rw [List.map_cons, List.map_cons, ht, hpieces]))
            rw [hjoin]
            congr 1
            refine ih _ ?_ hrest rfl
            have hlength := congrArg List.length (throughClose_append h1)
            rw [List.length_append] at hlength
            simp only [List.length_cons] at hn
            omega
        · rw [cook_other hline hblock, cook_other (hkind ▸ hline) (hkind ▸ hblock), List.map_cons,
            List.map_cons, cookOne_content ht.symm]
          congr 1
          exact ih _ (by simp only [List.length_cons] at hn; omega) htokens.symm rfl

end Sql

/-- From a place outside comments the rest of a script gives the tokens that it would give as a
script of its own. -/
theorem lexSql_rest {cut : Lexer sqlGrammar} (h : Sql.Outside cut) (filename : Option String) :
    (lexSql (String.ofList cut.rest) filename).tokens.map Token.content =
        (cook cut.run.1).map Token.content ∧
      (lexSql (String.ofList cut.rest) filename).error.map LexError.cause =
        cut.run.2.map LexError.cause := by
  have hstates : cut.states = [sqlGrammar.start] := by
    rw [Lexer.states, h.2, List.map_singleton, h.top_eq]
    rfl
  have halike : (Lexer.start sqlGrammar (String.ofList cut.rest).toList
      (Position.start.inFile filename)).Alike cut :=
    (Lexer.start_alike (String.toList_ofList).symm hstates).symm
  exact ⟨Sql.cook_content halike.run.1, halike.run.2⟩

end SqlDoc

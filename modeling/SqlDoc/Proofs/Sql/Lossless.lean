/-
# A script's tokens are the script

Reading a script loses nothing: the texts of its tokens, one after the other, are the script, or the
part of it up to a comment that is opened and never closed. That is the one way in which a script
can fail to be read (`lexSql_lossless`).

Key definition: `scriptLexer`.
Key theorems: `lexSql_cut`, `lexSql_end`, `lexSql_lossless`.
-/
import SqlDoc.Proofs.Sql.Feed

namespace SqlDoc

open Sql (Outside CookedStep Unclosed)

/-! ### Cutting the tokens of a script -/

/-- The lexer at the start of a script. -/
def scriptLexer (source : String) (filename : Option String) : Lexer sqlGrammar :=
  .start sqlGrammar source.toList (Position.start.inFile filename)

/-- Between any two of its tokens a script is cut at the place that the tokens before say. -/
theorem lexSql_cut {source : String} {filename : Option String} {before after : List SqlToken}
    (h : (lexSql source filename).tokens = before ++ after) :
    ∃ cut : Lexer sqlGrammar, Outside cut ∧
      (scriptLexer source filename).Passes (tokensText before).toList cut ∧
      cook cut.run.1 = after ∧ cut.run.2 = (lexSql source filename).error :=
  Sql.cooked_split (Sql.outside_start _ _) h

theorem lexSql_step {source : String} {filename : Option String} {t : SqlToken}
    (h : t ∈ (lexSql source filename).tokens) :
    ∃ lx next : Lexer sqlGrammar, CookedStep lx t next := by
  obtain ⟨before, after, hsplit⟩ := List.append_of_mem h
  obtain ⟨cut, hout, -, htokens, -⟩ := lexSql_cut hsplit
  obtain ⟨next, hstep, -⟩ := Sql.cooked_cons hout htokens
  exact ⟨cut, next, hstep⟩

/-! ### The whole script -/

/-- Past its last token a script has ended, or a comment is opened that is never closed. -/
theorem lexSql_end (source : String) (filename : Option String) :
    ∃ cut : Lexer sqlGrammar,
      (scriptLexer source filename).Passes (tokensText (lexSql source filename).tokens).toList cut ∧
        ((lexSql source filename).error = none ∧ cut.rest = [] ∨
          (lexSql source filename).error = some (.unterminated "block comment" cut.position) ∧
            "/*".toList <+: cut.rest ∧ ¬ "*/".toList <:+: cut.rest.drop 2) := by
  obtain ⟨cut, hout, hpasses, htokens, herror⟩ :=
    lexSql_cut (List.append_nil (lexSql source filename).tokens).symm
  refine ⟨cut, hpasses, ?_⟩
  rw [← herror]
  rcases Sql.cooked_cases hout with ⟨hrun, hrest⟩ | hopen | ⟨t, next, hstep⟩
  · rw [hrun]
    exact Or.inl ⟨rfl, hrest⟩
  · exact Or.inr ⟨hopen.error, hopen.opens, hopen.unclosed⟩
  · rw [hstep.tokens] at htokens
    cases htokens

/-- The tokens of a script are pieces of it with a kind that is not raw. Asked for one after the
other they are all of the script, and nothing comes after them; or they are all of it up to a
comment that is never closed, and what comes after them is one error, which says where that is
opened. -/
theorem lexSql_lossless (source : String) (filename : Option String) :
    let tokens := (lexSql source filename).tokens
    let asked := (SqlFeed.ofSource source filename).pullAt
    (∀ t ∈ tokens, t.text ≠ "" ∧ t.kind.isRaw = false) ∧
      ((lexSql source filename).error = none ∧ tokensText tokens = source ∧
          (∀ n, asked n = (tokens.map Except.ok)[n]?) ∨
        ∃ k ≤ source.toList.length, ∃ e : LexError,
          e = .unterminated "block comment"
            ((Position.start.inFile filename).advance (source.toList.take k)) ∧
          (lexSql source filename).error = some e ∧
          (tokensText tokens).toList = source.toList.take k ∧
          (∀ n, asked n = (tokens.map Except.ok ++ [.error e])[n]?) ∧
          "/*".toList <+: source.toList.drop k ∧
          ¬ "*/".toList <:+: source.toList.drop (k + 2)) := by
  intro tokens asked
  have hasked : ∀ n, asked n = (itemsOf tokens (lexSql source filename).error)[n]? :=
    SqlFeed.pullAt_eq source filename
  constructor
  · intro t ht
    obtain ⟨lx, next, hstep⟩ := lexSql_step ht
    refine ⟨fun hnil => hstep.text_ne_nil ?_, hstep.cooked⟩
    rw [hnil]
    rfl
  · obtain ⟨cut, hpasses, hend⟩ := lexSql_end source filename
    rcases hend with ⟨herror, hrest⟩ | ⟨herror, hopens, hunclosed⟩
    · left
      have htext : source.toList = (tokensText tokens).toList ++ cut.rest := hpasses.text
      rw [hrest, List.append_nil] at htext
      refine ⟨herror, (String.toList_inj.1 htext).symm, fun n => ?_⟩
      rw [hasked, herror, itemsOf]
      exact congrArg (·[n]?) (List.append_nil _)
    · right
      have hdrop : source.toList.drop _ = cut.rest := hpasses.drop
      have hplace : cut.position =
          (Position.start.inFile filename).advance (source.toList.take _) := hpasses.position_take
      refine ⟨_, hpasses.length_le, _, rfl, ?_, hpasses.take.symm, fun n => ?_, ?_, ?_⟩
      · rw [herror, hplace]
      · rw [hasked, herror, hplace]
        rfl
      · rw [hdrop]
        exact hopens
      · rw [← List.drop_drop, hdrop]
        exact hunclosed

end SqlDoc

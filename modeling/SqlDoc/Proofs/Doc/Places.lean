/-
# Where the tokens of a comment are

No token of a documentation comment ends between the two characters of `\r\n`. So each token begins
at the position that the text before it says, wherever the comment itself begins.

Key theorems: `Doc.keepsLineEnds`, `lexDoc_cut`.
-/
import SqlDoc.Doc.Grammar
import SqlDoc.Proofs.Lexer.Passage

namespace SqlDoc
namespace Doc

theorem stateId_cases (id : docGrammar.StateId) :
    id = (0 : Fin 4) ∨ id = (1 : Fin 4) ∨ id = (2 : Fin 4) ∨ id = (3 : Fin 4) :=
  (by decide : ∀ id : Fin 4, id = 0 ∨ id = 1 ∨ id = 2 ∨ id = 3) id

/-- Every rule reads a line end or nothing that a return ends. -/
theorem checksLineEnds_rules (id : docGrammar.StateId) :
    ((docGrammar.state id).rules.all fun r => r.matcher.checksLineEnds) = true := by
  rcases stateId_cases id with rfl | rfl | rfl | rfl
  · exact (rfl : (mainState.rules.all fun r => r.matcher.checksLineEnds) = true)
  · exact (rfl : (lineStartState.rules.all fun r => r.matcher.checksLineEnds) = true)
  · exact (rfl : (braceState.rules.all fun r => r.matcher.checksLineEnds) = true)
  · exact (rfl : (bracketState.rules.all fun r => r.matcher.checksLineEnds) = true)

/-- The rule for line ends is there wherever a character may become text. -/
theorem newline_mem {id : docGrammar.StateId} {kind : DocKind}
    (h : (docGrammar.state id).fallback = .token kind) :
    rule .newline .lineEnd (.push 1) ∈ (docGrammar.state id).rules := by
  have hword : rule .newline .lineEnd (.push 1) ∈ wordRules :=
    List.mem_cons_of_mem _ List.mem_cons_self
  have henclosed : rule .newline .lineEnd (.push 1) ∈ enclosedRules :=
    List.mem_append_left _ hword
  rcases stateId_cases id with rfl | rfl | rfl | rfl
  · exact List.mem_append_left _ (List.mem_append_left _ (List.mem_cons_of_mem _ hword))
  · cases h
  · exact List.mem_cons_of_mem _ (List.mem_cons_of_mem _ henclosed)
  · exact List.mem_cons_of_mem _ (List.mem_cons_of_mem _ henclosed)

/-- No token ends inside a line end. -/
theorem keepsLineEnds : docGrammar.KeepsLineEnds where
  rules id r hr :=
    Matcher.keepsLineEnds_of_check (List.all_eq_true.1 (checksLineEnds_rules id) r hr)
  fallback _ _ h := ⟨_, newline_mem h, Matcher.lineEnd_reads_return⟩

end Doc

/-- Between any two of its tokens a comment is cut at the place that the tokens before say, and the
token after the cut begins there. -/
theorem lexDoc_cut {text : String} {start : Position} {before after : List DocToken} {d : DocToken}
    (h : (lexDoc text start).1 = before ++ d :: after) :
    ∃ rest, text.toList = (tokensText before).toList ++ (d.text.toList ++ rest) ∧
      d.start = start.advance (tokensText before).toList := by
  obtain ⟨cut, hreads, hcut, -⟩ := Lexer.Reads.of_run h
  obtain ⟨next, hstep, -, -⟩ := Lexer.step_of_run_cons hcut
  have hpasses := hreads.passes Doc.keepsLineEnds
  refine ⟨next.rest, ?_, ?_⟩
  · rw [Lexer.step_text hstep]
    exact hpasses.text
  · have hspan := (Lexer.span_of_step hstep).1
    rw [Token.start, hspan]
    exact hpasses.position

end SqlDoc

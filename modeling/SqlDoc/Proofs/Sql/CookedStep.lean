/-
# The tokens of a script one by one

A token of a script is one raw token or the pieces of a comment, so it comes from one or several
steps of the lexer, which begin and end outside comments (`CookedStep`). From a place outside
comments there is such a token, unless the text has ended or a comment is opened that is never
closed (`cooked_cases`). A script's tokens may therefore be cut anywhere: those after the cut are
the tokens that the lexer gives from the place where it then is (`cooked_split`).

Key definitions: `Sql.CookedStep`, `Sql.Unclosed`.
Key theorems: `Sql.cooked_cases`, `Sql.cooked_split`.
-/
import SqlDoc.Proofs.Sql.RawStep

namespace SqlDoc
namespace Sql

open Lexer (Reads Passes)

/-! ### Joining the pieces of comments -/

theorem cook_lineOpen {t : SqlToken} (ht : t.kind = .lineOpen) (rest : List SqlToken) :
    cook (t :: rest) =
      joinLine t (rest.takeWhile (·.kind = .commentText)) ::
        cook (rest.drop (rest.takeWhile (·.kind = .commentText)).length) := by
  rw [cook]
  split
  · rfl
  · simp_all
  · simp_all

theorem cook_blockOpen {t : SqlToken} (ht : t.kind = .blockOpen) (rest : List SqlToken) :
    cook (t :: rest) =
      (throughClose rest).elim [] fun (pieces, rest) => joinBlock t pieces :: cook rest := by
  rw [cook]
  split
  · simp_all
  · split
    · rename_i h
      rw [h]
      rfl
    · rename_i h
      rw [h]
      rfl
  · simp_all

theorem cook_other {t : SqlToken} (hline : t.kind ≠ .lineOpen) (hblock : t.kind ≠ .blockOpen)
    (rest : List SqlToken) : cook (t :: rest) = cookOne t :: cook rest := by
  rw [cook]
  split
  · contradiction
  · contradiction
  · rfl

/-- A line comment takes the pieces up to the first token that is none. -/
theorem cook_line {t : SqlToken} {pieces rest : List SqlToken} (ht : t.kind = .lineOpen)
    (hpieces : ∀ p ∈ pieces, p.kind = .commentText)
    (hrest : ∀ p ∈ rest.head?, p.kind ≠ .commentText) :
    cook (t :: (pieces ++ rest)) = joinLine t pieces :: cook rest := by
  have htake : (pieces ++ rest).takeWhile (·.kind = .commentText) = pieces := by
    rw [List.takeWhile_append_of_pos fun p hp => decide_eq_true (hpieces p hp)]
    cases rest with
    | nil => simp
    | cons p rest =>
      rw [List.takeWhile_cons_of_neg, List.append_nil]
      simpa using hrest p rfl
  rw [cook_lineOpen ht, htake, List.drop_left]

theorem throughClose_of_close {pieces : List SqlToken} {close : SqlToken} (rest : List SqlToken)
    (hpieces : ∀ p ∈ pieces, p.kind ≠ .blockClose) (hclose : close.kind = .blockClose) :
    throughClose (pieces ++ close :: rest) = some (pieces ++ [close], rest) := by
  induction pieces with
  | nil =>
    rw [List.nil_append, throughClose, if_pos hclose]
    rfl
  | cons p pieces ih =>
    rw [List.cons_append, throughClose, if_neg (hpieces p List.mem_cons_self),
      ih fun q hq => hpieces q (List.mem_cons_of_mem p hq)]
    rfl

theorem throughClose_eq_none {tokens : List SqlToken}
    (h : ∀ t ∈ tokens, t.kind ≠ .blockClose) : throughClose tokens = none := by
  induction tokens with
  | nil => rfl
  | cons t tokens ih =>
    rw [throughClose, if_neg (h t List.mem_cons_self),
      ih fun q hq => h q (List.mem_cons_of_mem t hq)]
    rfl

/-- A block comment takes the pieces up to its end. -/
theorem cook_block {t close : SqlToken} {pieces rest : List SqlToken} (ht : t.kind = .blockOpen)
    (hpieces : ∀ p ∈ pieces, p.kind ≠ .blockClose) (hclose : close.kind = .blockClose) :
    cook (t :: (pieces ++ close :: rest)) = joinBlock t (pieces ++ [close]) :: cook rest := by
  rw [cook_blockOpen ht, throughClose_of_close rest hpieces hclose]
  rfl

/-- A block comment without an end gives no token. -/
theorem cook_unclosed {t : SqlToken} {rest : List SqlToken} (ht : t.kind = .blockOpen)
    (hrest : ∀ p ∈ rest, p.kind ≠ .blockClose) : cook (t :: rest) = [] := by
  rw [cook_blockOpen ht, throughClose_eq_none hrest]
  rfl

@[simp] theorem cookOne_text (t : SqlToken) : (cookOne t).text = t.text := by
  unfold cookOne
  split <;> rfl

@[simp] theorem cookOne_span (t : SqlToken) : (cookOne t).span = t.span := by
  unfold cookOne
  split <;> rfl

/-- A word becomes reserved, a keyword or an identifier; every other kind stays. -/
theorem cookOne_kind (t : SqlToken) :
    (cookOne t).kind.isWord = true ∨ (cookOne t).kind = t.kind ∧ t.kind ≠ .word := by
  unfold cookOne
  split
  · left
    unfold cookWord
    dsimp only
    split <;> rfl
  · rename_i h
    exact Or.inr ⟨rfl, by rw [h]; decide⟩
  · rename_i h
    exact Or.inr ⟨rfl, by rw [h]; decide⟩
  · rename_i h _ _
    exact Or.inr ⟨rfl, h⟩

/-- What comes from a token outside comments is neither raw nor a comment. -/
theorem cookOne_plain {t : SqlToken} (hpiece : isPiece t.kind = false)
    (hcomment : t.kind.isComment = false) :
    (cookOne t).kind.isRaw = false ∧ (cookOne t).kind.isComment = false := by
  rcases cookOne_kind t with hword | ⟨hkind, hne⟩
  · revert hword
    cases (cookOne t).kind <;> decide
  · rw [hkind]
    refine ⟨?_, hcomment⟩
    revert hpiece hne
    cases t.kind <;> decide

/-! ### Runs through comments -/

/-- No token outside comments is a piece of one. -/
theorem Outside.head_of_run {lx : Lexer sqlGrammar} (h : Outside lx) :
    ∀ t ∈ lx.run.1.head?, t.kind ≠ .commentText := by
  intro t ht
  by_cases hrest : lx.rest = []
  · rw [Lexer.run_of_finished (h.finished hrest)] at ht
    cases ht
  · obtain ⟨token, next, hstep, hread⟩ := h.step hrest
    rw [Lexer.run_of_token hstep] at ht
    obtain rfl : token = t := Option.some.inj ht
    rcases hread with ⟨hpiece, -⟩ | ⟨hkind, -⟩ | ⟨hkind, -⟩
    · intro hkind
      rw [hkind] at hpiece
      cases hpiece
    · rw [hkind]
      decide
    · rw [hkind]
      decide

/-- Where a line ends, so does a line comment. -/
theorem InLine.run_of_lineEnd {lx : Lexer sqlGrammar} (h : InLine lx)
    (hend : ∀ c ∈ lx.rest.head?, Text.isLineEnd c = true) : lx.run = lx.pop.run := by
  cases hrest : lx.rest with
  | nil =>
    have hpop : lx.pop.rest = [] := by rw [Lexer.rest_pop, hrest]
    rw [Lexer.run_of_finished (h.finished hrest), Lexer.run_of_finished (h.pop.finished hpop)]
  | cons found rest =>
    rw [hrest] at hend
    exact Lexer.run_of_step_eq (h.step_lineEnd hrest (hend found rfl))

/-- A line comment is some pieces, up to the end of the line, and then the lexer is outside
comments. -/
theorem InLine.run {lx : Lexer sqlGrammar} (h : InLine lx) :
    ∃ pieces next, lx.Reads pieces next ∧ (∀ p ∈ pieces, p.kind = .commentText) ∧
      Outside next.pop ∧ next.run = next.pop.run ∧
      ∀ c ∈ next.rest.head?, Text.isLineEnd c = true := by
  by_cases hend : ∀ c ∈ lx.rest.head?, Text.isLineEnd c = true
  · refine ⟨[], lx, .nil lx, ?_, h.pop, h.run_of_lineEnd hend, hend⟩
    intro p hp
    cases hp
  · cases hrest : lx.rest with
    | nil =>
      refine absurd (fun c hc => ?_) hend
      rw [hrest] at hc
      cases hc
    | cons found rest =>
      have hfound : Text.isLineEnd found = false := by
        rw [hrest] at hend
        simpa using hend
      obtain ⟨token, next, hstep, hkind, hnext, hstop⟩ := h.step hrest hfound
      refine ⟨[token], next, .cons hstep (.nil next), ?_, hnext.pop, hnext.run_of_lineEnd hstop,
        hstop⟩
      intro p hp
      rw [List.mem_singleton.1 hp]
      exact hkind

/-- A block comment runs to its end; where there is no end, the run fails at its start. -/
theorem InBlock.run {opened : Position} {lx : Lexer sqlGrammar} (h : InBlock opened lx) :
    (∃ pieces close next, lx.Reads (pieces ++ [close]) next ∧
      (∀ p ∈ pieces, p.kind ≠ .blockClose) ∧ close.kind = .blockClose ∧ Outside next ∧
      Text.afterPair '*' '/' lx.rest = some next.rest) ∨
    (lx.run.2 = some (.unterminated "block comment" opened) ∧
      (∀ t ∈ lx.run.1, t.kind ≠ .blockClose) ∧ Text.afterPair '*' '/' lx.rest = none) := by
  induction hn : lx.rest.length using Nat.strong_induction_on generalizing lx with
  | _ n ih =>
    by_cases hrest : lx.rest = []
    · right
      rw [Lexer.run_of_failed (h.failed hrest), hrest]
      refine ⟨rfl, ?_, rfl⟩
      intro t ht
      cases ht
    · obtain ⟨token, mid, hstep, hclose | ⟨hkind, hmid, hend⟩⟩ := h.step hrest
      · obtain ⟨hkind, htext, hnext⟩ := hclose
        refine Or.inl ⟨[], token, mid, .cons hstep (.nil mid), ?_, hkind, hnext, ?_⟩
        · intro p hp
          cases hp
        · rw [← Lexer.step_text hstep, htext]
          exact Text.afterPair_pair ..
      · have hne : token.kind ≠ .blockClose := by
          rw [hkind]
          decide
        have hlt : mid.rest.length < n := hn ▸ Lexer.step_shorter hstep
        rw [hend]
        rcases ih _ hlt hmid rfl with
          ⟨pieces, close, next, hreads, hpieces, hclose, hnext, hpair⟩ | hopen
        · refine Or.inl ⟨token :: pieces, close, next, .cons hstep hreads, ?_, hclose, hnext, hpair⟩
          exact List.forall_mem_cons.2 ⟨hne, hpieces⟩
        · obtain ⟨herror, htokens, hno⟩ := hopen
          rw [Lexer.run_of_token hstep]
          exact Or.inr ⟨herror, List.forall_mem_cons.2 ⟨hne, htokens⟩, hno⟩

/-! ### Tokens one by one -/

/-- From a place outside comments the lexer reads what becomes the token `t`, and comes to `next`,
again outside comments. -/
structure CookedStep (lx : Lexer sqlGrammar) (t : SqlToken) (next : Lexer sqlGrammar) : Prop where
  tokens : cook lx.run.1 = t :: cook next.run.1
  error : lx.run.2 = next.run.2
  outside : Outside next
  passes : lx.Passes t.text.toList next
  span : t.span = .between lx.position next.position
  text_ne_nil : t.text.toList ≠ []
  cooked : t.kind.isRaw = false
  /-- What is taken for documentation begins as documentation does. -/
  documents : t.kind = .docComment → isDocText t.text.toList = true

/-- From here a comment is opened that is never closed. -/
structure Unclosed (lx : Lexer sqlGrammar) : Prop where
  tokens : cook lx.run.1 = []
  error : lx.run.2 = some (.unterminated "block comment" lx.position)
  opens : ['/', '*'] <+: lx.rest
  unclosed : ¬ ['*', '/'] <:+: lx.rest.drop 2

/-- What is read in one step becomes one token. -/
theorem cookedStep_plain {lx next : Lexer sqlGrammar} {token : SqlToken}
    (hstep : lx.step = .token token next) (hpiece : isPiece token.kind = false)
    (hcomment : token.kind.isComment = false) (hnext : Outside next) :
    CookedStep lx (cookOne token) next where
  tokens := by
    rw [Lexer.run_of_token hstep]
    refine cook_other (fun h => ?_) (fun h => ?_) _
    · rw [h] at hpiece
      cases hpiece
    · rw [h] at hpiece
      cases hpiece
  error := by rw [Lexer.run_of_token hstep]
  outside := hnext
  passes := by
    rw [cookOne_text]
    exact Lexer.passes_of_step keepsLineEnds hstep
  span := by
    rw [cookOne_span]
    exact (Lexer.span_of_step hstep).1
  text_ne_nil := by
    rw [cookOne_text]
    exact Lexer.text_ne_nil_of_step hstep
  cooked := (cookOne_plain hpiece hcomment).1
  documents := by
    intro hdoc
    have := (cookOne_plain hpiece hcomment).2
    rw [hdoc] at this
    cases this

/-- The texts of a comment's pieces are a text that is not empty. -/
theorem tokensText_ne_nil {lx mid : Lexer sqlGrammar} {first : SqlToken}
    (hstep : lx.step = .token first mid) (more : List SqlToken) :
    (tokensText (first :: more)).toList ≠ [] := by
  rw [tokensText_cons, String.toList_append]
  intro hnil
  exact Lexer.text_ne_nil_of_step hstep (List.append_eq_nil_iff.1 hnil).1

/-- What `--` begins and the pieces up to the end of the line become one comment. -/
theorem cookedStep_joinLine {lx mid last : Lexer sqlGrammar} {first : SqlToken}
    {pieces : List SqlToken} (hstep : lx.step = .token first mid) (hkind : first.kind = .lineOpen)
    (hreads : mid.Reads pieces last) (hpieces : ∀ p ∈ pieces, p.kind = .commentText)
    (hout : Outside last.pop) (hrun : last.run = last.pop.run) :
    CookedStep lx (joinLine first pieces) last.pop := by
  have hraw : lx.run = (first :: (pieces ++ last.pop.run.1), last.pop.run.2) := by
    rw [Lexer.run_of_token hstep, hreads.run, hrun]
  refine ⟨?_, ?_, hout, ?_, ?_, ?_, rfl, ?_⟩
  · rw [hraw]
    exact cook_line hkind hpieces hout.head_of_run
  · rw [hraw]
  · exact ((Reads.cons hstep hreads).passes keepsLineEnds).pop
  · rw [Lexer.position_pop]
    exact hreads.span_of_pieces hstep
  · exact tokensText_ne_nil hstep pieces
  · intro hdoc
    cases hdoc

/-- From `--` on, a comment is read to the end of its line. -/
theorem cookedStep_line {lx mid : Lexer sqlGrammar} {first : SqlToken}
    (hstep : lx.step = .token first mid) (hkind : first.kind = .lineOpen) (hmid : InLine mid) :
    ∃ t next, CookedStep lx t next := by
  obtain ⟨pieces, last, hreads, hpieces, hout, hrun, -⟩ := hmid.run
  exact ⟨_, _, cookedStep_joinLine hstep hkind hreads hpieces hout hrun⟩

theorem joinBlock_text (first : SqlToken) (more : List SqlToken) :
    (joinBlock first more).text = tokensText (first :: more) := by
  unfold joinBlock
  split <;> rfl

theorem joinBlock_span (first : SqlToken) (more : List SqlToken) :
    (joinBlock first more).span =
      more.foldl (fun span t => span.merge t.span) first.span := by
  unfold joinBlock
  split <;> rfl

/-- A comment in `/*` and `*/` is documentation if its text says so. -/
theorem joinBlock_kind (first : SqlToken) (more : List SqlToken) :
    (joinBlock first more).kind =
      if isDocText (tokensText (first :: more)).toList then .docComment else .blockComment := by
  unfold joinBlock
  split <;> rfl

/-- What `/*` begins and the pieces up to the end of the comment become one comment. -/
theorem cookedStep_joinBlock {lx mid next : Lexer sqlGrammar} {first close : SqlToken}
    {pieces : List SqlToken} (hstep : lx.step = .token first mid) (hkind : first.kind = .blockOpen)
    (hreads : mid.Reads (pieces ++ [close]) next) (hpieces : ∀ p ∈ pieces, p.kind ≠ .blockClose)
    (hclose : close.kind = .blockClose) (hnext : Outside next) :
    CookedStep lx (joinBlock first (pieces ++ [close])) next := by
  have hraw : lx.run = (first :: (pieces ++ close :: next.run.1), next.run.2) := by
    rw [Lexer.run_of_token hstep, hreads.run, List.append_assoc, List.singleton_append]
  refine ⟨?_, ?_, hnext, ?_, ?_, ?_, ?_, ?_⟩
  · rw [hraw]
    exact cook_block hkind hpieces hclose
  · rw [hraw]
  · rw [joinBlock_text]
    exact (Reads.cons hstep hreads).passes keepsLineEnds
  · rw [joinBlock_span]
    exact hreads.span_of_pieces hstep
  · rw [joinBlock_text]
    exact tokensText_ne_nil hstep _
  · rw [joinBlock_kind]
    split <;> rfl
  · rw [joinBlock_kind, joinBlock_text]
    intro hdoc
    split at hdoc
    · assumption
    · cases hdoc

/-- From `/*` on, a comment is read to its end, if it has one. -/
theorem cookedStep_block {lx mid : Lexer sqlGrammar} {first : SqlToken}
    (hstep : lx.step = .token first mid) (hkind : first.kind = .blockOpen)
    (htext : first.text.toList = ['/', '*']) (hmid : InBlock lx.position mid) :
    Unclosed lx ∨ ∃ t next, CookedStep lx t next := by
  rcases hmid.run with ⟨pieces, close, next, hreads, hpieces, hclose, hnext, -⟩ | hopen
  · exact Or.inr ⟨_, next, cookedStep_joinBlock hstep hkind hreads hpieces hclose hnext⟩
  · left
    obtain ⟨herror, htokens, hno⟩ := hopen
    have hpasses : lx.rest = ['/', '*'] ++ mid.rest := by
      rw [← htext]
      exact (Lexer.step_text hstep).symm
    refine ⟨?_, ?_, ⟨mid.rest, hpasses.symm⟩, ?_⟩
    · rw [Lexer.run_of_token hstep]
      exact cook_unclosed hkind htokens
    · rw [Lexer.run_of_token hstep]
      exact herror
    · rw [hpasses]
      exact Text.afterPair_eq_none.1 hno

/-- Outside comments the text has ended, or a comment is never closed, or there is a token. -/
theorem cooked_cases {lx : Lexer sqlGrammar} (h : Outside lx) :
    lx.run = ([], none) ∧ lx.rest = [] ∨ Unclosed lx ∨ ∃ t next, CookedStep lx t next := by
  by_cases hrest : lx.rest = []
  · exact Or.inl ⟨Lexer.run_of_finished (h.finished hrest), hrest⟩
  · right
    obtain ⟨token, next, hstep, hplain | hline | hblock⟩ := h.step hrest
    · obtain ⟨hpiece, hcomment, hnext⟩ := hplain
      exact Or.inr ⟨_, next, cookedStep_plain hstep hpiece hcomment hnext⟩
    · exact Or.inr (cookedStep_line hstep hline.1 hline.2)
    · obtain ⟨hkind, htext, hmid⟩ := hblock
      exact cookedStep_block hstep hkind htext hmid

/-- Where there is a token, the lexer comes to where the tokens after it begin. -/
theorem cooked_cons {lx : Lexer sqlGrammar} (h : Outside lx) {t : SqlToken}
    {after : List SqlToken} (htokens : cook lx.run.1 = t :: after) :
    ∃ next, CookedStep lx t next ∧ cook next.run.1 = after := by
  rcases cooked_cases h with ⟨hrun, -⟩ | hunclosed | ⟨t', next, hstep⟩
  · rw [hrun, cook] at htokens
    cases htokens
  · rw [hunclosed.tokens] at htokens
    cases htokens
  · rw [hstep.tokens] at htokens
    cases htokens
    exact ⟨next, hstep, rfl⟩

/-- Wherever the tokens are cut, the lexer comes to the cut, and those after it are the tokens that
it gives from there. -/
theorem cooked_split {lx : Lexer sqlGrammar} (h : Outside lx) {before after : List SqlToken}
    (htokens : cook lx.run.1 = before ++ after) :
    ∃ cut, Outside cut ∧ lx.Passes (tokensText before).toList cut ∧ cook cut.run.1 = after ∧
      cut.run.2 = lx.run.2 := by
  induction before generalizing lx with
  | nil => exact ⟨lx, h, .refl lx, htokens, rfl⟩
  | cons t before ih =>
    obtain ⟨next, hstep, hnext⟩ := cooked_cons h htokens
    obtain ⟨cut, hcut, hpasses, hafter, herror⟩ := ih hstep.outside hnext
    refine ⟨cut, hcut, ?_, hafter, herror.trans hstep.error.symm⟩
    rw [tokensText_cons, String.toList_append]
    exact hstep.passes.trans hpasses

/-- A script begins outside comments. -/
theorem outside_start (text : List Char) (p : Position) :
    Outside (Lexer.start sqlGrammar text p) :=
  ⟨rfl, rfl⟩

end Sql
end SqlDoc

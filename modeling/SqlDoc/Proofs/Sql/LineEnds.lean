/-
# Tokens with line ends in them

A line end is a token of its own, or it stands in a string, in a name in quotes or in a comment that
has to be closed. All other tokens lie within a line (`lexSql_lineEnds`), so what comes after a line
end in a script lies on a later line than what comes before it (`lexSql_later`).

Key definition: `SqlKind.spansLines`.
Key theorems: `Sql.Outside.step_lineEnds`, `lexSql_lineEnds`, `lexSql_later`.
-/
import SqlDoc.Proofs.Position.Order
import SqlDoc.Proofs.Sql.Lossless

namespace SqlDoc

/-- Tokens of the kind may have line ends in them. -/
def SqlKind.spansLines : SqlKind → Bool
  | newline | string | quotedIdentifier | blockComment | docComment => true
  | _ => false

/-- No character of the text ends a line. -/
def Unbroken (text : String) : Prop :=
  ∀ c ∈ text.toList, Text.isLineEnd c = false

theorem Unbroken.append {first second : String} (h1 : Unbroken first) (h2 : Unbroken second) :
    Unbroken (first ++ second) := by
  intro c hc
  rw [String.toList_append] at hc
  exact (List.mem_append.1 hc).elim (h1 c) (h2 c)

theorem unbroken_tokensText {tokens : List SqlToken} (h : ∀ t ∈ tokens, Unbroken t.text) :
    Unbroken (tokensText tokens) := by
  induction tokens with
  | nil => simp [Unbroken, tokensText]
  | cons t tokens ih =>
    rw [tokensText_cons]
    exact (h t List.mem_cons_self).append (ih fun u hu => h u (List.mem_cons_of_mem t hu))

/-! ### Rules -/

theorem lineEnd_cases {c : Char} (h : Text.isLineEnd c = true) : c = '\n' ∨ c = '\r' := by
  simpa [Text.isLineEnd] using h

/-- A check for matchers that read no line ends. -/
def Matcher.staysOnLine (m : Matcher) : Bool :=
  m.avoids '\n' && m.avoids '\r'

theorem Matcher.unbroken_of_staysOnLine {m : Matcher} (h : m.staysOnLine = true)
    {text : List Char} {stop : Cursor text} (hstop : m.tokenEnd? text = some stop) :
    Unbroken (String.ofList (text.take stop.seen)) := by
  obtain ⟨hfeed, hreturn⟩ := Bool.and_eq_true_iff.1 h
  intro c hc
  rw [String.toList_ofList] at hc
  by_contra hend
  rcases lineEnd_cases (by simpa using hend) with rfl | rfl
  · exact Matcher.not_mem_of_avoids hfeed hstop hc
  · exact Matcher.not_mem_of_avoids hreturn hstop hc

/-- Wherever a line end is next, it is read. -/
theorem Matcher.lineEnd_reads {c : Char} (h : Text.isLineEnd c = true) (rest : List Char) :
    (Matcher.pattern .lineEnd).tokenEnd? (c :: rest) ≠ none := by
  rcases lineEnd_cases h with rfl | rfl
  · exact fun hnone => nomatch hnone
  · exact Matcher.lineEnd_reads_return rest

namespace Sql

theorem mainRules_lineEnds {r : Rule SqlKind Matcher (Fin 3)} (h : r ∈ mainState.rules) :
    r.kind.spansLines = true ∨ r.matcher.staysOnLine = true := by
  have hall : (mainState.rules.all fun r => r.kind.spansLines || r.matcher.staysOnLine) = true :=
    rfl
  exact Bool.or_eq_true_iff.1 (List.all_eq_true.1 hall r h)

theorem mainRules_newline {r : Rule SqlKind Matcher (Fin 3)} (h : r ∈ mainState.rules)
    (hkind : r.kind = .newline) : r.matcher.mustContain Text.isLineEnd = true := by
  have hall : (mainState.rules.all fun r =>
      r.kind ≠ .newline || r.matcher.mustContain Text.isLineEnd) = true := rfl
  have hrule := List.all_eq_true.1 hall r h
  simpa [hkind] using hrule

/-! ### Steps -/

variable {lx next : Lexer sqlGrammar} {token : SqlToken}

/-- Outside comments a step reads what a rule does, or a character that ends no line. -/
theorem Outside.step_origin (h : Outside lx) (hstep : lx.step = .token token next) :
    token.kind = .unknown ∧ Unbroken token.text ∨
      ∃ r ∈ mainState.rules, ∃ stop, r.matcher.tokenEnd? lx.rest = some stop ∧
        token.kind = r.kind ∧ token.text = String.ofList (lx.rest.take stop.seen) := by
  have hrest : lx.rest ≠ [] := by
    intro hnil
    rw [h.finished hnil] at hstep
    cases hstep
  obtain ⟨found, rest, hrest⟩ := List.exists_cons_of_ne_nil hrest
  cases hm : lx.matchRule? with
  | none =>
    have hunknown : lx.state.fallback = .token .unknown := by
      rw [h.state_eq]
      rfl
    have hread := Lexer.step_of_act_read hrest (Lexer.act_of_fallback_token hm hunknown found)
    obtain ⟨rfl, -⟩ := Lexer.Outcome.token.inj (hread.symm.trans hstep)
    -- the character is no line end, or the rule for line ends would have read it
    have hline : (Matcher.pattern .lineEnd).tokenEnd? lx.rest = none :=
      Lexer.of_matchRule?_eq_none hm (rule .newline .lineEnd) (by
        rw [h.state_eq]
        exact List.mem_cons_self)
    refine Or.inl ⟨rfl, fun c hc => ?_⟩
    obtain rfl : c = found := by simpa [Lexer.token, hrest] using hc
    by_contra hend
    rw [hrest] at hline
    exact Matcher.lineEnd_reads (by simpa using hend) rest hline
  | some pair =>
    obtain ⟨r, stop⟩ := pair
    have hread := Lexer.step_of_act_read hrest (Lexer.act_of_matchRule? hm found)
    obtain ⟨rfl, -⟩ := Lexer.Outcome.token.inj (hread.symm.trans hstep)
    obtain ⟨hr, hstop⟩ := Lexer.of_matchRule?_eq_some hm
    rw [h.state_eq] at hr
    exact Or.inr ⟨r, hr, stop, hstop, rfl, rfl⟩

/-- Outside comments a step reads a token that may span lines, or one within a line. -/
theorem Outside.step_lineEnds (h : Outside lx) (hstep : lx.step = .token token next) :
    token.kind.spansLines = true ∨ Unbroken token.text := by
  rcases h.step_origin hstep with ⟨-, hline⟩ | ⟨r, hr, stop, hstop, hkind, htext⟩
  · exact Or.inr hline
  · rw [hkind, htext]
    exact (mainRules_lineEnds hr).imp id fun hstays => Matcher.unbroken_of_staysOnLine hstays hstop

/-- In a token for a line end there is one. -/
theorem Outside.step_newline (h : Outside lx) (hstep : lx.step = .token token next)
    (hnewline : token.kind = .newline) : ∃ c ∈ token.text.toList, Text.isLineEnd c = true := by
  rcases h.step_origin hstep with ⟨hkind, -⟩ | ⟨r, hr, stop, hstop, hkind, htext⟩
  · rw [hkind] at hnewline
    cases hnewline
  · rw [htext, String.toList_ofList]
    exact Matcher.exists_mem_of_mustContain (mainRules_newline hr (hkind ▸ hnewline)) hstop

/-- In a line comment every piece is within the line, and the comment goes on after it. -/
theorem InLine.step_lineEnds (h : InLine lx) (hstep : lx.step = .token token next)
    (hkind : token.kind = .commentText) : Unbroken token.text ∧ InLine next := by
  cases hrest : lx.rest with
  | nil =>
    rw [h.finished hrest] at hstep
    cases hstep
  | cons found rest =>
    cases hfound : Text.isLineEnd found with
    | true =>
      -- the comment has ended, and outside comments there is no such token
      rw [h.step_lineEnd hrest hfound] at hstep
      have hpop : lx.pop.rest ≠ [] := by simp [hrest]
      obtain ⟨token', next', hstep', hread⟩ := h.pop.step hpop
      obtain ⟨rfl, -⟩ := Lexer.Outcome.token.inj (hstep'.symm.trans hstep)
      rcases hread with ⟨hpiece, -⟩ | ⟨hopen, -⟩ | ⟨hopen, -⟩
      · rw [hkind] at hpiece
        cases hpiece
      · rw [hkind] at hopen
        cases hopen
      · rw [hkind] at hopen
        cases hopen
    | false =>
      obtain ⟨stop, hm⟩ := h.matchRule? hrest hfound
      have hread := Lexer.step_of_act_read hrest (Lexer.act_of_matchRule? hm found)
      obtain ⟨rfl, rfl⟩ := Lexer.Outcome.token.inj (hread.symm.trans hstep)
      obtain ⟨-, hstop⟩ := Lexer.of_matchRule?_eq_some hm
      exact ⟨Matcher.unbroken_of_staysOnLine rfl hstop, h⟩

/-- So a line comment is within its line. -/
theorem InLine.reads_lineEnds {pieces : List SqlToken} (h : InLine lx)
    (hreads : lx.Reads pieces next) (hpieces : ∀ p ∈ pieces, p.kind = .commentText) :
    ∀ p ∈ pieces, Unbroken p.text := by
  induction hreads with
  | nil =>
    intro p hp
    cases hp
  | cons hstep _ ih =>
    obtain ⟨hfirst, hmid⟩ := h.step_lineEnds hstep (hpieces _ List.mem_cons_self)
    have hmore := ih hmid fun p hp => hpieces p (List.mem_cons_of_mem _ hp)
    exact List.forall_mem_cons.2 ⟨hfirst, hmore⟩

/-! ### Tokens -/

theorem cookOne_spansLines {t : SqlToken} (h : t.kind.spansLines = true) :
    (cookOne t).kind = t.kind := by
  rcases cookOne_kind t with hword | ⟨hkind, -⟩
  · unfold cookOne at hword ⊢
    split
    · rename_i hraw
      rw [hraw] at h
      cases h
    · rfl
    · rfl
    · rfl
  · exact hkind

/-- A token comes from one raw token outside comments, or is a comment. A line comment is within its
line. -/
theorem cooked_origin (h : Outside lx) {t : SqlToken} {after : List SqlToken}
    (htokens : cook lx.run.1 = t :: after) :
    (∃ token next, lx.step = .token token next ∧ t = cookOne token) ∨
      t.kind = .lineComment ∧ Unbroken t.text ∨ t.kind = .blockComment ∨ t.kind = .docComment := by
  have hrest : lx.rest ≠ [] := by
    intro hnil
    rw [Lexer.run_of_finished (h.finished hnil), cook] at htokens
    cases htokens
  obtain ⟨first, mid, hstep, hplain | hline | hblock⟩ := h.step hrest
  · obtain ⟨hpiece, hcomment, hmid⟩ := hplain
    rw [(cookedStep_plain hstep hpiece hcomment hmid).tokens] at htokens
    exact Or.inl ⟨first, mid, hstep, (List.cons.inj htokens).1.symm⟩
  · obtain ⟨hkind, hmid⟩ := hline
    obtain ⟨pieces, last, hreads, hpieces, hout, hrun, -⟩ := hmid.run
    rw [(cookedStep_joinLine hstep hkind hreads hpieces hout hrun).tokens] at htokens
    obtain ⟨rfl, -⟩ := List.cons.inj htokens
    have hfirst : Unbroken first.text :=
      (h.step_lineEnds hstep).resolve_left (by rw [hkind]; exact Bool.false_ne_true)
    exact Or.inr (Or.inl ⟨rfl, unbroken_tokensText
      (List.forall_mem_cons.2 ⟨hfirst, hmid.reads_lineEnds hreads hpieces⟩)⟩)
  · rw [Lexer.run_of_token hstep, cook_blockOpen hblock.1] at htokens
    cases hclose : throughClose mid.run.1 with
    | none =>
      rw [hclose] at htokens
      cases htokens
    | some split =>
      rw [hclose] at htokens
      obtain ⟨rfl, -⟩ := List.cons.inj htokens
      right; right
      rw [joinBlock_kind]
      split
      · exact Or.inr rfl
      · exact Or.inl rfl

/-- A token may span lines, or is within a line. -/
theorem cooked_lineEnds (h : Outside lx) {t : SqlToken} {after : List SqlToken}
    (htokens : cook lx.run.1 = t :: after) : t.kind.spansLines = true ∨ Unbroken t.text := by
  rcases cooked_origin h htokens with ⟨token, next, hstep, rfl⟩ | ⟨-, hline⟩ | hblock | hdoc
  · rw [cookOne_text]
    exact (h.step_lineEnds hstep).imp (fun hkind => by rwa [cookOne_spansLines hkind]) id
  · exact Or.inr hline
  · exact Or.inl (by rw [hblock]; rfl)
  · exact Or.inl (by rw [hdoc]; rfl)

/-- In a token for a line end there is one. -/
theorem cooked_newline (h : Outside lx) {t : SqlToken} {after : List SqlToken}
    (htokens : cook lx.run.1 = t :: after) (hkind : t.kind = .newline) :
    ∃ c ∈ t.text.toList, Text.isLineEnd c = true := by
  rcases cooked_origin h htokens with ⟨token, next, hstep, rfl⟩ | ⟨hother, -⟩ | hother | hother
  · have hraw : token.kind = .newline := by
      rcases cookOne_kind token with hword | ⟨hsame, -⟩
      · rw [hkind] at hword
        cases hword
      · rw [← hsame, hkind]
    rw [cookOne_text]
    exact h.step_newline hstep hraw
  · rw [hkind] at hother
    cases hother
  · rw [hkind] at hother
    cases hother
  · rw [hkind] at hother
    cases hother

end Sql

/-- A token of a script has a line end in it only if its kind may span lines. -/
theorem lexSql_lineEnds {source : String} {filename : Option String} {t : SqlToken}
    (h : t ∈ (lexSql source filename).tokens) : t.kind.spansLines = true ∨ Unbroken t.text := by
  obtain ⟨before, after, hsplit⟩ := List.append_of_mem h
  obtain ⟨cut, hout, -, htokens, -⟩ := lexSql_cut hsplit
  exact Sql.cooked_lineEnds hout htokens

/-- Past a line end a script goes on on a later line. -/
theorem lexSql_later {source : String} {filename : Option String}
    {before between after : List SqlToken} {t u : SqlToken}
    (h : (lexSql source filename).tokens = before ++ t :: (between ++ u :: after))
    (hline : ∃ v ∈ between, v.kind = .newline) : t.span.stop.line < u.span.start.line := by
  obtain ⟨cut, hout, -, htokens, -⟩ := lexSql_cut h
  obtain ⟨next, hstep, hnext⟩ := Sql.cooked_cons hout htokens
  obtain ⟨last, hlast, hpasses, hafter, -⟩ := Sql.cooked_split hstep.outside hnext
  obtain ⟨_, hthen, -⟩ := Sql.cooked_cons hlast hafter
  have hends : ∃ c ∈ (tokensText between).toList, Text.isLineEnd c = true := by
    obtain ⟨v, hv, hkind⟩ := hline
    obtain ⟨left, right, rfl⟩ := List.append_of_mem hv
    rw [List.append_assoc] at hnext
    obtain ⟨mid, hmid, -, hrest, -⟩ := Sql.cooked_split hstep.outside hnext
    obtain ⟨c, hc, hend⟩ := Sql.cooked_newline hmid hrest hkind
    refine ⟨c, ?_, hend⟩
    rw [tokensText_append, tokensText_cons, String.toList_append, String.toList_append]
    exact List.mem_append_right _ (List.mem_append_left _ hc)
  calc t.span.stop.line = next.position.line := by rw [hstep.span, Span.between]
    _ < last.position.line := by
      rw [hpasses.position]
      exact next.position.line_lt_advance hends
    _ = u.span.start.line := by rw [hthen.span, Span.between]

end SqlDoc

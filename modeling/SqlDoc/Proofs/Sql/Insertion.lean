/-
# A comment between two tokens

A comment that is put between two tokens of a script is read as a token of its own, and the other
tokens stay as they are, but for their places (`lexSql_insert`). The lexer of the script with the
comment goes along with the one of the script without: a token that ends before the comment is read
in both (`Sql.CookedStep.beside`), the comment is read to its end (`Sql.Outside.step_comment`), and
from there on both have the same text ahead. Only a comment that ends with its line would take in
what is put behind it.

Key theorems: `Sql.CookedStep.beside`, `Sql.beside_run`, `Sql.Outside.step_comment`,
`lexSql_insert`.
-/
import SqlDoc.Proofs.Sql.Gaps
import SqlDoc.Proofs.Sql.LineEnds

namespace SqlDoc
namespace Sql

variable {lx other next mid : Lexer sqlGrammar} {t t' : SqlToken} {c s s' : List Char}

/-! ### The token at a place -/

/-- There is one token at a place. -/
theorem CookedStep.token_eq {next' : Lexer sqlGrammar} (h : CookedStep lx t next)
    (h' : CookedStep lx t' next') : t = t' :=
  (List.cons.inj (h.tokens.symm.trans h'.tokens)).1

theorem CookedStep.rest_of_text {rest : List Char} (h : CookedStep lx t next)
    (hrest : lx.rest = t.text.toList ++ rest) : next.rest = rest :=
  List.append_cancel_left (h.passes.text.symm.trans hrest)

/-- Where the text ahead and what is left of it are the same, so is the text of the token. -/
theorem CookedStep.text_of_rest {rest : List Char} (h : CookedStep lx t next)
    (hrest : lx.rest = t'.text.toList ++ rest) (hnext : next.rest = rest) : t.text = t'.text := by
  have htext := h.passes.text
  rw [hrest, hnext] at htext
  exact String.toList_inj.1 (List.append_cancel_right htext).symm

/-- A text has one place where its first line ends. -/
theorem rest_of_unbroken {a b c d : List Char} (ha : ∀ x ∈ a, Text.isLineEnd x = false)
    (hc : ∀ x ∈ c, Text.isLineEnd x = false) (hb : ∀ x ∈ b.head?, Text.isLineEnd x = true)
    (hd : ∀ x ∈ d.head?, Text.isLineEnd x = true) (h : a ++ b = c ++ d) : b = d := by
  have hrest {a b : List Char} (ha : ∀ x ∈ a, Text.isLineEnd x = false)
      (hb : ∀ x ∈ b.head?, Text.isLineEnd x = true) :
      (a ++ b).dropWhile (fun x => !Text.isLineEnd x) = b := by
    rw [List.dropWhile_append_of_pos fun x hx => by rw [ha x hx]; rfl]
    cases b with
    | nil => rfl
    | cons x b =>
      rw [List.dropWhile_cons_of_neg]
      rw [hb x rfl]
      decide
  rw [← hrest ha hb, h, hrest hc hd]

/-! ### Tokens before the place where two texts part -/

theorem ReadsOutside.inLine {p : Position} {raw : SqlToken} (h : ReadsOutside p raw mid)
    (hkind : raw.kind = .lineOpen) : InLine mid := by
  rcases h with ⟨hpiece, -⟩ | ⟨-, hmid⟩ | ⟨hblock, -⟩
  · rw [hkind] at hpiece
    cases hpiece
  · exact hmid
  · rw [hkind] at hblock
    cases hblock

theorem ReadsOutside.inBlock {p : Position} {raw : SqlToken} (h : ReadsOutside p raw mid)
    (hkind : raw.kind = .blockOpen) : InBlock p mid := by
  rcases h with ⟨hpiece, -⟩ | ⟨hline, -⟩ | ⟨-, -, hmid⟩
  · rw [hkind] at hpiece
    cases hpiece
  · rw [hkind] at hline
    cases hline
  · exact hmid

/-- A comment that ends with its line is read in both texts, if they part behind its line end. -/
theorem InLine.beside {mid' : Lexer sqlGrammar} {raw raw' : SqlToken} (hmid : InLine mid)
    (hmid' : InLine mid') (h : CookedStep lx t next) (hstep : lx.step = .token raw mid)
    (hkind : raw.kind = .lineOpen) (hstep' : other.step = .token raw' mid')
    (hkind' : raw'.kind = .lineOpen) (htext : raw'.text = raw.text)
    (hrest : lx.rest = t.text.toList ++ (c ++ s))
    (hrest' : other.rest = t.text.toList ++ (c ++ s')) (hc : c ≠ []) :
    ∃ t' next', CookedStep other t' next' ∧ t'.content = t.content ∧ next'.rest = c ++ s' := by
  obtain ⟨pieces, last, hreads, hpieces, hout, hrun, hend⟩ := hmid.run
  obtain ⟨pieces', last', hreads', hpieces', hout', hrun', hend'⟩ := hmid'.run
  have hread := cookedStep_joinLine hstep hkind hreads hpieces hout hrun
  have hread' := cookedStep_joinLine hstep' hkind' hreads' hpieces' hout' hrun'
  obtain rfl := h.token_eq hread
  have hlast : last.rest = c ++ s := (Lexer.rest_pop last).symm.trans (hread.rest_of_text hrest)
  have hlast' : last'.rest = c ++ s' := by
    have hmore : mid'.rest = (tokensText pieces).toList ++ (c ++ s') := by
      have hall := Lexer.step_text hstep'
      rw [hrest', show (joinLine raw pieces).text = tokensText (raw :: pieces) from rfl,
        tokensText_cons, String.toList_append, List.append_assoc, htext] at hall
      exact List.append_cancel_left hall
    refine rest_of_unbroken (unbroken_tokensText (hmid'.reads_lineEnds hreads' hpieces'))
      (unbroken_tokensText (hmid.reads_lineEnds hreads hpieces)) hend' ?_
      ((hreads'.passes keepsLineEnds).text.symm.trans hmore)
    rw [hlast] at hend
    obtain ⟨x, c, rfl⟩ := List.exists_cons_of_ne_nil hc
    exact hend
  have hnext' : last'.pop.rest = c ++ s' := (Lexer.rest_pop last').trans hlast'
  exact ⟨_, _, hread', joinPieces_content (hread'.text_of_rest hrest' hnext'), hnext'⟩

/-- A comment that is closed before two texts part is read in both. -/
theorem InBlock.beside {opened opened' : Position} {mid' : Lexer sqlGrammar} {raw raw' : SqlToken}
    (hmid : InBlock opened mid) (hmid' : InBlock opened' mid') (h : CookedStep lx t next)
    (hstep : lx.step = .token raw mid) (hkind : raw.kind = .blockOpen)
    (hstep' : other.step = .token raw' mid') (hkind' : raw'.kind = .blockOpen)
    (htext : raw'.text = raw.text) (hrest : lx.rest = t.text.toList ++ (c ++ s))
    (hrest' : other.rest = t.text.toList ++ (c ++ s')) :
    ∃ t' next', CookedStep other t' next' ∧ t'.content = t.content ∧ next'.rest = c ++ s' := by
  rcases hmid.run with ⟨pieces, close, last, hreads, hpieces, hclose, hlast, hpair⟩ | hopen
  · have hread := cookedStep_joinBlock hstep hkind hreads hpieces hclose hlast
    obtain rfl := h.token_eq hread
    have hmore := (hreads.passes keepsLineEnds).text
    rw [hread.rest_of_text hrest] at hmore hpair
    rw [hmore, ← List.append_assoc] at hpair
    -- the first end of the comment stands where it did
    have hpair' : Text.afterPair '*' '/' mid'.rest = some (c ++ s') := by
      have hall := Lexer.step_text hstep'
      rw [hrest', joinBlock_text, tokensText_cons, String.toList_append, List.append_assoc,
        htext] at hall
      rw [List.append_cancel_left hall, ← List.append_assoc]
      exact Text.afterPair_append hpair
    rcases hmid'.run with
      ⟨pieces', close', last', hreads', hpieces', hclose', hout', hfound⟩ | hopen
    · have hread' := cookedStep_joinBlock hstep' hkind' hreads' hpieces' hclose' hout'
      have hnext' : last'.rest = c ++ s' := Option.some.inj (hfound.symm.trans hpair')
      have hsame := hread'.text_of_rest hrest' hnext'
      rw [joinBlock_text, joinBlock_text] at hsame
      exact ⟨_, _, hread', joinBlock_content hsame, hnext'⟩
    · rw [hopen.2.2] at hpair'
      cases hpair'
  · have htokens := h.tokens
    rw [Lexer.run_of_token hstep, cook_unclosed hkind hopen.2.1] at htokens
    cases htokens

/-- A token that ends before a comment is put into the text is read with the comment there, too,
unless it would take the comment in. -/
theorem CookedStep.beside (h : CookedStep lx t next) (hlx : Outside lx) (hother : Outside other)
    (hparted : Parted '/' s s') (hrest : lx.rest = t.text.toList ++ (c ++ s))
    (hrest' : other.rest = t.text.toList ++ (c ++ s')) (hline : t.kind = .lineComment → c ≠ []) :
    ∃ t' next', CookedStep other t' next' ∧ t'.content = t.content ∧ next'.rest = c ++ s' := by
  have hne : lx.rest ≠ [] := by
    rw [hrest]
    exact fun hnil => h.text_ne_nil (List.append_eq_nil_iff.1 hnil).1
  have halike : BeginAlike (t.text.toList ++ c) s s' lx other :=
    ⟨hlx, hother, by rw [hrest, List.append_assoc], by rw [hrest', List.append_assoc]⟩
  have hmark : '/' = ' ' → False := by decide
  obtain ⟨raw, mid, hstep, hread⟩ := hlx.step hne
  -- what the step reads is in the token, so the other lexer reads it
  have hbegin (hle : raw.text.toList.length ≤ t.text.toList.length) :
      ∃ raw' mid', other.step = .token raw' mid' ∧ raw'.content = raw.content :=
    halike.step hparted hstep
      (by rw [List.length_append]; exact Nat.le_trans hle (Nat.le_add_right ..))
      fun h => (hmark h).elim
  rcases hread with ⟨hpiece, hcomment, hmid⟩ | ⟨hkind, hmid⟩ | ⟨hkind, -, hmid⟩
  · obtain rfl := h.token_eq (cookedStep_plain hstep hpiece hcomment hmid)
    obtain ⟨raw', mid', hstep', hcontent⟩ := hbegin (by rw [cookOne_text])
    rw [← kind_of_content hcontent] at hpiece hcomment
    have hread' := cookedStep_plain hstep' hpiece hcomment ((hother.of_step hstep').outside hpiece)
    have htext : (cookOne raw').text = (cookOne raw).text := by
      rw [cookOne_text, cookOne_text]
      exact congrArg (·.2.1) hcontent
    rw [← htext] at hrest'
    exact ⟨_, _, hread', cookOne_content hcontent, hread'.rest_of_text hrest'⟩
  · have htokens := h.tokens
    rw [Lexer.run_of_token hstep, cook_lineOpen hkind] at htokens
    have ht := (List.cons.inj htokens).1
    obtain ⟨raw', mid', hstep', hcontent⟩ := hbegin (by
      rw [← ht, joinLine, joinPieces, tokensText_cons, String.toList_append, List.length_append]
      exact Nat.le_add_right ..)
    have hkind' := (kind_of_content hcontent).trans hkind
    have hmid' := (hother.of_step hstep').inLine hkind'
    exact hmid.beside hmid' h hstep hkind hstep' hkind' (congrArg (·.2.1) hcontent) hrest hrest'
      (hline (by rw [← ht]; rfl))
  · obtain ⟨pieces, ht⟩ : ∃ pieces, t = joinBlock raw pieces := by
      have htokens := h.tokens
      rw [Lexer.run_of_token hstep, cook_blockOpen hkind] at htokens
      cases hclose : throughClose mid.run.1 with
      | none =>
        rw [hclose] at htokens
        cases htokens
      | some split =>
        rw [hclose] at htokens
        exact ⟨split.1, (List.cons.inj htokens).1.symm⟩
    obtain ⟨raw', mid', hstep', hcontent⟩ := hbegin (by
      rw [ht, joinBlock_text, tokensText_cons, String.toList_append, List.length_append]
      exact Nat.le_add_right ..)
    have hkind' := (kind_of_content hcontent).trans hkind
    have hmid' := (hother.of_step hstep').inBlock hkind'
    exact hmid.beside hmid' h hstep hkind hstep' hkind' (congrArg (·.2.1) hcontent) hrest hrest'

/-- All tokens up to a place are read with a comment put there, unless the last of them would take
it in. -/
theorem beside_run {left after : List SqlToken} (hlx : Outside lx) (hother : Outside other)
    (htokens : cook lx.run.1 = left ++ after) (hparted : Parted '/' s s')
    (hrest : lx.rest = (tokensText left).toList ++ s)
    (hrest' : other.rest = (tokensText left).toList ++ s')
    (hline : ∀ t ∈ left.getLast?, t.kind ≠ .lineComment) :
    ∃ left' cut cut', cook other.run.1 = left' ++ cook cut'.run.1 ∧
      left'.map Token.content = left.map Token.content ∧ other.run.2 = cut'.run.2 ∧
      Outside cut' ∧ cut'.rest = s' ∧ cook cut.run.1 = after ∧ lx.run.2 = cut.run.2 ∧
      Outside cut ∧ cut.rest = s := by
  induction left generalizing lx other with
  | nil => exact ⟨[], lx, other, rfl, rfl, rfl, hother, hrest', htokens, rfl, hlx, hrest⟩
  | cons t left ih =>
    rw [tokensText_cons, String.toList_append, List.append_assoc] at hrest hrest'
    obtain ⟨next, hstep, hafter⟩ := cooked_cons hlx htokens
    have hc : t.kind = .lineComment → (tokensText left).toList ≠ [] := by
      intro hkind
      cases left with
      | nil => exact absurd hkind (hline t rfl)
      | cons u left =>
        obtain ⟨_, hu, -⟩ := cooked_cons hstep.outside hafter
        rw [tokensText_cons, String.toList_append]
        exact fun hnil => hu.text_ne_nil (List.append_eq_nil_iff.1 hnil).1
    obtain ⟨t', next', hstep', hcontent, hnext'⟩ :=
      hstep.beside hlx hother hparted hrest hrest' hc
    have hlast : ∀ u ∈ left.getLast?, u.kind ≠ .lineComment := by
      intro u hu
      cases left with
      | nil => cases hu
      | cons v left => exact hline u (by rw [List.getLast?_cons_cons]; exact hu)
    obtain ⟨left', cut, cut', hleft', hsame, herror', hcut', hcutrest', hright, herror, hcut⟩ :=
      ih hstep.outside hstep'.outside hafter (hstep.rest_of_text hrest) hnext' hlast
    refine ⟨t' :: left', cut, cut', ?_, ?_, hstep'.error.trans herror', hcut', hcutrest', hright,
      hstep.error.trans herror, hcut⟩
    · rw [hstep'.tokens, hleft', List.cons_append]
    · rw [List.map_cons, List.map_cons, hcontent, hsame]

/-! ### The comment -/

/-- Outside comments `/*` opens one. -/
theorem Outside.step_open (h : Outside lx) (hrest : lx.rest = '/' :: '*' :: s) :
    ∃ raw mid, lx.step = .token raw mid ∧ raw.kind = .blockOpen ∧ raw.text.toList = ['/', '*'] ∧
      InBlock lx.position mid ∧ mid.rest = s := by
  have hrules : lx.state.rules =
      mainState.rules.take 3 ++ spelling .blockOpen "/*" (.push 2) :: mainState.rules.drop 4 := by
    rw [h.state_eq]
    rfl
  have hother : (mainState.rules.take 3).all (fun r => !r.matcher.mayBeginWith '/') = true := rfl
  obtain ⟨stop, hstop⟩ := Matcher.tokenEnd?_of_prefix (List.cons_ne_nil '/' ['*'])
    (⟨s, hrest.symm⟩ : ['/', '*'] <+: lx.rest)
  have hm : lx.matchRule? = some (spelling .blockOpen "/*" (.push 2), stop) := by
    refine List.findSome?_eq_some_iff.2 ⟨_, _, _, hrules,
      Option.map_eq_some_iff.2 ⟨stop, hstop, rfl⟩, fun r hr => Option.map_eq_none_iff.2 ?_⟩
    rw [hrest]
    cases hr' : r.matcher.tokenEnd? ('/' :: '*' :: s) with
    | none => rfl
    | some stop =>
      have hbegin := List.all_eq_true.1 hother r hr
      rw [Matcher.mayBeginWith_of_tokenEnd? hr'] at hbegin
      cases hbegin
  have hstep := Lexer.step_of_act_read hrest (Lexer.act_of_matchRule? hm '/')
  rcases h.of_step hstep with ⟨hpiece, -⟩ | ⟨hline, -⟩ | ⟨hkind, htext, hmid⟩
  · cases hpiece
  · cases hline
  · have hmore := (Lexer.step_text hstep).trans hrest
    rw [htext] at hmore
    exact ⟨_, _, hstep, hkind, htext, hmid, List.append_cancel_left hmore⟩

/-- A comment is read to its end. -/
theorem Outside.step_comment {body : List Char} (h : Outside lx)
    (hrest : lx.rest = '/' :: '*' :: (body ++ s))
    (hbody : Text.afterPair '*' '/' body = some []) :
    ∃ t next, CookedStep lx t next ∧ t.text.toList = '/' :: '*' :: body ∧ next.rest = s ∧
      t.kind = if isDocText ('/' :: '*' :: body) then .docComment else .blockComment := by
  obtain ⟨raw, mid, hstep, hkind, htext, hmid, hmore⟩ := h.step_open hrest
  have hpair : Text.afterPair '*' '/' mid.rest = some s := by
    have hbody : Text.afterPair '*' '/' (body ++ []) = some ([] ++ []) := by
      rw [List.append_nil, hbody, List.append_nil]
    rw [hmore]
    exact Text.afterPair_append hbody
  rcases hmid.run with ⟨pieces, close, next, hreads, hpieces, hclose, hnext, hfound⟩ | hopen
  · have hread := cookedStep_joinBlock hstep hkind hreads hpieces hclose hnext
    have hs : next.rest = s := Option.some.inj (hfound.symm.trans hpair)
    have hall := hread.passes.text
    rw [hrest, hs, ← List.cons_append, ← List.cons_append] at hall
    have htext := (List.append_cancel_right hall).symm
    refine ⟨_, next, hread, htext, hs, ?_⟩
    rw [joinBlock_kind, ← joinBlock_text, htext]
  · rw [hopen.2.2] at hpair
    cases hpair

/-- Lexers outside comments with the same text ahead read the same. -/
theorem Outside.alike (h : Outside lx) (h' : Outside other) (hrest : lx.rest = other.rest) :
    lx.Alike other := by
  have hstates {lx : Lexer sqlGrammar} (h : Outside lx) : lx.states = [sqlGrammar.start] := by
    rw [Lexer.states, h.2, List.map_singleton, h.top_eq]
    rfl
  exact ⟨hrest, (hstates h).trans (hstates h').symm⟩

/-- A word that does not hold a character is on one side of it. -/
theorem infix_left_or_right {mark : Char} {word a b : List Char} (hword : mark ∉ word)
    (h : word <:+: a ++ mark :: b) : word <:+: a ∨ word <:+: b := by
  induction a with
  | nil =>
    rcases List.infix_cons_iff.1 h with hbegin | hrest
    · cases word with
      | nil => exact .inl List.nil_infix
      | cons d word =>
        obtain ⟨rfl, -⟩ := List.cons_prefix_cons.1 hbegin
        exact absurd List.mem_cons_self hword
    · exact .inr hrest
  | cons c a ih =>
    rcases List.infix_cons_iff.1 h with hbegin | hrest
    · have hmark : ∀ d ∈ (mark :: b).head?, d = mark := fun d hd => (Option.some.inj hd).symm
      have htail : mark ∉ word.tail := fun hmem => hword (List.mem_of_mem_tail hmem)
      exact .inl (Matcher.prefix_of_prefix_append (List.cons_ne_nil c a) htail hmark hbegin).isInfix
    · exact (ih hrest).imp (·.trans (List.suffix_cons c a).isInfix) id

/-- A comment without quotes has no words with a quote. -/
theorem parted_comment {body : List Char} (hbody : Text.afterPair '*' '/' body = some [])
    (hquotes : '"' ∉ body ∧ '\'' ∉ body) (s : List Char) :
    Parted '/' s ('/' :: '*' :: (body ++ s)) where
  mark_cases := .inr rfl
  head := by
    intro c hc
    exact (Option.some.inj hc).symm
  words := by
    intro word hslash hquote hword
    obtain ⟨inner, rfl⟩ := Text.cons_suffix_of_afterPair hbody
    rw [List.append_assoc, List.cons_append, List.nil_append, ← List.cons_append,
      ← List.cons_append] at hword
    have hinner : ¬ word <:+: '/' :: '*' :: inner := by
      intro hin
      rcases hquote with hmem | hmem
      · have hmem := hin.subset hmem
        simp at hmem hquotes
        exact hquotes.1 hmem
      · have hmem := hin.subset hmem
        simp at hmem hquotes
        exact hquotes.2 hmem
    exact (infix_left_or_right hslash hword).resolve_left hinner

end Sql

/-- A comment without quotes that is put between two tokens is a token of its own, and the others
stay as they are, but for their places, unless the one before it ends with its line. -/
theorem lexSql_insert {before after : String} {filename : Option String} {body : List Char}
    {left right : List SqlToken}
    (htokens : (lexSql (before ++ after) filename).tokens = left ++ right)
    (hleft : tokensText left = before) (hline : ∀ t ∈ left.getLast?, t.kind ≠ .lineComment)
    (hbody : Text.afterPair '*' '/' body = some []) (hquotes : '"' ∉ body ∧ '\'' ∉ body) :
    let comment := String.ofList ('/' :: '*' :: body)
    let commented := lexSql (before ++ comment ++ after) filename
    ∃ left' doc right', commented.tokens = left' ++ doc :: right' ∧
      left'.map Token.content = left.map Token.content ∧ doc.text = comment ∧
      doc.kind = (if isDocText comment.toList then .docComment else .blockComment) ∧
      right'.map Token.content = right.map Token.content ∧
      commented.error.map LexError.cause =
        (lexSql (before ++ after) filename).error.map LexError.cause := by
  intro comment commented
  have hcomment : comment.toList = '/' :: '*' :: body := String.toList_ofList
  have hrest : (scriptLexer (before ++ after) filename).rest =
      (tokensText left).toList ++ after.toList := by
    rw [hleft, ← String.toList_append]
    rfl
  have hrest' : (scriptLexer (before ++ comment ++ after) filename).rest =
      (tokensText left).toList ++ ('/' :: '*' :: (body ++ after.toList)) := by
    rw [hleft, ← List.cons_append, ← List.cons_append, ← hcomment, ← List.append_assoc,
      ← String.toList_append, ← String.toList_append]
    rfl
  obtain ⟨left', cut, cut', hall, hsame, herror, hcut', hcutrest', hright, herror', hcut,
    hcutrest⟩ :=
    Sql.beside_run (Sql.outside_start _ _) (Sql.outside_start _ _) htokens
      (Sql.parted_comment hbody hquotes _) hrest hrest' hline
  obtain ⟨doc, next, hdoc, htext, hnext, hkind⟩ := hcut'.step_comment hcutrest' hbody
  have halike := hdoc.outside.alike hcut (hnext.trans hcutrest.symm)
  refine ⟨left', doc, cook next.run.1, ?_, hsame, ?_, ?_, ?_, ?_⟩
  · rw [← hdoc.tokens]
    exact hall
  · rw [← String.toList_inj, htext, hcomment]
  · rw [hkind, hcomment]
  · rw [← hright]
    exact Sql.cook_content halike.run.1
  · have hlast : commented.error = next.run.2 := herror.trans hdoc.error
    have hlast' : (lexSql (before ++ after) filename).error = cut.run.2 := herror'
    rw [hlast, hlast']
    exact halike.run.2

end SqlDoc

/-
# Texts in which trivia are gaps

Of two texts that begin alike the second ends where they part, or goes on with a mark, which is a
blank or begins a comment. A token that ends before that place is read in both
(`Sql.BeginAlike.step`): no token outside quotes reads the mark behind another character, and a text
in quotes ends at the same place.

A text without its trivia, one blank in the place of each run of them, and cut at some place
(`Sql.Gapped`), begins as the whole text does. The two part where a gap is or the short text ends
(`Sql.Gapped.parts`), and a word without blanks is in the short text only if it is in the whole one.
In a gap the blank is read, and nothing more, if what follows does not begin with a blank
(`Sql.Outside.step_gap`).

Key definitions: `Sql.BeginAlike`, `Sql.Gapped`.
Key theorems: `Sql.mainRules_agree`, `Sql.BeginAlike.step`, `Sql.Gapped.parts`,
`Sql.Outside.step_gap`.
-/
import SqlDoc.Proofs.Lexer.Cutting
import SqlDoc.Proofs.Sql.Content
import SqlDoc.Proofs.Sql.Quotes

namespace SqlDoc

variable {mark : Char} {c s s' : List Char}

namespace Matcher

/-- A run of blanks is read where the text begins with one. -/
theorem isSome_blanks (d : Char) (rest : List Char) :
    ((Matcher.pattern .blanks).tokenEnd? (d :: rest)).isSome = Pattern.innerBlank.mem d := by
  cases hd : Pattern.innerBlank.mem d with
  | true =>
    have hrest : (Cursor.start (d :: rest)).rest = d :: rest := rfl
    obtain ⟨stop, hstop⟩ := Pattern.matchAt?_many_isSome hrest hd
    have hblanks : (Matcher.pattern .blanks).tokenEnd? (d :: rest) = some stop :=
      tokenEnd?_of_matchAt? rfl hstop
    rw [hblanks]
    rfl
  | false =>
    cases hstop : (Matcher.pattern .blanks).tokenEnd? (d :: rest) with
    | none => rfl
    | some stop =>
      have hbegin : Pattern.innerBlank.mem d = true := mayBeginWith_of_tokenEnd? hstop
      rw [hd] at hbegin
      cases hbegin

/-- A blank is no line end. -/
theorem lineEnd_of_blank {d : Char} (rest : List Char) (hd : Pattern.innerBlank.mem d = true) :
    (Matcher.pattern .lineEnd).tokenEnd? (d :: rest) = none := by
  cases hstop : (Matcher.pattern .lineEnd).tokenEnd? (d :: rest) with
  | none => rfl
  | some stop =>
    have htext := rest_of_tokenEnd? (d :: rest) stop
    rcases Pattern.eq_of_describes_lineEnd (describes_of_pattern hstop) with h | h | h
    all_goals
      rw [h] at htext
      rw [← (List.cons.inj htext).1] at hd
      exact absurd hd (by decide)

end Matcher

namespace Sql

open Pattern (Cuts)

/-! ### Rules -/

/-- The matcher reads a text in quotes. -/
def readsQuotes (m : Matcher) : Bool :=
  m.isPattern (quoted '"') || m.isPattern alternativeQuoted || m.isPattern plainString

theorem agrees_of_readsQuotes {m : Matcher} (hm : readsQuotes m = true) (h : Parted mark s s') :
    m.Agrees c s s' := by
  simp only [readsQuotes, Bool.or_eq_true] at hm
  rcases hm with (hm | hm) | hm
  · rw [Matcher.eq_of_isPattern hm]
    exact Matcher.agrees_of_cuts (cuts_quoted (.inl rfl) h)
  · rw [Matcher.eq_of_isPattern hm]
    exact Matcher.agrees_of_cuts (cuts_alternativeQuoted h)
  · rw [Matcher.eq_of_isPattern hm]
    exact Matcher.agrees_of_cuts (cuts_plainString h)

/-- The matcher reads no mark, or only a mark at the beginning of a spelling. -/
def stopsAt (mark : Char) : Matcher → Bool
  | .literal chars => !chars.tail.contains mark
  | m => m.avoids mark

theorem agrees_of_stopsAt {m : Matcher} (hm : stopsAt mark m = true) (hc : c ≠ [])
    (h : Parted mark s s') : m.Agrees c s s' := by
  cases m with
  | literal chars => exact Matcher.agrees_literal hc (by simpa [stopsAt] using hm) h.head
  | pattern p =>
    have hp : p.mayContain mark = false := by simpa [stopsAt, Matcher.avoids] using hm
    exact Matcher.agrees_of_cuts (Cuts.stop.run hp h.head)
  | regex => cases hm

/-- A rule for texts that end before a mark or for texts in quotes. -/
def agreesAt (mark : Char) (m : Matcher) : Bool :=
  stopsAt mark m || readsQuotes m

theorem agrees_of_agreesAt {m : Matcher} (hm : agreesAt mark m = true) (hc : c ≠ [])
    (h : Parted mark s s') : m.Agrees c s s' := by
  rcases Bool.or_eq_true_iff.1 hm with hm | hm
  · exact agrees_of_stopsAt hm hc h
  · exact agrees_of_readsQuotes hm h

/-- Outside comments all rules but the one for blanks read no blanks, or texts in quotes, and all
rules stop at a comment. -/
theorem mainRules_agree {r : Rule SqlKind Matcher (Fin 3)} (hr : r ∈ mainState.rules)
    (h : Parted mark s s') :
    agreesAt mark r.matcher = true ∨ mark = ' ' ∧ r = rule .whitespace .blanks := by
  have hblanks : mainState.rules.filter (fun r => !agreesAt ' ' r.matcher) =
      [rule .whitespace .blanks] := rfl
  have hslash : mainState.rules.all (fun r => agreesAt '/' r.matcher) = true := rfl
  rcases h.mark_cases with rfl | rfl
  · by_cases hm : agreesAt ' ' r.matcher = true
    · exact Or.inl hm
    · have hmem : r ∈ mainState.rules.filter (fun r => !agreesAt ' ' r.matcher) :=
        List.mem_filter.2 ⟨hr, by simpa using hm⟩
      rw [hblanks] at hmem
      exact Or.inr ⟨rfl, List.mem_singleton.1 hmem⟩
  · exact Or.inl (List.all_eq_true.1 hslash r hr)

theorem misses_of_mem_mainRules {r : Rule SqlKind Matcher (Fin 3)} (hr : r ∈ mainState.rules)
    (hc : c ≠ []) (h : Parted mark s s') (hnone : r.matcher.tokenEnd? (c ++ s) = none) :
    r.matcher.tokenEnd? (c ++ s') = none := by
  rcases mainRules_agree hr h with hm | ⟨-, rfl⟩
  · exact (agrees_of_agreesAt hm hc h).misses hnone
  · obtain ⟨d, c, rfl⟩ := List.exists_cons_of_ne_nil hc
    have hsome : ((Matcher.pattern .blanks).tokenEnd? (d :: c ++ s)).isSome =
        ((Matcher.pattern .blanks).tokenEnd? (d :: c ++ s')).isSome :=
      (Matcher.isSome_blanks d (c ++ s)).trans (Matcher.isSome_blanks d (c ++ s')).symm
    have hnone : (Matcher.pattern .blanks).tokenEnd? (d :: c ++ s) = none := hnone
    rw [hnone] at hsome
    exact Option.isNone_iff_eq_none.1 (Option.isSome_eq_false_iff.1 hsome.symm)

/-! ### Steps -/

/-- The lexers are outside comments and have the same text ahead up to where two texts part. -/
structure BeginAlike (c s s' : List Char) (lx other : Lexer sqlGrammar) : Prop where
  left : Outside lx
  right : Outside other
  rest : lx.rest = c ++ s
  rest' : other.rest = c ++ s'

namespace BeginAlike

variable {lx other : Lexer sqlGrammar}

/-- Where no rule reads a token in the first text, none does in the second. -/
theorem matchRule?_eq_none (h : BeginAlike c s s' lx other) (hc : c ≠ [])
    (hparted : Parted mark s s') (hm : lx.matchRule? = none) : other.matchRule? = none := by
  have hnone := Lexer.of_matchRule?_eq_none hm
  rw [h.left.state_eq, h.rest] at hnone
  refine List.findSome?_eq_none_iff.2 fun r hr => Option.map_eq_none_iff.2 ?_
  rw [h.right.state_eq] at hr
  rw [h.rest']
  exact misses_of_mem_mainRules hr hc hparted (hnone r hr)

/-- The same rule reads the same text in both. -/
theorem matchRule? (h : BeginAlike c s s' lx other) (hparted : Parted mark s s')
    {r : Rule SqlKind Matcher (Fin 3)} {stop : Cursor lx.rest}
    (hm : lx.matchRule? = some (r, stop)) (hr : mark = ' ' → r ≠ rule .whitespace .blanks)
    (hle : stop.seen ≤ c.length) :
    ∃ stop', other.matchRule? = some (r, stop') ∧ stop'.seen = stop.seen := by
  have hmem : r ∈ mainState.rules := h.left.state_eq ▸ (Lexer.of_matchRule?_eq_some hm).1
  have hc : c ≠ [] := by
    have := Matcher.seen_pos_of_tokenEnd? (Lexer.of_matchRule?_eq_some hm).2
    rw [← List.length_pos_iff]
    omega
  obtain ⟨hlx, hother, hrest, hrest'⟩ := h
  have hstate : other.state = lx.state := hother.state_eq.trans hlx.state_eq.symm
  have hmain := hlx.state_eq
  obtain ⟨rest, p, top, below⟩ := lx
  obtain ⟨rest', p', top', below'⟩ := other
  obtain rfl : rest = c ++ s := hrest
  obtain rfl : rest' = c ++ s' := hrest'
  obtain ⟨before, r', after, hrules, hfound, hbefore⟩ := List.findSome?_eq_some_iff.1 hm
  obtain ⟨stop, hstop, hpair⟩ := Option.map_eq_some_iff.1 hfound
  cases hpair
  have hagree : r.matcher.Agrees c s s' :=
    agrees_of_agreesAt ((mainRules_agree hmem hparted).resolve_right fun h => hr h.1 h.2) hc hparted
  obtain ⟨stop', hstop', hseen⟩ := hagree.finds stop hstop hle
  refine ⟨stop', ?_, hseen⟩
  refine List.findSome?_eq_some_iff.2 ⟨before, r, after, ?_, ?_, fun q hq => ?_⟩
  · rw [hstate, hrules]
  · exact Option.map_eq_some_iff.2 ⟨stop', hstop', rfl⟩
  · have hnone := Option.map_eq_none_iff.1 (hbefore q hq)
    have hq : q ∈ mainState.rules := by
      rw [← hmain, hrules]
      exact List.mem_append_left _ hq
    exact Option.map_eq_none_iff.2 (misses_of_mem_mainRules hq hc hparted hnone)

theorem token (h : BeginAlike c s s' lx other) (kind : SqlKind) {n : Nat} (hn : n ≤ c.length)
    (value : String → String) :
    (other.token kind n value).content = (lx.token kind n value).content := by
  simp only [Token.content, Lexer.token, h.rest, h.rest', List.take_append_of_le_length hn]

/-- Both read the same token, if it ends before the texts part and is no run of blanks in front of a
blank. -/
theorem step (h : BeginAlike c s s' lx other) (hparted : Parted mark s s')
    {token : SqlToken} {next : Lexer sqlGrammar} (hstep : lx.step = .token token next)
    (hle : token.text.toList.length ≤ c.length) (hkind : mark = ' ' → token.kind ≠ .whitespace) :
    ∃ token' next', other.step = .token token' next' ∧ token'.content = token.content := by
  have hpos := List.length_pos_iff.2 (Lexer.text_ne_nil_of_step hstep)
  have hc : c ≠ [] := by
    rw [← List.length_pos_iff]
    omega
  obtain ⟨found, c', hc'⟩ := List.exists_cons_of_ne_nil hc
  have hrest : lx.rest = found :: (c' ++ s) := by rw [h.rest, hc', List.cons_append]
  have hrest' : other.rest = found :: (c' ++ s') := by rw [h.rest', hc', List.cons_append]
  have hunknown (lx : Lexer sqlGrammar) (h : Outside lx) :
      lx.state.fallback = .token .unknown := by
    rw [h.state_eq]
    rfl
  cases hm : lx.matchRule? with
  | none =>
    have hm' := h.matchRule?_eq_none hc hparted hm
    have hread := Lexer.act_of_fallback_token hm (hunknown lx h.left) found
    have hread' := Lexer.act_of_fallback_token hm' (hunknown other h.right) found
    refine ⟨_, _, Lexer.step_of_act_read hrest' hread', ?_⟩
    have htoken := (Lexer.step_of_act_read hrest hread).symm.trans hstep
    rw [← (Lexer.Outcome.token.inj htoken).1]
    exact h.token .unknown (List.length_pos_iff.2 hc) id
  | some pair =>
    obtain ⟨r, stop⟩ := pair
    have hread := Lexer.act_of_matchRule? hm found
    have htoken := (Lexer.step_of_act_read hrest hread).symm.trans hstep
    obtain ⟨rfl, -⟩ := Lexer.Outcome.token.inj htoken
    have hle : stop.seen ≤ c.length := by
      have hseen := stop.seen_le
      have hlength : (lx.token r.kind stop.seen r.value).text.toList.length = stop.seen := by
        simp [Lexer.token, hseen]
      rw [← hlength]
      exact hle
    have hr : mark = ' ' → r ≠ rule .whitespace .blanks := by
      rintro hmark rfl
      exact hkind hmark rfl
    obtain ⟨stop', hm', hseen⟩ := h.matchRule? hparted hm hr hle
    have hread' := Lexer.act_of_matchRule? hm' found
    refine ⟨_, _, Lexer.step_of_act_read hrest' hread', ?_⟩
    rw [hseen]
    exact h.token r.kind hle r.value

end BeginAlike

/-- What a step outside comments reads. -/
theorem Outside.of_step {lx next : Lexer sqlGrammar} {token : SqlToken} (h : Outside lx)
    (hstep : lx.step = .token token next) : ReadsOutside lx.position token next := by
  have hrest : lx.rest ≠ [] := by
    intro hnil
    rw [h.finished hnil] at hstep
    cases hstep
  obtain ⟨token', next', hstep', hread⟩ := h.step hrest
  obtain ⟨rfl, rfl⟩ := Lexer.Outcome.token.inj (hstep'.symm.trans hstep)
  exact hread

/-- After a token that is no piece of a comment the lexer is outside comments again. -/
theorem ReadsOutside.outside {p : Position} {token : SqlToken} {next : Lexer sqlGrammar}
    (h : ReadsOutside p token next) (hpiece : isPiece token.kind = false) : Outside next := by
  rcases h with hplain | hline | hblock
  · exact hplain.2.2
  · rw [hline.1] at hpiece
    cases hpiece
  · rw [hblock.1] at hpiece
    cases hpiece

/-- Where a blank is next, a run of blanks is read. -/
theorem Outside.matchRule?_blank {lx : Lexer sqlGrammar} (h : Outside lx) {d : Char}
    {rest : List Char} (hrest : lx.rest = d :: rest) (hd : Pattern.innerBlank.mem d = true) :
    ∃ stop, lx.matchRule? = some (rule .whitespace .blanks, stop) ∧
      stop.rest = lx.rest.dropWhile Pattern.innerBlank.mem := by
  have hrules : lx.state.rules =
      rule .newline .lineEnd :: rule .whitespace .blanks :: mainState.rules.drop 2 := by
    rw [h.state_eq]
    rfl
  have hline : (Matcher.pattern .lineEnd).tokenEnd? lx.rest = none := by
    rw [hrest]
    exact Matcher.lineEnd_of_blank rest hd
  have hsome := Matcher.isSome_blanks d rest
  rw [← hrest, hd] at hsome
  obtain ⟨stop, hstop⟩ := Option.isSome_iff_exists.1 hsome
  refine ⟨stop, ?_, Pattern.rest_of_matchAt?_many (Matcher.matchAt?_of_pattern hstop)⟩
  refine List.findSome?_eq_some_iff.2 ⟨[rule .newline .lineEnd], _, _, hrules, ?_, fun r hr => ?_⟩
  · exact Option.map_eq_some_iff.2 ⟨stop, hstop, rfl⟩
  · rw [List.mem_singleton.1 hr]
    exact Option.map_eq_none_iff.2 hline

/-- In a gap one blank is read. -/
theorem Outside.step_gap {lx : Lexer sqlGrammar} (h : Outside lx) {d : Char} {rest : List Char}
    (hrest : lx.rest = ' ' :: d :: rest) (hd : Pattern.innerBlank.mem d = false) :
    ∃ token next, lx.step = .token token next ∧ token.kind = .whitespace ∧ Outside next ∧
      next.rest = d :: rest := by
  have hblank : Pattern.innerBlank.mem ' ' = true := by decide
  obtain ⟨stop, hm, hstop⟩ := h.matchRule?_blank hrest hblank
  refine ⟨_, _, Lexer.step_of_act_read hrest (Lexer.act_of_matchRule? hm ' '), rfl, h, ?_⟩
  show stop.rest = _
  rw [hstop, hrest, List.dropWhile_cons_of_pos hblank, List.dropWhile_cons_of_neg]
  rw [hd]
  exact Bool.false_ne_true

/-- No token but a run of blanks begins with a blank. -/
theorem Outside.head_of_step {lx next : Lexer sqlGrammar} {token : SqlToken} (h : Outside lx)
    (hstep : lx.step = .token token next) (hkind : token.kind ≠ .whitespace) :
    ∃ d rest, token.text.toList = d :: rest ∧ Pattern.innerBlank.mem d = false := by
  obtain ⟨d, rest, htext⟩ := List.exists_cons_of_ne_nil (Lexer.text_ne_nil_of_step hstep)
  refine ⟨d, rest, htext, ?_⟩
  have hrest := Lexer.step_text hstep
  rw [htext, List.cons_append] at hrest
  cases hd : Pattern.innerBlank.mem d with
  | false => rfl
  | true =>
    obtain ⟨stop, hm, -⟩ := h.matchRule?_blank hrest.symm hd
    have hread := Lexer.step_of_act_read hrest.symm (Lexer.act_of_matchRule? hm d)
    rw [← (Lexer.Outcome.token.inj (hread.symm.trans hstep)).1] at hkind
    exact absurd rfl hkind

/-! ### Gaps -/

/-- The second text is the first with blanks in the place of some of its pieces, and is cut at some
place. -/
inductive Gapped : List Char → List Char → Prop where
  | cut (text : List Char) : Gapped text []
  | char (c : Char) {text flat : List Char} (h : Gapped text flat) : Gapped (c :: text) (c :: flat)
  | gap (piece : List Char) {text flat : List Char} (h : Gapped text flat) :
      Gapped (piece ++ text) (' ' :: flat)

namespace Gapped

variable {text flat word : List Char}

theorem append (piece : List Char) (h : Gapped text flat) :
    Gapped (piece ++ text) (piece ++ flat) := by
  induction piece with
  | nil => exact h
  | cons c piece ih => exact ih.char c

/-- A word without blanks does not reach into a gap. -/
theorem isPrefix (h : Gapped text flat) (hword : ' ' ∉ word) (hflat : word <+: flat) :
    word <+: text := by
  induction h generalizing word with
  | cut text =>
    rw [List.prefix_nil.1 hflat]
    exact List.nil_prefix
  | char c h ih =>
    cases word with
    | nil => exact List.nil_prefix
    | cons d word =>
      obtain ⟨rfl, hrest⟩ := List.cons_prefix_cons.1 hflat
      have hword : ' ' ∉ word := fun hmem => hword (List.mem_cons_of_mem d hmem)
      exact List.cons_prefix_cons.2 ⟨rfl, ih hword hrest⟩
  | gap piece h ih =>
    cases word with
    | nil => exact List.nil_prefix
    | cons d word =>
      obtain ⟨rfl, -⟩ := List.cons_prefix_cons.1 hflat
      exact absurd List.mem_cons_self hword

theorem isInfix (h : Gapped text flat) (hword : ' ' ∉ word) (hflat : word <:+: flat) :
    word <:+: text := by
  induction h with
  | cut text =>
    rw [List.infix_nil.1 hflat]
    exact List.nil_infix
  | char c h ih =>
    rcases List.infix_cons_iff.1 hflat with hflat | hflat
    · exact ((h.char c).isPrefix hword hflat).isInfix
    · exact (ih hflat).trans (List.suffix_cons c _).isInfix
  | gap piece h ih =>
    rcases List.infix_cons_iff.1 hflat with hflat | hflat
    · exact ((h.gap piece).isPrefix hword hflat).isInfix
    · exact (ih hflat).trans (List.suffix_append piece _).isInfix

/-- The texts begin alike, up to the first gap or to where the second is cut. -/
theorem parts (h : Gapped text flat) :
    ∃ c s s', text = c ++ s ∧ flat = c ++ s' ∧ Parted ' ' s s' := by
  induction h with
  | cut text =>
    refine ⟨[], text, [], rfl, rfl, .inl rfl, ?_, fun word hword _ =>
      (Gapped.cut text).isInfix hword⟩
    intro c hc
    cases hc
  | char c h ih =>
    obtain ⟨begin', s, s', rfl, rfl, hparted⟩ := ih
    exact ⟨c :: begin', s, s', rfl, rfl, hparted⟩
  | gap piece h ih =>
    refine ⟨[], _, _, rfl, rfl, .inl rfl, ?_, fun word hword _ => (h.gap piece).isInfix hword⟩
    intro c hc
    exact (Option.some.inj hc).symm

end Gapped

end Sql
end SqlDoc

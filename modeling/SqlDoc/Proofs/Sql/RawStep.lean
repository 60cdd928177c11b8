/-
# The steps of the lexer of a script

The lexer of a script is outside comments, or in a comment that ends with its line, or in a comment
that has to be closed, and what its next step is depends on that alone. Outside comments every
character begins a token (`Outside.step`). In a line comment a step reads all that is left of the
line (`InLine.step`), or at the end of the line does what it does outside (`InLine.step_lineEnd`).
In a block comment a step reads the end of the comment or a piece in which no end begins
(`InBlock.step`).

Key definitions: `Sql.Outside`, `Sql.InLine`, `Sql.InBlock`.
Key theorems: `Sql.keepsLineEnds`, `Sql.Outside.step`, `Sql.InLine.step`, `Sql.InBlock.step`.
-/
import Mathlib.Data.List.TakeWhile
import SqlDoc.Proofs.Lexer.Passage
import SqlDoc.Proofs.Sql.Quotes
import SqlDoc.Sql.Lex

namespace SqlDoc

namespace Pattern

variable {text : List Char}

theorem matchAt?_alt {p q : Pattern} {cur stop : Cursor text}
    (h : (alt p q).matchAt? cur = some stop) :
    p.matchAt? cur = some stop ∨ p.matchAt? cur = none ∧ q.matchAt? cur = some stop := by
  simp only [matchAt?, run, orElse] at h
  split at h
  · rename_i x hx
    exact Or.inl (hx.trans h)
  · rename_i hnone
    exact Or.inr ⟨hnone, h⟩

theorem matchAt?_alt_left {p q : Pattern} {cur : Cursor text}
    (h : ∃ stop, p.matchAt? cur = some stop) : ∃ stop, (alt p q).matchAt? cur = some stop := by
  obtain ⟨stop, hstop⟩ := h
  refine ⟨stop, ?_⟩
  show orElse (p.matchAt? cur) (fun _ => q.matchAt? cur) = some stop
  rw [hstop]
  rfl

theorem matchAt?_alt_right {p q : Pattern} {cur : Cursor text}
    (h : ∃ stop, q.matchAt? cur = some stop) : ∃ stop, (alt p q).matchAt? cur = some stop := by
  show ∃ stop, orElse (p.matchAt? cur) (fun _ => q.matchAt? cur) = _
  cases hp : p.matchAt? cur with
  | none => exact h
  | some stop => exact ⟨stop, rfl⟩

end Pattern

namespace Sql

open Pattern (alt many literal noneOf)

/-! ### The states -/

/-- The lexer is outside comments. -/
def Outside (lx : Lexer sqlGrammar) : Prop :=
  lx.top.state.val = 0 ∧ lx.below = []

/-- The lexer is in a comment that ends with its line. -/
def InLine (lx : Lexer sqlGrammar) : Prop :=
  lx.top.state.val = 1 ∧ ∃ frame : Frame sqlGrammar, frame.state.val = 0 ∧ lx.below = [frame]

/-- The lexer is in a comment that was opened at the position and has to be closed. -/
def InBlock (opened : Position) (lx : Lexer sqlGrammar) : Prop :=
  lx.top.state.val = 2 ∧ lx.top.entered = opened ∧
    ∃ frame : Frame sqlGrammar, frame.state.val = 0 ∧ lx.below = [frame]

theorem stateId_cases (id : sqlGrammar.StateId) :
    id = (0 : Fin 3) ∨ id = (1 : Fin 3) ∨ id = (2 : Fin 3) :=
  (by decide : ∀ id : Fin 3, id = 0 ∨ id = 1 ∨ id = 2) id

theorem Outside.top_eq {lx : Lexer sqlGrammar} (h : Outside lx) : lx.top.state = (0 : Fin 3) :=
  Fin.ext h.1

theorem InLine.top_eq {lx : Lexer sqlGrammar} (h : InLine lx) : lx.top.state = (1 : Fin 3) :=
  Fin.ext h.1

theorem InBlock.top_eq {opened : Position} {lx : Lexer sqlGrammar} (h : InBlock opened lx) :
    lx.top.state = (2 : Fin 3) :=
  Fin.ext h.1

theorem Outside.state_eq {lx : Lexer sqlGrammar} (h : Outside lx) : lx.state = mainState := by
  rw [Lexer.state, h.top_eq]
  rfl

theorem InLine.state_eq {lx : Lexer sqlGrammar} (h : InLine lx) : lx.state = lineCommentState := by
  rw [Lexer.state, h.top_eq]
  rfl

theorem InBlock.state_eq {opened : Position} {lx : Lexer sqlGrammar} (h : InBlock opened lx) :
    lx.state = blockCommentState := by
  rw [Lexer.state, h.top_eq]
  rfl

theorem InLine.pop {lx : Lexer sqlGrammar} (h : InLine lx) : Outside lx.pop := by
  obtain ⟨-, frame, hframe, hbelow⟩ := h
  rw [Lexer.pop, hbelow]
  exact ⟨hframe, rfl⟩

theorem InBlock.pop {opened : Position} {lx : Lexer sqlGrammar} (h : InBlock opened lx) :
    Outside lx.pop := by
  obtain ⟨-, -, frame, hframe, hbelow⟩ := h
  rw [Lexer.pop, hbelow]
  exact ⟨hframe, rfl⟩

/-! ### The texts of comments -/

/-- The characters of a line comment are those that end no line. -/
theorem mem_lineText (c : Char) :
    (CharSet.compl (.ofList "\r\n".toList)).mem c = !Text.isLineEnd c := by
  rw [CharSet.mem_compl, CharSet.mem_ofList]
  show (!([('\r'), '\n'].contains c)) = _
  rw [Text.isLineEnd, List.contains_cons, List.contains_cons, List.contains_nil, Bool.or_false,
    Bool.or_comm]

theorem mem_notStar (c : Char) : (CharSet.compl (.ofList "*".toList)).mem c = (c != '*') := by
  rw [CharSet.mem_compl, CharSet.mem_ofList]
  show (!(['*'].contains c)) = _
  rw [List.contains_cons, List.contains_nil, Bool.or_false]
  rfl

/-- What a piece of a text and the rest of it say about a run of characters. -/
theorem take_of_run {s : CharSet} {text : List Char} {stop : Cursor text}
    (h : (many (Pattern.set s)).matchAt? (.start text) = some stop) :
    text.take stop.seen = text.takeWhile s.mem ∧ stop.rest = text.dropWhile s.mem := by
  have hrest : stop.rest = text.dropWhile s.mem := Pattern.rest_of_matchAt?_many h
  have htext := Matcher.rest_of_tokenEnd? text stop
  have hsplit : text.take stop.seen ++ stop.rest = text.takeWhile s.mem ++ stop.rest := by
    rw [htext, hrest, List.takeWhile_append_dropWhile]
  exact ⟨List.append_cancel_right hsplit, hrest⟩

/-- A piece of a block comment is a star, or runs up to the next star. -/
theorem blockText_cases {text : List Char} {stop : Cursor text}
    (h : (Matcher.pattern (alt (many (noneOf "*")) (literal "*"))).tokenEnd? text = some stop) :
    text.take stop.seen = ['*'] ∨
      '*' ∉ text.take stop.seen ∧ ∀ c ∈ stop.rest.head?, c = '*' := by
  rcases Pattern.matchAt?_alt (Matcher.matchAt?_of_pattern h) with hrun | ⟨-, hstar⟩
  · right
    obtain ⟨hpiece, hrest⟩ := take_of_run hrun
    constructor
    · rw [hpiece]
      intro hmem
      have := List.mem_takeWhile_imp hmem
      rw [mem_notStar] at this
      exact absurd this (by decide)
    · intro c hc
      rw [hrest] at hc
      have := List.head?_dropWhile_not (CharSet.compl (.ofList "*".toList)).mem text
      rw [Option.mem_def.1 hc] at this
      have : (CharSet.compl (.ofList "*".toList)).mem c = false := this
      rw [mem_notStar] at this
      simpa using this
  · left
    obtain ⟨piece, hpiece, hrest⟩ := Pattern.describes_of_matchAt? hstar
    have htext := Matcher.rest_of_tokenEnd? text stop
    have hcut : text.take stop.seen ++ stop.rest = piece ++ stop.rest := htext.trans hrest
    rw [List.append_cancel_right hcut]
    exact Pattern.Describes.eq_of_single hpiece

theorem blockText_reads {text : List Char} (h : text ≠ []) :
    ∃ stop, (Matcher.pattern (alt (many (noneOf "*")) (literal "*"))).tokenEnd? text =
      some stop := by
  obtain ⟨c, rest, rfl⟩ := List.exists_cons_of_ne_nil h
  have hmatch : ∃ stop, (alt (many (noneOf "*")) (literal "*")).matchAt? (.start (c :: rest)) =
      some stop := by
    by_cases hc : c = '*'
    · subst hc
      exact Pattern.matchAt?_alt_right ⟨_, rfl⟩
    · refine Pattern.matchAt?_alt_left (Pattern.matchAt?_many_isSome rfl ?_)
      rw [mem_notStar]
      exact bne_iff_ne.2 hc
  obtain ⟨stop, hstop⟩ := hmatch
  exact ⟨stop, Matcher.tokenEnd?_of_matchAt? rfl hstop⟩

/-! ### The rules -/

/-- The kinds of the pieces of comments. -/
def isPiece : SqlKind → Bool
  | .lineOpen | .blockOpen | .commentText | .blockClose => true
  | _ => false

/-- A rule whose tokens are neither comments nor pieces of comments, and which stays outside. -/
def isPlainRule (r : Rule SqlKind Matcher (Fin 3)) : Bool :=
  !isPiece r.kind && !r.kind.isComment && r.transition = .stay

/-- Outside comments every rule stays there, but for the two that open a comment. -/
theorem mainRules_cases {r : Rule SqlKind Matcher (Fin 3)} (h : r ∈ mainState.rules) :
    isPlainRule r = true ∨ r = spelling .lineOpen "--" (.push 1) ∨
      r = spelling .blockOpen "/*" (.push 2) := by
  have hopen : mainState.rules.filter (fun r => !isPlainRule r) =
      [spelling .lineOpen "--" (.push 1), spelling .blockOpen "/*" (.push 2)] := rfl
  by_cases hr : isPlainRule r = true
  · exact Or.inl hr
  · have hmem : r ∈ mainState.rules.filter (fun r => !isPlainRule r) :=
      List.mem_filter.2 ⟨h, by simpa using hr⟩
    rw [hopen] at hmem
    right
    simpa using hmem

/-- No token ends inside a line end. -/
theorem keepsLineEnds : sqlGrammar.KeepsLineEnds where
  rules := by
    intro id r hr
    have hmain : (mainState.rules.all fun r => r.matcher.checksLineEnds) = true := rfl
    rcases stateId_cases id with rfl | rfl | rfl
    · exact Matcher.keepsLineEnds_of_check (List.all_eq_true.1 hmain r hr)
    · rw [List.mem_singleton.1 hr]
      exact Matcher.keepsLineEnds_of_check rfl
    · -- a piece of a block comment may end with a return, but then a star follows
      rcases List.mem_cons.1 hr with rfl | hr
      · exact Matcher.keepsLineEnds_of_check rfl
      · rw [List.mem_singleton.1 hr]
        rintro text stop hstop ⟨hlast, hhead⟩
        rcases blockText_cases hstop with hstar | ⟨-, hnext⟩
        · rw [hstar] at hlast
          exact absurd hlast (by decide)
        · exact absurd (hnext '\n' hhead) (by decide)
  fallback := by
    intro id kind hkind
    rcases stateId_cases id with rfl | rfl | rfl
    · exact ⟨rule .newline .lineEnd, List.mem_cons_self, Matcher.lineEnd_reads_return⟩
    · cases hkind
    · cases hkind

/-! ### One step -/

/-- What is read outside comments: a token that is no piece of a comment, or what opens one. -/
def ReadsOutside (entered : Position) (token : SqlToken) (next : Lexer sqlGrammar) : Prop :=
  isPiece token.kind = false ∧ token.kind.isComment = false ∧ Outside next ∨
    token.kind = .lineOpen ∧ InLine next ∨
    token.kind = .blockOpen ∧ token.text.toList = ['/', '*'] ∧ InBlock entered next

theorem Outside.act {lx : Lexer sqlGrammar} (h : Outside lx) (found : Char) :
    ∃ token next, lx.act found = .read token next ∧ ReadsOutside lx.position token next := by
  cases hm : lx.matchRule? with
  | none =>
    have hunknown : lx.state.fallback = .token .unknown := by
      rw [h.state_eq]
      rfl
    exact ⟨_, _, Lexer.act_of_fallback_token hm hunknown found, Or.inl ⟨rfl, rfl, h⟩⟩
  | some pair =>
    obtain ⟨r, stop⟩ := pair
    refine ⟨_, _, Lexer.act_of_matchRule? hm found, ?_⟩
    obtain ⟨hr, hstop⟩ := Lexer.of_matchRule?_eq_some hm
    rw [h.state_eq] at hr
    rcases mainRules_cases hr with hplain | rfl | rfl
    · simp only [isPlainRule, Bool.and_eq_true, Bool.not_eq_true', decide_eq_true_eq] at hplain
      obtain ⟨⟨hpiece, hcomment⟩, hstay⟩ := hplain
      refine Or.inl ⟨hpiece, hcomment, ?_⟩
      rw [hstay]
      exact h
    · exact Or.inr (Or.inl ⟨rfl, rfl, lx.top, h.1, congrArg _ h.2⟩)
    · refine Or.inr (Or.inr ⟨rfl, ?_, rfl, rfl, lx.top, h.1, congrArg _ h.2⟩)
      show (String.ofList (lx.rest.take stop.seen)).toList = _
      rw [String.toList_ofList]
      exact Matcher.take_of_literal hstop

/-- Outside comments every character begins a token. -/
theorem Outside.step {lx : Lexer sqlGrammar} (h : Outside lx) (hrest : lx.rest ≠ []) :
    ∃ token next, lx.step = .token token next ∧ ReadsOutside lx.position token next := by
  obtain ⟨found, rest, hrest⟩ := List.exists_cons_of_ne_nil hrest
  obtain ⟨token, next, hread, hkind⟩ := h.act found
  exact ⟨token, next, Lexer.step_of_act_read hrest hread, hkind⟩

theorem Outside.finished {lx : Lexer sqlGrammar} (h : Outside lx) (hrest : lx.rest = []) :
    lx.step = .finished := by
  refine Lexer.step_of_endError?_none hrest ?_
  rw [Lexer.endError?, h.2, List.findSome?_singleton, h.top_eq]
  rfl

theorem InLine.finished {lx : Lexer sqlGrammar} (h : InLine lx) (hrest : lx.rest = []) :
    lx.step = .finished := by
  obtain ⟨-, frame, hframe, hbelow⟩ := id h
  have hmain : frame.state = (0 : Fin 3) := Fin.ext hframe
  refine Lexer.step_of_endError?_none hrest ?_
  rw [Lexer.endError?, hbelow, List.findSome?_cons, h.top_eq]
  show List.findSome? _ [frame] = none
  rw [List.findSome?_singleton, hmain]
  rfl

/-- In a line comment its one rule reads whatever does not end the line. -/
theorem InLine.matchRule? {lx : Lexer sqlGrammar} (h : InLine lx) {found : Char} {rest : List Char}
    (hrest : lx.rest = found :: rest) (hfound : Text.isLineEnd found = false) :
    ∃ stop, lx.matchRule? = some (rule .commentText (many (noneOf "\r\n")), stop) := by
  have hmem : (CharSet.compl (.ofList "\r\n".toList)).mem found = true := by
    rw [mem_lineText, hfound]
    rfl
  cases hm : lx.matchRule? with
  | none =>
    have hno := Lexer.of_matchRule?_eq_none hm (rule .commentText (many (noneOf "\r\n"))) (by
      rw [h.state_eq]
      exact List.mem_singleton_self _)
    have hcur : (Cursor.start lx.rest).rest = found :: rest := hrest
    obtain ⟨stop, hstop⟩ := Pattern.matchAt?_many_isSome hcur hmem
    have hsome := Matcher.tokenEnd?_of_matchAt? rfl hstop
    cases hno.symm.trans hsome
  | some pair =>
    obtain ⟨r, stop⟩ := pair
    obtain ⟨hr, -⟩ := Lexer.of_matchRule?_eq_some hm
    rw [h.state_eq] at hr
    obtain rfl := List.mem_singleton.1 hr
    exact ⟨stop, rfl⟩

/-- In a line comment a step reads all that is left of the line. -/
theorem InLine.step {lx : Lexer sqlGrammar} (h : InLine lx) {found : Char} {rest : List Char}
    (hrest : lx.rest = found :: rest) (hfound : Text.isLineEnd found = false) :
    ∃ token next, lx.step = .token token next ∧ token.kind = .commentText ∧ InLine next ∧
      ∀ c ∈ next.rest.head?, Text.isLineEnd c = true := by
  obtain ⟨stop, hm⟩ := h.matchRule? hrest hfound
  refine ⟨_, _, Lexer.step_of_act_read hrest (Lexer.act_of_matchRule? hm _), rfl, h, ?_⟩
  obtain ⟨-, hstop⟩ := Lexer.of_matchRule?_eq_some hm
  obtain ⟨-, hstoprest⟩ := take_of_run (Matcher.matchAt?_of_pattern hstop)
  intro c hc
  have hc : c ∈ stop.rest.head? := hc
  rw [hstoprest] at hc
  have := List.head?_dropWhile_not (CharSet.compl (.ofList "\r\n".toList)).mem lx.rest
  rw [Option.mem_def.1 hc] at this
  have : (CharSet.compl (.ofList "\r\n".toList)).mem c = false := this
  rw [mem_lineText] at this
  simpa using this

/-- At the end of its line a line comment is left without a token. -/
theorem InLine.step_lineEnd {lx : Lexer sqlGrammar} (h : InLine lx) {found : Char}
    {rest : List Char} (hrest : lx.rest = found :: rest) (hfound : Text.isLineEnd found = true) :
    lx.step = lx.pop.step := by
  have hm : lx.matchRule? = none := by
    cases hm : lx.matchRule? with
    | none => rfl
    | some pair =>
      obtain ⟨r, stop⟩ := pair
      obtain ⟨hr, hstop⟩ := Lexer.of_matchRule?_eq_some hm
      rw [h.state_eq] at hr
      obtain rfl := List.mem_singleton.1 hr
      obtain ⟨hpiece, -⟩ := take_of_run (Matcher.matchAt?_of_pattern hstop)
      have hnone : lx.rest.takeWhile (CharSet.compl (.ofList "\r\n".toList)).mem = [] := by
        rw [hrest]
        refine List.takeWhile_cons_of_neg ?_
        rw [mem_lineText, hfound]
        decide
      exact absurd (hpiece.trans hnone) (Matcher.take_seen_ne_nil hstop)
  have hfallback : lx.state.fallback = .pop := by
    rw [h.state_eq]
    rfl
  have hmove := Lexer.act_of_fallback_pop hm hfallback found
  have hpop : lx.pop.rest = found :: rest := by rw [Lexer.rest_pop, hrest]
  obtain ⟨token, next, hread, -⟩ := h.pop.act found
  rw [Lexer.step_of_act_move hrest hmove hread, Lexer.step_of_act_read hpop hread]

theorem InBlock.failed {opened : Position} {lx : Lexer sqlGrammar} (h : InBlock opened lx)
    (hrest : lx.rest = []) : lx.step = .failed (.unterminated "block comment" opened) := by
  refine Lexer.step_of_endError?_some hrest ?_
  rw [Lexer.endError?, List.findSome?_cons, h.top_eq, h.2.1]
  rfl

/-- In a block comment a step reads the end of the comment, or a piece in which no end begins. -/
theorem InBlock.step {opened : Position} {lx : Lexer sqlGrammar} (h : InBlock opened lx)
    (hrest : lx.rest ≠ []) :
    ∃ token next, lx.step = .token token next ∧
      (token.kind = .blockClose ∧ token.text.toList = ['*', '/'] ∧ Outside next ∨
        token.kind = .commentText ∧ InBlock opened next ∧
          Text.afterPair '*' '/' lx.rest = Text.afterPair '*' '/' next.rest) := by
  obtain ⟨found, rest, hcons⟩ := List.exists_cons_of_ne_nil hrest
  by_cases hclose : ['*', '/'] <+: lx.rest
  · obtain ⟨stop, hstop⟩ := Matcher.tokenEnd?_of_prefix (List.cons_ne_nil _ _) hclose
    have hm : lx.matchRule? = some (spelling .blockClose "*/" .pop, stop) := by
      rw [Lexer.matchRule?, h.state_eq]
      refine (List.findSome?_cons_of_isSome ?_).trans ?_
      · rw [Option.isSome_map]
        exact Option.isSome_of_eq_some hstop
      · exact congrArg (Option.map _) hstop
    refine ⟨_, _, Lexer.step_of_act_read hcons (Lexer.act_of_matchRule? hm _), Or.inl ⟨rfl, ?_, ?_⟩⟩
    · show (String.ofList (lx.rest.take stop.seen)).toList = _
      rw [String.toList_ofList]
      exact Matcher.take_of_literal hstop
    · have hskip : InBlock opened (lx.skip stop.seen stop.rest) := h
      exact hskip.pop
  · have hnone : (Matcher.literal ['*', '/']).tokenEnd? lx.rest = none :=
      Matcher.tokenEnd?_of_not_prefix hclose
    obtain ⟨stop, hstop⟩ := blockText_reads hrest
    have hm : lx.matchRule? =
        some (rule .commentText (alt (many (noneOf "*")) (literal "*")), stop) := by
      rw [Lexer.matchRule?, h.state_eq]
      refine (List.findSome?_cons_of_isNone ?_).trans ?_
      · rw [Option.isNone_map]
        exact Option.isNone_iff_eq_none.2 hnone
      · exact (List.findSome?_singleton ..).trans (congrArg (Option.map _) hstop)
    refine ⟨_, _, Lexer.step_of_act_read hcons (Lexer.act_of_matchRule? hm _), Or.inr ?_⟩
    refine ⟨rfl, h, ?_⟩
    have htext := Matcher.rest_of_tokenEnd? lx.rest stop
    rcases blockText_cases hstop with hstar | ⟨hpiece, -⟩
    · rw [hstar] at htext
      rw [← htext] at hclose
      refine (congrArg _ htext.symm).trans (Text.afterPair_cons fun hpair => hclose ?_)
      obtain ⟨rest, hrest⟩ := List.head?_eq_some_iff.1 hpair.2
      exact ⟨rest, congrArg ('*' :: ·) hrest.symm⟩
    · exact (congrArg _ htext.symm).trans (Text.afterPair_append_left hpiece _)

end Sql
end SqlDoc

/-
# What a lexer passes

A step reads a piece of the text and moves the position over it. Over several steps the positions
add up to the place that the text says, as long as no token ends between the two characters of
`\r\n`. A grammar keeps line ends whole when none of its tokens can end there
(`Grammar.KeepsLineEnds`); for most rules this is computed (`Matcher.checksLineEnds`). Then a lexer
that has passed a piece of the text, in however many tokens, is at the position of that piece's end
(`Reads.passes`).

Key definitions: `Grammar.Makes`, `Grammar.KeepsLineEnds`, `Lexer.Passes`, `Lexer.Reads`.
Key theorems: `Lexer.passes_of_step`, `Lexer.Passes.trans`, `Lexer.Reads.passes`,
`Lexer.Reads.merge_spans`, `Lexer.makes_of_mem_run`.
-/
import SqlDoc.Lexer.Run
import SqlDoc.Pattern.Layout
import SqlDoc.Proofs.Pattern.Language
import SqlDoc.Proofs.Position.Advance

namespace SqlDoc

open Text (SplitsLineEnd)

/-! ### Matches -/

theorem Matcher.rest_of_tokenEnd? (text : List Char) (stop : Cursor text) :
    text.take stop.seen ++ stop.rest = text := by
  rw [← stop.rest_eq]
  exact List.take_append_drop ..

/-- A token has at least one character. -/
theorem Matcher.seen_pos_of_tokenEnd? {m : Matcher} {text : List Char} {stop : Cursor text}
    (h : m.tokenEnd? text = some stop) : 0 < stop.seen := by
  simpa using (Option.filter_eq_some_iff.1 h).2

theorem Matcher.take_seen_ne_nil {m : Matcher} {text : List Char} {stop : Cursor text}
    (h : m.tokenEnd? text = some stop) : text.take stop.seen ≠ [] := by
  have hpos := m.seen_pos_of_tokenEnd? h
  have hle := stop.seen_le
  rw [← List.length_pos_iff, List.length_take]
  omega

/-- A literal is the text that it stands for. -/
theorem Matcher.take_of_literal {chars text : List Char} {stop : Cursor text}
    (h : (Matcher.literal chars).tokenEnd? text = some stop) : text.take stop.seen = chars := by
  have h : literalEnd? chars text = some stop := (Option.filter_eq_some_iff.1 h).1
  unfold literalEnd? at h
  split at h
  · rename_i hp
    obtain ⟨rest, rfl⟩ := List.isPrefixOf_iff_prefix.1 hp
    rw [← Option.some.inj h]
    exact List.take_left
  · cases h

/-- A literal is found where the text begins with it, and nowhere else. -/
theorem Matcher.tokenEnd?_of_prefix {chars text : List Char} (hne : chars ≠ [])
    (h : chars <+: text) : ∃ stop, (Matcher.literal chars).tokenEnd? text = some stop := by
  have hend : literalEnd? chars text = some _ :=
    dif_pos (List.isPrefixOf_iff_prefix.2 h)
  refine ⟨_, Option.filter_eq_some_iff.2 ⟨hend, ?_⟩⟩
  rw [decide_eq_true_eq]
  exact List.length_pos_iff.2 hne

theorem Matcher.tokenEnd?_of_not_prefix {chars text : List Char} (h : ¬ chars <+: text) :
    (Matcher.literal chars).tokenEnd? text = none := by
  have hend : literalEnd? chars text = none :=
    dif_neg fun hp => h (List.isPrefixOf_iff_prefix.1 hp)
  show (literalEnd? chars text).filter _ = none
  rw [hend]
  rfl

theorem Matcher.matchAt?_of_pattern {p : Pattern} {text : List Char} {stop : Cursor text}
    (h : (Matcher.pattern p).tokenEnd? text = some stop) : p.matchAt? (.start text) = some stop :=
  (Option.filter_eq_some_iff.1 h).1

/-- A match of a pattern is a piece that the pattern describes. -/
theorem Matcher.describes_of_pattern {p : Pattern} {text : List Char} {stop : Cursor text}
    (h : (Matcher.pattern p).tokenEnd? text = some stop) : p.Describes (text.take stop.seen) := by
  obtain ⟨piece, hpiece, hrest⟩ := Pattern.describes_of_matchAt? (Matcher.matchAt?_of_pattern h)
  have htext : text = piece ++ stop.rest := hrest
  have hcut : text.take stop.seen ++ stop.rest = piece ++ stop.rest :=
    (Matcher.rest_of_tokenEnd? text stop).trans htext
  rwa [List.append_cancel_right hcut]

/-! ### What a token contains and how it begins -/

/-- A check for matchers that read no text with the character. -/
def Matcher.avoids (c : Char) : Matcher → Bool
  | .literal chars => !chars.contains c
  | .pattern p => !p.mayContain c
  | .regex _ => false

theorem Matcher.not_mem_of_avoids {c : Char} {m : Matcher} (h : m.avoids c = true)
    {text : List Char} {stop : Cursor text} (hstop : m.tokenEnd? text = some stop) :
    c ∉ text.take stop.seen := by
  cases m with
  | literal chars =>
    rw [Matcher.take_of_literal hstop]
    simpa [Matcher.avoids] using h
  | pattern p =>
    intro hmem
    rw [Matcher.avoids, (Matcher.describes_of_pattern hstop).mayContain hmem] at h
    cases h
  | regex => cases h

/-- A check for matchers that read no text without a character that `P` accepts. -/
def Matcher.mustContain (P : Char → Bool) : Matcher → Bool
  | .literal chars => chars.any P
  | .pattern p => p.mustContain P
  | .regex _ => false

theorem Matcher.exists_mem_of_mustContain {P : Char → Bool} {m : Matcher}
    (h : m.mustContain P = true) {text : List Char} {stop : Cursor text}
    (hstop : m.tokenEnd? text = some stop) : ∃ c ∈ text.take stop.seen, P c = true := by
  cases m with
  | literal chars =>
    rw [Matcher.take_of_literal hstop]
    exact List.any_eq_true.1 h
  | pattern p => exact (Matcher.describes_of_pattern hstop).mustContain h
  | regex => cases h

/-- A check for the matcher of a pattern. -/
def Matcher.isPattern (p : Pattern) : Matcher → Bool
  | .pattern q => q = p
  | _ => false

theorem Matcher.eq_of_isPattern {p : Pattern} {m : Matcher} (h : m.isPattern p = true) :
    m = .pattern p := by
  cases m with
  | pattern q => rw [of_decide_eq_true h]
  | literal | regex => cases h

/-- A check for matchers that may read a text that begins with the character. -/
def Matcher.mayBeginWith (c : Char) : Matcher → Bool
  | .literal chars => chars.head? == some c
  | .pattern p => p.mayBeginWith c
  | .regex _ => true

theorem Matcher.mayBeginWith_of_tokenEnd? {c : Char} {m : Matcher} {rest : List Char}
    {stop : Cursor (c :: rest)} (h : m.tokenEnd? (c :: rest) = some stop) :
    m.mayBeginWith c = true := by
  have hfirst : ((c :: rest).take stop.seen).head? = some c := by
    obtain ⟨n, hn⟩ := Nat.exists_eq_add_of_lt (Matcher.seen_pos_of_tokenEnd? h)
    rw [hn, Nat.zero_add, List.take_succ_cons]
    rfl
  cases m with
  | literal chars =>
    rw [Matcher.take_of_literal h] at hfirst
    exact beq_iff_eq.2 hfirst
  | pattern p => exact (Matcher.describes_of_pattern h).mayBeginWith hfirst
  | regex => rfl

/-- The token is what a rule reads, or the character that no rule of a state reads. -/
inductive Grammar.Makes {κ : Type} (g : Grammar κ) (token : Token κ) : Prop where
  | rule {id : g.StateId} {rule : Rule κ Matcher g.StateId} {text : List Char} {stop : Cursor text}
      (hrule : rule ∈ (g.state id).rules) (hkind : rule.kind = token.kind)
      (hstop : rule.matcher.tokenEnd? text = some stop)
      (htext : token.text.toList = text.take stop.seen)
  | fallback {id : g.StateId} (hfallback : (g.state id).fallback = .token token.kind)

/-! ### Grammars that keep line ends whole -/

/-- No token of the matcher ends inside a line end. -/
def Matcher.KeepsLineEnds (m : Matcher) : Prop :=
  ∀ (text : List Char) (stop : Cursor text), m.tokenEnd? text = some stop →
    ¬ SplitsLineEnd (text.take stop.seen) stop.rest

/-- No token of the grammar ends inside a line end: no rule's does, and where a character that no
rule reads becomes a token, some rule reads carriage returns. -/
structure Grammar.KeepsLineEnds {κ : Type} (g : Grammar κ) : Prop where
  rules : ∀ (id : g.StateId), ∀ rule ∈ (g.state id).rules, rule.matcher.KeepsLineEnds
  fallback : ∀ (id : g.StateId) (kind : κ), (g.state id).fallback = .token kind →
    ∃ rule ∈ (g.state id).rules, ∀ rest, rule.matcher.tokenEnd? ('\r' :: rest) ≠ none

/-- A check for matchers that end no token inside a line end: the matcher reads line ends, or reads
nothing that ends in a carriage return. -/
def Matcher.checksLineEnds : Matcher → Bool
  | .literal chars => chars.getLast? != some '\r'
  | .pattern p => p = .lineEnd || !p.mayEndWith '\r'
  | .regex _ => false

/-- The two characters of `\r\n` are read together. -/
theorem Matcher.keepsLineEnds_lineEnd : (Matcher.pattern .lineEnd).KeepsLineEnds := by
  rintro text stop hstop ⟨hlast, hhead⟩
  have htext := Matcher.rest_of_tokenEnd? text stop
  have hpiece : text.take stop.seen = ['\r'] := by
    rcases Pattern.eq_of_describes_lineEnd (Matcher.describes_of_pattern hstop) with h | h | h
    · rw [h] at hlast
      exact absurd hlast (by decide)
    · exact h
    · rw [h] at hlast
      exact absurd hlast (by decide)
  obtain ⟨rest, hrest⟩ := List.head?_eq_some_iff.1 hhead
  rw [hpiece, hrest] at htext
  have htext : '\r' :: '\n' :: rest = text := htext
  subst htext
  have hseen := Pattern.seen_of_lineEnd_return_feed (Matcher.matchAt?_of_pattern hstop)
  rw [hseen] at hpiece
  cases hpiece

theorem Matcher.keepsLineEnds_of_check {m : Matcher} (h : m.checksLineEnds = true) :
    m.KeepsLineEnds := by
  cases m with
  | literal chars =>
    intro text stop hstop hcut
    rw [Matcher.take_of_literal hstop] at hcut
    simp [Matcher.checksLineEnds, hcut.1] at h
  | pattern p =>
    rw [Matcher.checksLineEnds, Bool.or_eq_true, decide_eq_true_eq] at h
    rcases h with rfl | h
    · exact Matcher.keepsLineEnds_lineEnd
    · intro text stop hstop hcut
      have := (Matcher.describes_of_pattern hstop).mayEndWith hcut.1
      rw [this] at h
      cases h
  | regex => cases h

/-- Where a pattern with no empty piece is found, it gives a token. -/
theorem Matcher.tokenEnd?_of_matchAt? {p : Pattern} (hp : p.mayBeEmpty = false) {text : List Char}
    {stop : Cursor text} (h : p.matchAt? (.start text) = some stop) :
    (Matcher.pattern p).tokenEnd? text = some stop := by
  refine Option.filter_eq_some_iff.2 ⟨h, ?_⟩
  obtain ⟨piece, hpiece, hrest⟩ := Pattern.describes_of_matchAt? h
  have hlen : text.length = (piece ++ stop.rest).length := congrArg List.length hrest
  rw [List.length_append] at hlen
  have hpos : 0 < piece.length := by
    rw [List.length_pos_iff]
    intro hnil
    have := hpiece.mayBeEmpty hnil
    rw [hp] at this
    cases this
  have := stop.rest_length
  rw [decide_eq_true_eq]
  omega

/-- Line ends are read wherever there is a carriage return. -/
theorem Matcher.lineEnd_reads_return (rest : List Char) :
    (Matcher.pattern .lineEnd).tokenEnd? ('\r' :: rest) ≠ none := by
  obtain ⟨stop, hstop⟩ := Pattern.matchAt?_lineEnd_return rest
  rw [Matcher.tokenEnd?_of_matchAt? rfl hstop]
  exact Option.some_ne_none stop

namespace Lexer

variable {κ : Type} {g : Grammar κ}

@[simp] theorem position_pop (lx : Lexer g) : lx.pop.position = lx.position := by
  unfold pop
  split <;> rfl

@[simp] theorem position_apply (lx : Lexer g) (transition : Transition g.StateId)
    (entered : Position) : (lx.apply transition entered).position = lx.position := by
  cases transition <;> simp [apply]

/-! ### One step -/

theorem of_matchRule?_eq_some {lx : Lexer g} {rule : Rule κ Matcher g.StateId}
    {stop : Cursor lx.rest} (h : lx.matchRule? = some (rule, stop)) :
    rule ∈ lx.state.rules ∧ rule.matcher.tokenEnd? lx.rest = some stop := by
  obtain ⟨r, hr, hsome⟩ := List.exists_of_findSome?_eq_some h
  obtain ⟨c, hc, hpair⟩ := Option.map_eq_some_iff.1 hsome
  cases hpair
  exact ⟨hr, hc⟩

theorem of_matchRule?_eq_none {lx : Lexer g} (h : lx.matchRule? = none) :
    ∀ rule ∈ lx.state.rules, rule.matcher.tokenEnd? lx.rest = none := by
  intro rule hrule
  simpa using List.findSome?_eq_none_iff.1 h rule hrule

theorem act_of_matchRule? {lx : Lexer g} {rule : Rule κ Matcher g.StateId} {stop : Cursor lx.rest}
    (h : lx.matchRule? = some (rule, stop)) (found : Char) :
    lx.act found = .read (lx.token rule.kind stop.seen rule.value)
      ((lx.skip stop.seen stop.rest).apply rule.transition lx.position) := by
  rw [act, h]

theorem act_of_fallback_token {lx : Lexer g} {kind : κ} (h : lx.matchRule? = none)
    (hkind : lx.state.fallback = .token kind) (found : Char) :
    lx.act found = .read (lx.token kind 1 id) (lx.skip 1 (lx.rest.drop 1)) := by
  rw [act, h]
  simp only [hkind]

theorem act_of_fallback_pop {lx : Lexer g} (h : lx.matchRule? = none)
    (hpop : lx.state.fallback = .pop) (found : Char) : lx.act found = .move lx.pop := by
  rw [act, h]
  simp only [hpop]

theorem step_of_endError?_none {lx : Lexer g} (hrest : lx.rest = []) (h : lx.endError? = none) :
    lx.step = .finished := by
  unfold step
  split
  · rw [h]
  · simp_all

theorem step_of_endError?_some {lx : Lexer g} {e : LexError} (hrest : lx.rest = [])
    (h : lx.endError? = some e) : lx.step = .failed e := by
  unfold step
  split
  · rw [h]
  · simp_all

theorem step_eq_stepAt {lx : Lexer g} {found : Char} {rest : List Char}
    (hrest : lx.rest = found :: rest) : lx.step = stepAt found g.size lx := by
  unfold step
  split
  · simp_all
  · simp_all

theorem step_of_act_read {lx next : Lexer g} {found : Char} {rest : List Char} {token : Token κ}
    (hrest : lx.rest = found :: rest) (h : lx.act found = .read token next) :
    lx.step = .token token next := by
  rw [step_eq_stepAt hrest, stepAt, h]

/-- A fallback that reads nothing does not change the step, if a token follows at once. -/
theorem step_of_act_move {lx mid next : Lexer g} {found : Char} {rest : List Char}
    {token : Token κ} (hrest : lx.rest = found :: rest) (hmove : lx.act found = .move mid)
    (h : mid.act found = .read token next) : lx.step = .token token next := by
  obtain ⟨n, hn⟩ := Nat.exists_eq_succ_of_ne_zero (Nat.ne_of_gt g.size_pos)
  rw [step_eq_stepAt hrest, hn, stepAt, hmove]
  show stepAt found n mid = _
  unfold stepAt
  rw [h]

/-- The lexer `next` is `lx` past a piece of the text, at the position of the piece's end, and the
piece does not end inside a line end. -/
structure Passes (lx : Lexer g) (piece : List Char) (next : Lexer g) : Prop where
  text : lx.rest = piece ++ next.rest
  position : next.position = lx.position.advance piece
  whole : ¬ SplitsLineEnd piece next.rest

/-- A token lies between the positions of the lexer before and after it. -/
theorem span_of_act {lx next : Lexer g} {found : Char} {token : Token κ}
    (h : lx.act found = .read token next) :
    token.span = .between lx.position next.position ∧
      next.position = lx.position.advance token.text.toList := by
  unfold act at h
  split at h
  · cases h
    simp [Lexer.token, skip]
  · split at h <;> cases h
    simp [Lexer.token, skip]

theorem position_of_act_move {lx next : Lexer g} {found : Char} (h : lx.act found = .move next) :
    next.position = lx.position := by
  unfold act at h
  split at h
  · cases h
  · split at h <;> cases h <;> simp

theorem span_of_stepAt {found : Char} {budget : Nat} {lx next : Lexer g} {token : Token κ}
    (h : stepAt found budget lx = .token token next) :
    token.span = .between lx.position next.position ∧
      next.position = lx.position.advance token.text.toList := by
  induction budget generalizing lx with
  | zero =>
    unfold stepAt at h
    split at h <;> cases h
    exact span_of_act ‹_›
  | succ budget ih =>
    unfold stepAt at h
    split at h
    · cases h
      exact span_of_act ‹_›
    · cases h
    · rename_i mid ha
      rw [← position_of_act_move ha]
      exact ih h

/-- A token lies between the positions of the lexer before and after it. -/
theorem span_of_step {lx next : Lexer g} {token : Token κ} (h : lx.step = .token token next) :
    token.span = .between lx.position next.position ∧
      next.position = lx.position.advance token.text.toList := by
  unfold step at h
  split at h
  · split at h <;> cases h
  · exact span_of_stepAt h

theorem text_ne_nil_of_step {lx next : Lexer g} {token : Token κ}
    (h : lx.step = .token token next) : token.text.toList ≠ [] := by
  intro hnil
  have hshort := step_shorter h
  have htext := step_text h
  rw [hnil, List.nil_append] at htext
  rw [htext] at hshort
  exact absurd hshort (Nat.lt_irrefl _)

theorem whole_of_act (hg : g.KeepsLineEnds) {lx next : Lexer g} {found : Char} {rest : List Char}
    {token : Token κ} (hrest : lx.rest = found :: rest) (h : lx.act found = .read token next) :
    ¬ SplitsLineEnd token.text.toList next.rest := by
  unfold act at h
  split at h
  · rename_i rule stop hm
    cases h
    obtain ⟨hrule, hstop⟩ := of_matchRule?_eq_some hm
    rw [rest_apply]
    simpa [Lexer.token, skip] using hg.rules _ _ hrule _ _ hstop
  · rename_i hnone
    split at h <;> cases h
    rename_i kind hf
    rintro ⟨hlast, -⟩
    -- the character is a carriage return, and so a rule reads it
    obtain ⟨rule, hrule, hmatch⟩ := hg.fallback _ _ hf
    have hfound : found = '\r' := by
      simpa [Lexer.token, hrest] using hlast
    have hno := of_matchRule?_eq_none hnone rule hrule
    rw [hrest, hfound] at hno
    exact hmatch rest hno

theorem whole_of_stepAt (hg : g.KeepsLineEnds) {found : Char} {rest : List Char} {budget : Nat}
    {lx next : Lexer g} {token : Token κ} (hrest : lx.rest = found :: rest)
    (h : stepAt found budget lx = .token token next) :
    ¬ SplitsLineEnd token.text.toList next.rest := by
  induction budget generalizing lx with
  | zero =>
    unfold stepAt at h
    split at h <;> cases h
    exact whole_of_act hg hrest ‹_›
  | succ budget ih =>
    unfold stepAt at h
    split at h
    · cases h
      exact whole_of_act hg hrest ‹_›
    · cases h
    · rename_i mid ha
      exact ih (by rw [act_move_rest ha, hrest]) h

/-- A step passes its token. -/
theorem passes_of_step (hg : g.KeepsLineEnds) {lx next : Lexer g} {token : Token κ}
    (h : lx.step = .token token next) : lx.Passes token.text.toList next := by
  refine ⟨(step_text h).symm, (span_of_step h).2, ?_⟩
  unfold step at h
  split at h
  · split at h <;> cases h
  · rename_i found rest hrest
    exact whole_of_stepAt hg hrest h

/-! ### Several steps -/

namespace Passes

theorem refl (lx : Lexer g) : lx.Passes [] lx :=
  ⟨rfl, rfl, Text.not_splitsLineEnd_nil _⟩

theorem trans {lx mid next : Lexer g} {first second : List Char} (h1 : lx.Passes first mid)
    (h2 : mid.Passes second next) : lx.Passes (first ++ second) next := by
  have hcut : ¬ SplitsLineEnd first second := by
    intro h
    refine h1.whole ?_
    rw [h2.text]
    exact Text.splitsLineEnd_append_right _ h
  refine ⟨by rw [h1.text, h2.text, List.append_assoc], ?_, fun h => ?_⟩
  · rw [h2.position, h1.position, Position.advance_append _ hcut]
  · by_cases hne : second = []
    · have hrest : mid.rest = next.rest := by rw [h2.text, hne, List.nil_append]
      rw [hne, List.append_nil, ← hrest] at h
      exact h1.whole h
    · exact h2.whole (Text.splitsLineEnd_of_append hne h)

theorem pop {lx next : Lexer g} {piece : List Char} (h : lx.Passes piece next) :
    lx.Passes piece next.pop := by
  refine ⟨?_, ?_, ?_⟩
  · rw [rest_pop, h.text]
  · rw [position_pop, h.position]
  · rw [rest_pop]
    exact h.whole

/-- The piece is what the text begins with. -/
theorem take {lx next : Lexer g} {piece : List Char} (h : lx.Passes piece next) :
    lx.rest.take piece.length = piece := by
  rw [h.text]
  exact List.take_left

theorem drop {lx next : Lexer g} {piece : List Char} (h : lx.Passes piece next) :
    lx.rest.drop piece.length = next.rest := by
  rw [h.text]
  exact List.drop_left

theorem length_le {lx next : Lexer g} {piece : List Char} (h : lx.Passes piece next) :
    piece.length ≤ lx.rest.length := by
  rw [h.text, List.length_append]
  exact Nat.le_add_right ..

/-- The position after the piece is the one that the text up to there says. -/
theorem position_take {lx next : Lexer g} {piece : List Char} (h : lx.Passes piece next) :
    next.position = lx.position.advance (lx.rest.take piece.length) := by
  rw [h.take]
  exact h.position

/-- A text that follows the piece begins where the piece ends. -/
theorem advance_take {lx next : Lexer g} {piece more rest : List Char} (h : lx.Passes piece next)
    (hmore : next.rest = more ++ rest) :
    next.position.advance more =
      lx.position.advance (lx.rest.take (piece.length + more.length)) := by
  have hcut : ¬ SplitsLineEnd piece more := by
    intro hsplit
    refine h.whole ?_
    rw [hmore]
    exact Text.splitsLineEnd_append_right rest hsplit
  have htake : lx.rest.take (piece.length + more.length) = piece ++ more := by
    rw [h.text, hmore, ← List.append_assoc, ← List.length_append]
    exact List.take_left
  rw [htake, Position.advance_append _ hcut, h.position]

end Passes

/-- The lexer reads the tokens, one in each step, and comes to `next`. -/
inductive Reads : Lexer g → List (Token κ) → Lexer g → Prop where
  | nil (lx : Lexer g) : Reads lx [] lx
  | cons {lx mid next : Lexer g} {token : Token κ} {tokens : List (Token κ)}
      (hstep : lx.step = .token token mid) (h : Reads mid tokens next) :
      Reads lx (token :: tokens) next

theorem run_of_finished {lx : Lexer g} (h : lx.step = .finished) : lx.run = ([], none) := by
  rw [run, trace]
  split <;> simp_all

theorem run_of_failed {lx : Lexer g} {e : LexError} (h : lx.step = .failed e) :
    lx.run = ([], some e) := by
  rw [run, trace]
  split <;> simp_all

theorem run_of_token {lx next : Lexer g} {token : Token κ} (h : lx.step = .token token next) :
    lx.run = (token :: next.run.1, next.run.2) := by
  rw [run, trace]
  split
  · simp_all
  · simp_all
  · rename_i t n hstep
    rw [h] at hstep
    cases hstep
    rfl

/-- A run that gives a token begins with a step that reads it. -/
theorem step_of_run_cons {lx : Lexer g} {token : Token κ} {after : List (Token κ)}
    (h : lx.run.1 = token :: after) :
    ∃ next, lx.step = .token token next ∧ next.run.1 = after ∧ next.run.2 = lx.run.2 := by
  cases hstep : lx.step with
  | finished =>
    rw [run_of_finished hstep] at h
    cases h
  | failed e =>
    rw [run_of_failed hstep] at h
    cases h
  | token t next =>
    rw [run_of_token hstep] at h
    cases h
    exact ⟨next, rfl, rfl, (congrArg Prod.snd (run_of_token hstep)).symm⟩

namespace Reads

/-- A run goes on after the tokens. -/
theorem run {lx next : Lexer g} {tokens : List (Token κ)} (h : lx.Reads tokens next) :
    lx.run = (tokens ++ next.run.1, next.run.2) := by
  induction h with
  | nil => rfl
  | cons hstep _ ih =>
    rw [run_of_token hstep, ih]
    rfl

/-- The lexer passes the texts of the tokens. -/
theorem passes (hg : g.KeepsLineEnds) {lx next : Lexer g} {tokens : List (Token κ)}
    (h : lx.Reads tokens next) : lx.Passes (tokensText tokens).toList next := by
  induction h with
  | nil lx => exact .refl lx
  | cons hstep _ ih =>
    rw [tokensText_cons, String.toList_append]
    exact (passes_of_step hg hstep).trans ih

/-- The spans of the tokens merge to one that reaches to the end of the last. -/
theorem merge_spans {lx next : Lexer g} {tokens : List (Token κ)} (h : lx.Reads tokens next)
    {p : Position} (hp : lx.position.before p = false) (hfile : lx.position.filename = p.filename) :
    tokens.foldl (fun span t => span.merge t.span) (Span.between p lx.position) =
      Span.between p next.position := by
  induction h with
  | nil => rfl
  | @cons lx mid next token tokens hstep _ ih =>
    obtain ⟨hspan, hmid⟩ := span_of_step hstep
    have hbefore : lx.position.before mid.position = true := by
      rw [hmid]
      exact lx.position.before_advance (text_ne_nil_of_step hstep)
    rw [List.foldl_cons, hspan, Span.merge_between hp hbefore hfile]
    refine ih (Position.not_before_of_before hp hbefore) ?_
    rw [hmid, Position.advance_filename, hfile]

/-- The spans of a token and those after it merge to one from the token's start to where the lexer
comes to. -/
theorem span_of_pieces {lx mid next : Lexer g} {first : Token κ} {more : List (Token κ)}
    (hstep : lx.step = .token first mid) (h : mid.Reads more next) :
    more.foldl (fun span t => span.merge t.span) first.span =
      Span.between lx.position next.position := by
  obtain ⟨hspan, hmid⟩ := span_of_step hstep
  have hbefore : lx.position.before mid.position = true := by
    rw [hmid]
    exact lx.position.before_advance (text_ne_nil_of_step hstep)
  rw [hspan]
  refine h.merge_spans (Position.not_before_of_before ?_ hbefore) ?_
  · simp [Position.before]
  · rw [hmid, Position.advance_filename]

/-- Wherever the tokens of a run are cut, the lexer comes to the cut, and those after it are the run
from there. -/
theorem of_run {lx : Lexer g} {before after : List (Token κ)} (h : lx.run.1 = before ++ after) :
    ∃ cut, lx.Reads before cut ∧ cut.run.1 = after ∧ cut.run.2 = lx.run.2 := by
  induction before generalizing lx with
  | nil => exact ⟨lx, .nil lx, h, rfl⟩
  | cons t before ih =>
    obtain ⟨next, hstep, hnext, herror⟩ := step_of_run_cons h
    obtain ⟨cut, hreads, hafter, hcut⟩ := ih hnext
    exact ⟨cut, .cons hstep hreads, hafter, hcut.trans herror⟩

end Reads

/-! ### Where tokens come from -/

theorem makes_of_act {lx next : Lexer g} {found : Char} {token : Token κ}
    (h : lx.act found = .read token next) : g.Makes token := by
  unfold act at h
  split at h
  · rename_i rule stop hm
    cases h
    obtain ⟨hrule, hstop⟩ := of_matchRule?_eq_some hm
    exact .rule hrule rfl hstop String.toList_ofList
  · split at h <;> cases h
    exact .fallback ‹_›

theorem makes_of_stepAt {found : Char} {budget : Nat} {lx next : Lexer g} {token : Token κ}
    (h : stepAt found budget lx = .token token next) : g.Makes token := by
  induction budget generalizing lx with
  | zero =>
    unfold stepAt at h
    split at h <;> cases h
    exact makes_of_act ‹_›
  | succ budget ih =>
    unfold stepAt at h
    split at h
    · cases h
      exact makes_of_act ‹_›
    · cases h
    · exact ih h

/-- Every token of a run is one that the grammar makes. -/
theorem makes_of_mem_run {lx : Lexer g} {token : Token κ} (h : token ∈ lx.run.1) :
    g.Makes token := by
  obtain ⟨before, after, hsplit⟩ := List.append_of_mem h
  obtain ⟨cut, -, hcut, -⟩ := Reads.of_run hsplit
  obtain ⟨next, hstep, -, -⟩ := step_of_run_cons hcut
  unfold step at hstep
  split at hstep
  · split at hstep <;> cases hstep
  · exact makes_of_stepAt hstep

/-- Two lexers with the same step run alike. -/
theorem run_of_step_eq {lx other : Lexer g} (h : lx.step = other.step) : lx.run = other.run := by
  cases hstep : other.step with
  | finished => rw [run_of_finished hstep, run_of_finished (h.trans hstep)]
  | failed e => rw [run_of_failed hstep, run_of_failed (h.trans hstep)]
  | token t next => rw [run_of_token hstep, run_of_token (h.trans hstep)]

end Lexer
end SqlDoc

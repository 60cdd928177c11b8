/-
# Prose in a comment

Text without markers, braces, brackets and backslashes is prose. Piece by piece it is read as line
ends, indentation, decoration and words, and what the words say is the text without decoration
(`Doc.run_prose`).

Key definitions: `Doc.Prose`, `Doc.Spells`, `Doc.shownChars`, `Doc.InProse`, `Doc.SaysPiece`.
Key theorems: `Doc.readPiece_prose`, `Doc.run_prose`.
-/
import SqlDoc.Proofs.Doc.Escapes
import SqlDoc.Proofs.Sql.Words

namespace SqlDoc

/-! ### Literals -/

/-- A check for the matcher of a literal. -/
def Matcher.isLiteral (chars : List Char) : Matcher → Bool
  | .literal found => found = chars
  | _ => false

theorem Matcher.eq_of_isLiteral {chars : List Char} {m : Matcher} (h : m.isLiteral chars = true) :
    m = .literal chars := by
  cases m with
  | literal found => rw [of_decide_eq_true h]
  | pattern | regex => cases h

namespace Doc

open Text (isBlank isLineEnd bareText)

/-! ### Prose -/

/-- The character means something in running text, wherever it stands. -/
def isSpecial (c : Char) : Bool :=
  "@\x7b\x7d[]\\".toList.contains c

/-- Nothing in the text means anything or ends the comment or begins another. -/
structure Prose (text : List Char) : Prop where
  special : ∀ c ∈ text, isSpecial c = false
  close : ¬ "*/".toList <:+: text
  start : ¬ "/**".toList <:+: text
  last : text.getLast? ≠ some '*'

theorem Prose.right {piece more : List Char} (h : Prose (piece ++ more)) : Prose more where
  special c hc := h.special c (List.mem_append_right piece hc)
  close hin := h.close (hin.trans (List.suffix_append piece more).isInfix)
  start hin := h.start (hin.trans (List.suffix_append piece more).isInfix)
  last hstar := h.last (by rw [List.getLast?_append, hstar]; rfl)

/-- What stands between an opening and a closing delimiter. -/
theorem prefix_cases {text piece : List Char} (h : piece <+: text ++ ['*', '/']) :
    piece <+: text ∨ piece = text ++ ['*'] ∨ piece = text ++ ['*', '/'] := by
  have hsplit : text ++ ['*', '/'] = (text ++ ['*']) ++ ['/'] := by simp
  rw [hsplit, List.prefix_concat_iff, List.prefix_concat_iff] at h
  rw [hsplit]
  tauto

theorem Prose.not_all_stars {text : List Char} (h : Prose text) (hne : text ≠ []) :
    ¬ ∀ c ∈ text, c = '*' := by
  intro hstars
  have hlast := List.getLast?_eq_some_getLast hne
  exact h.last (by rw [hlast, hstars _ (List.getLast_mem hne)])

/-! ### Pieces -/

/-- Tokens of the kind are words, marks and numbers of a prose. -/
def isWordy : DocKind → Bool
  | .hash => true
  | kind => isPlain kind && kind ≠ .whitespace

/-- The piece of a prose is a token of the kind. -/
inductive Spells : DocKind → List Char → Prop where
  | lineEnd {piece : List Char} (h : piece = ['\r', '\n'] ∨ piece = ['\r'] ∨ piece = ['\n']) :
      Spells .newline piece
  | blanks {piece : List Char} (hblank : ∀ c ∈ piece, isBlank c = true)
      (hline : ∀ c ∈ piece, isLineEnd c = false) : Spells .whitespace piece
  | stars {piece : List Char} (h : ∀ c ∈ piece, c = '*') : Spells .decoration piece
  | word {kind : DocKind} {piece : List Char} (hkind : isWordy kind = true)
      (hne : piece ≠ []) (hblank : ∀ c ∈ piece, isBlank c = false)
      (hhash : kind = .hash → piece = ['#']) :
      Spells kind piece

/-- What a reader is shown of a piece of a prose. -/
def shownChars : DocKind → List Char → List Char
  | .newline, _ => ['\n']
  | .decoration, _ => []
  | _, piece => piece

/-- What a reader is shown of the tokens of a prose. -/
def shownText (tokens : List DocToken) : List Char :=
  tokens.flatMap fun t => shownChars t.kind t.text.toList

/-- The rule reads a delimiter of comments, a line end, something that is no prose, or prose. -/
def checksProse (r : Rule DocKind Matcher (Fin 4)) : Bool :=
  r.kind = .commentStart && r.matcher.isLiteral "/**".toList ||
  r.kind = .commentEnd && r.matcher.isPattern commentEnd ||
  r.kind = .newline && r.matcher.isPattern .lineEnd ||
  r.matcher.mustContain isSpecial ||
  r.kind = .whitespace && r.matcher.isPattern .blanks ||
  isWordy r.kind && (r.kind = .url || r.matcher.avoids '*') &&
    Text.blankChars.all r.matcher.avoids && (r.kind ≠ .hash || r.matcher.isLiteral ['#'])

theorem checksProse_rules : (docGrammar.state (contentState [])).rules.all checksProse = true :=
  (by decide +kernel : (mainState.rules.all checksProse) = true)

variable {text piece : List Char} {lineStart : Bool}

/-- A piece without a star ends in the prose. -/
theorem prefix_of_no_star (hle : piece <+: text ++ ['*', '/']) (hstar : '*' ∉ piece) :
    piece <+: text := by
  rcases prefix_cases hle with h | rfl | rfl
  · exact h
  · exact absurd (List.mem_append_right text List.mem_cons_self) hstar
  · exact absurd (List.mem_append_right text List.mem_cons_self) hstar

/-- The start of a comment is not read in prose. -/
theorem Prose.not_commentStart (h : Prose text) : ¬ "/**".toList <+: text ++ ['*', '/'] := by
  intro hle
  rcases prefix_cases hle with hin | heq | heq
  · exact h.start hin.isInfix
  · have htext : text = ['/', '*'] := (List.append_inj_left' heq rfl).symm
    exact h.last (htext ▸ rfl)
  · have hlast := congrArg List.getLast? heq
    rw [List.getLast?_append] at hlast
    cases hlast

/-- The end of a comment is not read in prose. -/
theorem Prose.not_commentEnd (h : Prose text) (hne : text ≠ [])
    (hle : piece <+: text ++ ['*', '/']) : ¬ commentEnd.Describes piece := by
  intro hpiece
  obtain ⟨front, rfl, hstars⟩ :
      ∃ front, piece = front ++ ['*', '/'] ∧ ∀ c ∈ front, c = '*' := by
    change Pattern.Describes (.seq (.star (.literal "*"))
      (.seq (.set (.single '*')) (.set (.single '/')))) piece at hpiece
    cases hpiece with
    | @seq _ _ front _ hfront hback =>
      cases hback with
      | seq hstar hslash =>
        rw [hstar.eq_of_single, hslash.eq_of_single]
        refine ⟨front, rfl, fun c hc => ?_⟩
        have hmay : ((CharSet.single '*').mem c || false) = true := hfront.mayContain hc
        rwa [Bool.or_false, CharSet.mem_single, beq_iff_eq] at hmay
  rcases prefix_cases hle with hin | heq | heq
  · exact h.close ((List.suffix_append front ['*', '/']).isInfix.trans hin.isInfix)
  · have hlast := congrArg List.getLast? heq
    rw [List.getLast?_append, List.getLast?_append] at hlast
    cases hlast
  · have hfront : front = text := List.append_cancel_right heq
    exact h.not_all_stars hne (hfront ▸ hstars)

theorem not_special_of_mem (h : Prose text) {c : Char} (hc : c ∈ text ++ ['*', '/']) :
    isSpecial c = false := by
  rcases List.mem_append.1 hc with hc | hc
  · exact h.special c hc
  · exact forall_of_any (by decide) c hc

theorem not_isLineEnd_of_not_isBlank {c : Char} (h : isBlank c = false) : isLineEnd c = false := by
  refine Bool.eq_false_iff.2 fun hend => ?_
  rcases (Bool.or_eq_true _ _).mp hend with hc | hc <;>
  · rw [eq_of_beq hc] at h
    exact absurd h (by decide)

theorem innerBlank_mem (c : Char) : Pattern.innerBlank.mem c = (isBlank c && !isLineEnd c) := by
  have hmem : (CharSet.ofList ['\r', '\n']).mem c = isLineEnd c := by
    rw [CharSet.mem_ofList, isLineEnd, List.contains_cons, List.contains_cons, List.contains_nil,
      Bool.or_false, Bool.or_comm]
  rw [← hmem]
  rfl

theorem inner_of_describes_blanks (h : Pattern.blanks.Describes piece) :
    ∀ c ∈ piece, isBlank c = true ∧ isLineEnd c = false := by
  intro c hc
  have hmay : Pattern.innerBlank.mem c = true := h.mayContain hc
  rwa [innerBlank_mem, Bool.and_eq_true, Bool.not_eq_true'] at hmay

/-- A return is a line end of its own only if no line feed follows it. -/
theorem head?_of_return {source : List Char} {stop : Cursor source}
    (hstop : (Matcher.pattern .lineEnd).tokenEnd? source = some stop)
    (hreturn : source.take stop.seen = ['\r']) : (source.drop stop.seen).head? ≠ some '\n' := by
  intro hhead
  obtain ⟨rest, hdrop⟩ : ∃ rest, source.drop stop.seen = '\n' :: rest :=
    List.head?_eq_some_iff.1 hhead
  have hsource : source = '\r' :: '\n' :: rest := by
    rw [← List.take_append_drop stop.seen source, hreturn, hdrop]
    rfl
  subst hsource
  have htwo := Pattern.seen_of_lineEnd_return_feed (Matcher.matchAt?_of_pattern hstop)
  rw [htwo] at hreturn
  cases hreturn

/-- A rule for runs of characters reads something where there is one. -/
theorem not_mem_of_pieceIn?_none (id : Fin 4) {r : Rule DocKind Matcher (Fin 4)} {s : CharSet}
    (hr : r ∈ (docGrammar.state id).rules) (hm : r.matcher = .pattern (.many (.set s))) {c : Char}
    {rest : List Char} (hp : pieceIn? id (c :: rest) = none) : s.mem c = false := by
  refine Bool.eq_false_iff.2 fun hc => ?_
  have hread := List.findSome?_eq_none_iff.1 hp r hr
  rw [pieceOf?, Option.map_eq_none_iff, hm] at hread
  have hrest : (Cursor.start (c :: rest)).rest = c :: rest := rfl
  obtain ⟨stop, hstop⟩ := Pattern.matchAt?_many_isSome hrest hc
  cases hread.symm.trans (Matcher.tokenEnd?_of_matchAt? rfl hstop)

theorem blanks_mem (enclosing : List Delimiter) :
    rule .whitespace .blanks ∈ (docGrammar.state (contentState enclosing)).rules := by
  match enclosing with
  | [] => exact List.mem_of_getElem? (i := 3) rfl
  | .brace :: _ => exact List.mem_of_getElem? (i := 4) rfl
  | .bracket :: _ => exact List.mem_of_getElem? (i := 4) rfl

/-- A blank is read, in a run of blanks or as a line end. -/
theorem not_isBlank_of_pieceIn?_none {enclosing : List Delimiter} {c : Char} {rest : List Char}
    (hp : pieceIn? (contentState enclosing) (c :: rest) = none) : isBlank c = false := by
  cases hend : isLineEnd c with
  | true =>
    have hc : c = '\n' ∨ c = '\r' := by simpa [isLineEnd] using hend
    have hread :=
      List.findSome?_eq_none_iff.1 hp _ (newline_mem (fallback_contentState enclosing))
    rw [pieceOf?, Option.map_eq_none_iff] at hread
    exact absurd hread (lineEnd_reads hc rest)
  | false =>
    have hinner :=
      not_mem_of_pieceIn?_none (contentState enclosing) (blanks_mem enclosing) rfl hp
    rwa [innerBlank_mem, hend, Bool.not_false, Bool.and_true] at hinner

/-- A token of the kind says a piece of prose that stands in front of `after` in a line that has
begun. Only an address may go on past the prose. -/
structure InProse (text : List Char) (kind : DocKind) (piece after : List Char) : Prop where
  ne_nil : piece ≠ []
  within : kind = .url ∨ piece <+: text
  spells : Spells kind piece
  begun : kind ≠ .decoration
  whole : piece = ['\r'] → after.head? ≠ some '\n'

section

variable {source : List Char} {stop : Cursor source}

theorem inProse_lineEnd (hle : source.take stop.seen <+: text ++ ['*', '/'])
    (hstop : (Matcher.pattern .lineEnd).tokenEnd? source = some stop) :
    InProse text .newline (source.take stop.seen) (source.drop stop.seen) := by
  have hbreak := Pattern.eq_of_describes_lineEnd (Matcher.describes_of_pattern hstop)
  have hnostar : '*' ∉ source.take stop.seen := by
    rcases hbreak with hbreak | hbreak | hbreak <;> rw [hbreak] <;> decide
  exact ⟨Matcher.take_seen_ne_nil hstop, Or.inr (prefix_of_no_star hle hnostar), .lineEnd hbreak,
    DocKind.noConfusion, head?_of_return hstop⟩

theorem inProse_blanks (hle : source.take stop.seen <+: text ++ ['*', '/'])
    (hstop : (Matcher.pattern .blanks).tokenEnd? source = some stop) :
    InProse text .whitespace (source.take stop.seen) (source.drop stop.seen) := by
  have hall := inner_of_describes_blanks (Matcher.describes_of_pattern hstop)
  have hnostar : '*' ∉ source.take stop.seen := fun hmem => absurd (hall _ hmem).1 (by decide)
  refine ⟨Matcher.take_seen_ne_nil hstop, Or.inr (prefix_of_no_star hle hnostar),
    .blanks (fun c hc => (hall c hc).1) fun c hc => (hall c hc).2, DocKind.noConfusion,
    fun hreturn => ?_⟩
  exact absurd (hall '\r' (hreturn ▸ List.mem_cons_self)).2 (by decide)

/-- What is read without blanks is a word. -/
theorem inProse_word {kind : DocKind} {after : List Char} (hkind : isWordy kind = true)
    (hne : piece ≠ []) (hwithin : kind = .url ∨ piece <+: text)
    (hblank : ∀ c ∈ piece, isBlank c = false) (hhash : kind = .hash → piece = ['#']) :
    InProse text kind piece after := by
  refine ⟨hne, hwithin, .word hkind hne hblank hhash, fun hstars => ?_, fun hreturn => ?_⟩
  · rw [hstars] at hkind
    cases hkind
  · exact absurd (hblank '\r' (hreturn ▸ List.mem_cons_self)) (by decide)

/-- What a rule reads at the start of prose is prose. -/
theorem inProse_of_rule (h : Prose text) (hne : text ≠ []) {r : Rule DocKind Matcher (Fin 4)}
    (hr : r ∈ (docGrammar.state (contentState [])).rules)
    (hle : source.take stop.seen <+: text ++ ['*', '/'])
    (hstop : r.matcher.tokenEnd? source = some stop) :
    InProse text r.kind (source.take stop.seen) (source.drop stop.seen) := by
  have hcheck := List.all_eq_true.1 checksProse_rules r hr
  simp only [checksProse, Bool.or_eq_true, Bool.and_eq_true, decide_eq_true_eq] at hcheck
  rcases hcheck with ((((⟨-, hstart⟩ | ⟨-, hclose⟩) | ⟨hend, hline⟩) | hspecial) |
    ⟨hspace, hblanks⟩) | ⟨⟨⟨hword, hstar⟩, hblank⟩, hhash⟩
  · rw [Matcher.eq_of_isLiteral hstart] at hstop
    rw [Matcher.take_of_literal hstop] at hle
    exact absurd hle h.not_commentStart
  · rw [Matcher.eq_of_isPattern hclose] at hstop
    exact absurd (Matcher.describes_of_pattern hstop) (h.not_commentEnd hne hle)
  · rw [Matcher.eq_of_isPattern hline] at hstop
    rw [hend]
    exact inProse_lineEnd hle hstop
  · obtain ⟨d, hd, hspecial⟩ := Matcher.exists_mem_of_mustContain hspecial hstop
    rw [not_special_of_mem h (hle.subset hd)] at hspecial
    cases hspecial
  · rw [Matcher.eq_of_isPattern hblanks] at hstop
    rw [hspace]
    exact inProse_blanks hle hstop
  · refine inProse_word hword (Matcher.take_seen_ne_nil hstop) ?_ (fun c hc => ?_) fun hk => ?_
    · exact hstar.imp_right fun havoids =>
        prefix_of_no_star hle (Matcher.not_mem_of_avoids havoids hstop)
    · refine Bool.eq_false_iff.2 fun hblankc => ?_
      have havoids := List.all_eq_true.1 hblank c (Text.mem_blankChars hblankc)
      exact Matcher.not_mem_of_avoids havoids hstop hc
    · rw [Matcher.eq_of_isLiteral (hhash.resolve_left (not_not.2 hk))] at hstop
      exact Matcher.take_of_literal hstop

end

/-- Away from the start of a line prose is read as line ends, blanks and words. -/
theorem contentPiece_prose (h : Prose text) (hne : text ≠ []) :
    let source := text ++ ['*', '/']
    let p := contentPiece [] source
    InProse text p.kind (source.take p.length) (source.drop p.length) := by
  intro source p
  cases hp : pieceIn? (contentState []) source with
  | none =>
    obtain ⟨c, more, rfl⟩ := List.exists_cons_of_ne_nil hne
    have hone : p = ⟨.text, 1, String.ofList [c]⟩ := by
      show contentPiece [] source = _
      rw [contentPiece, hp]
      rfl
    have hblank : isBlank c = false := not_isBlank_of_pieceIn?_none hp
    rw [hone]
    exact inProse_word rfl (List.cons_ne_nil c []) (Or.inr ⟨more, rfl⟩)
      (List.forall_mem_singleton.2 hblank) DocKind.noConfusion
  | some found =>
    have hfound : p = found := by
      show contentPiece [] source = _
      rw [contentPiece, hp]
      rfl
    obtain ⟨r, hr, hread⟩ := List.exists_of_findSome?_eq_some hp
    obtain ⟨stop, hstop, hfrom⟩ := Option.map_eq_some_iff.1 hread
    rw [hfound, ← hfrom]
    exact inProse_of_rule h hne hr (List.take_prefix stop.seen source) hstop

/-! ### Starts of lines -/

/-- At the start of a line indentation and stars are read, of these all. -/
theorem lineStartPiece_prose (h : Prose text) (hne : text ≠ []) {p : Piece}
    (hp : pieceIn? 1 (text ++ ['*', '/']) = some p) :
    let source := text ++ ['*', '/']
    let piece := source.take p.length
    piece ≠ [] ∧ piece <+: text ∧
      (p.kind = .whitespace ∧ (∀ c ∈ piece, isBlank c = true ∧ isLineEnd c = false) ∨
        p.kind = .decoration ∧ (∀ c ∈ piece, c = '*') ∧
          (source.drop p.length).head? ≠ some '*') := by
  intro source piece
  have hle : piece <+: source := List.take_prefix p.length source
  obtain ⟨r, hr, hread⟩ := List.exists_of_findSome?_eq_some hp
  obtain ⟨stop, hstop, rfl⟩ := Option.map_eq_some_iff.1 hread
  have hr : r ∈ [rule .commentEnd commentEnd .pop, rule .whitespace .blanks,
    rule .decoration (.many (.literal "*")) .pop] := hr
  have hnil : piece ≠ [] := Matcher.take_seen_ne_nil hstop
  simp only [List.mem_cons, List.not_mem_nil, or_false] at hr
  rcases hr with rfl | rfl | rfl
  · exact absurd (Matcher.describes_of_pattern hstop) (h.not_commentEnd hne hle)
  · have hall : ∀ c ∈ piece, isBlank c = true ∧ isLineEnd c = false :=
      inner_of_describes_blanks (Matcher.describes_of_pattern hstop)
    have hnostar : '*' ∉ piece := fun hmem => absurd (hall _ hmem).1 (by decide)
    exact ⟨hnil, prefix_of_no_star hle hnostar, Or.inl ⟨rfl, hall⟩⟩
  · have hstars : ∀ c ∈ piece, c = '*' := by
      intro c hc
      have hmay : (CharSet.single '*').mem c = true :=
        (Matcher.describes_of_pattern hstop).mayContain hc
      rwa [CharSet.mem_single, beq_iff_eq] at hmay
    have hwithin : piece <+: text := by
      rcases prefix_cases hle with hin | heq | heq
      · exact hin
      · refine absurd (fun c hc => hstars c ?_) (h.not_all_stars hne)
        rw [heq]
        exact List.mem_append_left _ hc
      · have hslash : '/' ∈ piece := heq ▸ List.mem_append_right text (by simp)
        exact absurd (hstars '/' hslash) (by decide)
    have hrest : source.drop stop.seen = source.dropWhile (CharSet.single '*').mem := by
      rw [stop.rest_eq]
      exact Pattern.rest_of_matchAt?_many (Matcher.matchAt?_of_pattern hstop)
    refine ⟨hnil, hwithin, Or.inr ⟨rfl, hstars, fun hhead => ?_⟩⟩
    have hhead : (source.dropWhile (CharSet.single '*').mem).head? = some '*' := hrest ▸ hhead
    have hnot := List.head?_dropWhile_not (CharSet.single '*').mem source
    rw [hhead] at hnot
    have hnot : (CharSet.single '*').mem '*' = false := hnot
    rw [CharSet.mem_single, beq_self_eq_true] at hnot
    cases hnot

/-- Where nothing of that is read, the line has begun. -/
theorem head_of_pieceIn?_none (hp : pieceIn? 1 (text ++ ['*', '/']) = none) :
    ∀ c ∈ text.head?, (isLineEnd c = true ∨ isBlank c = false) ∧ c ≠ '*' := by
  intro c hc
  obtain ⟨more, rfl⟩ := List.head?_eq_some_iff.1 hc
  have hspace : rule .whitespace .blanks ∈ lineStartState.rules :=
    List.mem_cons_of_mem _ List.mem_cons_self
  have hstars : rule .decoration (.many (.literal "*")) .pop ∈ lineStartState.rules :=
    List.mem_cons_of_mem _ (List.mem_cons_of_mem _ List.mem_cons_self)
  have hinner := not_mem_of_pieceIn?_none 1 hspace rfl hp
  have hstar := not_mem_of_pieceIn?_none 1 (s := .single '*') hstars rfl hp
  rw [innerBlank_mem, Bool.and_eq_false_iff, Bool.not_eq_false'] at hinner
  rw [CharSet.mem_single, beq_eq_false_iff_ne] at hstar
  exact ⟨hinner.symm, hstar⟩

/-! ### Prose piece by piece -/

theorem Spells.openAfter_nil {kind : DocKind} (h : Spells kind piece) : openAfter [] kind = [] := by
  cases h with
  | word hkind => cases kind <;> first | rfl | cases hkind
  | _ => rfl

theorem Spells.ne_commentEnd {kind : DocKind} (h : Spells kind piece) : kind ≠ .commentEnd := by
  rintro rfl
  cases h with
  | word hkind => cases hkind

theorem Spells.opens_nothing {kind : DocKind} (h : Spells kind piece) :
    kind ∉ [.tag, .lbrace, .lbracket] := by
  cases h with
  | word hkind => cases kind <;> first | cases hkind; done | decide
  | _ => decide

theorem startsLine_of_isWordy {kind : DocKind} (h : isWordy kind = true) :
    startsLine kind = false := by
  cases kind <;> first | rfl | cases h

theorem shownChars_of_isWordy {kind : DocKind} (h : isWordy kind = true) :
    shownChars kind piece = piece := by
  cases kind <;> first | rfl | cases h

/-- In a line that has begun every piece but a line end is shown as it is. -/
theorem bareText_of_spells {kind : DocKind} {more : List Char} (h : Spells kind piece)
    (hkind : kind ≠ .decoration) (hfeed : piece = ['\r'] → more.head? ≠ some '\n') :
    bareText false (piece ++ more) = shownChars kind piece ++ bareText (startsLine kind) more := by
  cases h with
  | lineEnd hend => exact Text.bareText_lineEnd hend hfeed
  | blanks _ hline => exact Text.bareText_begun hline
  | stars => exact absurd rfl hkind
  | word hwordy _ hblank =>
    rw [startsLine_of_isWordy hwordy, shownChars_of_isWordy hwordy]
    exact Text.bareText_begun fun c hc => not_isLineEnd_of_not_isBlank (hblank c hc)

/-- A token of the kind says the piece with which prose begins. The line of what follows it has
begun, unless `next`. -/
structure SaysPiece (text : List Char) (lineStart : Bool) (kind : DocKind) (piece : List Char)
    (next : Bool) : Prop where
  ne_nil : piece ≠ []
  within : kind = .url ∨ piece <+: text
  spells : Spells kind piece
  shown : ∀ more, text = piece ++ more →
    bareText lineStart text = shownChars kind piece ++ bareText next more

/-- What follows a piece in front of the end of the comment begins as what follows it in all. -/
theorem head?_of_drop {source more : List Char} {n : Nat} {c : Char}
    (hsource : source = text ++ ['*', '/']) (htext : text = source.take n ++ more)
    (h : (source.drop n).head? ≠ some c) : more.head? ≠ some c := by
  have hmore : source.drop n = more ++ ['*', '/'] := by
    refine List.append_cancel_left ((List.take_append_drop n source).trans ?_)
    rw [← List.append_assoc, ← htext, hsource]
  intro hhead
  obtain ⟨rest, rfl⟩ := List.head?_eq_some_iff.1 hhead
  rw [hmore] at h
  exact h rfl

/-- Away from the start of a line, or where nothing of that is read. -/
theorem saysPiece_begun (h : Prose text) (hne : text ≠ [])
    (hbegun : bareText lineStart text = bareText false text) :
    let source := text ++ ['*', '/']
    let p := contentPiece [] source
    SaysPiece text lineStart p.kind (source.take p.length) (startsLine p.kind) := by
  intro source p
  obtain ⟨hnil, hwithin, hspells, hdecoration, hfeed⟩ := contentPiece_prose h hne
  refine ⟨hnil, hwithin, hspells, fun more htext => ?_⟩
  rw [hbegun]
  refine (congrArg (bareText false) htext).trans ?_
  exact bareText_of_spells hspells hdecoration fun hreturn =>
    head?_of_drop rfl htext (hfeed hreturn)

/-- At the start of a line. -/
theorem saysPiece_lineStart (h : Prose text) (hne : text ≠ []) {p : Piece}
    (hp : pieceIn? 1 (text ++ ['*', '/']) = some p) :
    let source := text ++ ['*', '/']
    SaysPiece text true p.kind (source.take p.length) (decide (p.kind = .whitespace)) := by
  intro source
  obtain ⟨hnil, hwithin, ⟨hkind, hall⟩ | ⟨hkind, hstars, hhead⟩⟩ := lineStartPiece_prose h hne hp
  · have hblank : ∀ c ∈ source.take p.length, isBlank c = true := fun c hc => (hall c hc).1
    have hunbroken : ∀ c ∈ source.take p.length, isLineEnd c = false := fun c hc => (hall c hc).2
    rw [hkind]
    refine ⟨hnil, Or.inr hwithin, .blanks hblank hunbroken, fun more htext => ?_⟩
    exact (congrArg (bareText true) htext).trans (Text.bareText_blanks hblank hunbroken)
  · rw [hkind]
    refine ⟨hnil, Or.inr hwithin, .stars hstars, fun more htext => ?_⟩
    refine (congrArg (bareText true) htext).trans ?_
    exact Text.bareText_stars hnil hstars (head?_of_drop rfl htext hhead)

/-- A piece of prose is read as what it says. -/
theorem readPiece_prose (lineStart : Bool) (h : Prose text) (hne : text ≠ []) :
    let source := text ++ ['*', '/']
    let read := readPiece lineStart [] source
    SaysPiece text lineStart read.1.kind (source.take read.1.length) read.2 := by
  intro source read
  cases hline : pieceIn? 1 source with
  | none =>
    rw [show read = _ from readPiece_of_none hline lineStart]
    refine saysPiece_begun h hne ?_
    cases lineStart with
    | false => rfl
    | true => exact Text.bareText_start (head_of_pieceIn?_none hline)
  | some found =>
    cases lineStart with
    | false => exact saysPiece_begun h hne rfl
    | true =>
      rw [show read = _ from readPiece_of_some hline]
      exact saysPiece_lineStart h hne hline

/-- Where an address has taken the end of the comment, nothing ends it. -/
theorem Stands.kind_ne_commentEnd {lx : Lexer docGrammar} (h : Stands lineStart [] lx)
    (hrest : lx.rest = ['/'] ∨ lx.rest = []) : ∀ t ∈ lx.run.1, t.kind ≠ .commentEnd := by
  have hrun (lx : Lexer docGrammar) (hrest : lx.rest = []) : lx.run.1 = [] := by
    rw [Lexer.run_of_finished (Lexer.step_of_endError?_none hrest (endError?_eq_none lx))]
  rcases hrest with hrest | hrest
  · obtain ⟨hkind, hone⟩ : (readPiece lineStart [] ['/']).1.kind = .text ∧
        (readPiece lineStart [] ['/']).1.length = 1 := by
      cases lineStart <;> decide
    obtain ⟨next, hcons, hleft, -⟩ := h.run_cons hrest (List.cons_ne_nil _ _)
    have hleft : next.rest = [] := hleft.trans (congrArg (List.drop · _) hone)
    rw [hcons, hrun next hleft]
    refine List.forall_mem_singleton.2 fun hclose => ?_
    cases hkind.symm.trans hclose
  · rw [hrun lx hrest]
    exact List.forall_mem_nil _

/-- At the end of the comment that end is read, and nothing more. -/
theorem Stands.run_close {lx : Lexer docGrammar} (h : Stands lineStart [] lx)
    (hrest : lx.rest = ['*', '/']) : ∃ close, lx.run.1 = [close] ∧ close.kind = .commentEnd := by
  have hend : (readPiece lineStart [] ['*', '/']).1.kind = .commentEnd ∧
      (readPiece lineStart [] ['*', '/']).1.length = 2 := by
    cases lineStart <;> decide +kernel
  obtain ⟨next, hrun, hleft, -⟩ := h.run_cons hrest (List.cons_ne_nil _ _)
  have hleft : next.rest = [] := hleft.trans (congrArg (List.drop · _) hend.2)
  have hfinished := Lexer.step_of_endError?_none hleft (endError?_eq_none next)
  rw [Lexer.run_of_finished hfinished] at hrun
  exact ⟨_, hrun, hend.1⟩

/-- An address that went on past the prose would have taken the end of the comment. -/
theorem Stands.within {next : Lexer docGrammar} (h : Stands lineStart [] next)
    (hsplit : piece ++ next.rest = text ++ ['*', '/']) {last : DocToken}
    (hmem : last ∈ next.run.1) (hend : last.kind = .commentEnd) : piece <+: text := by
  rcases prefix_cases ⟨next.rest, hsplit⟩ with hle | heq | heq
  · exact hle
  · refine absurd hend (h.kind_ne_commentEnd (Or.inl ?_) last hmem)
    rw [heq] at hsplit
    exact List.append_cancel_left (hsplit.trans (List.append_assoc text ['*'] ['/']).symm)
  · refine absurd hend (h.kind_ne_commentEnd (Or.inr ?_) last hmem)
    rw [heq] at hsplit
    exact List.append_cancel_left (hsplit.trans (List.append_nil _).symm)

/-- What prose says is read before the end of the comment, if that is not taken for the end of an
address. -/
theorem run_prose {lx : Lexer docGrammar} (hstands : Stands lineStart [] lx) (h : Prose text)
    (hrest : lx.rest = text ++ ['*', '/'])
    (hclose : ∃ t, lx.run.1.getLast? = some t ∧ t.kind = .commentEnd) :
    ∃ tokens close, lx.run.1 = tokens ++ [close] ∧ close.kind = .commentEnd ∧
      (∀ t ∈ tokens, Spells t.kind t.text.toList) ∧
      shownText tokens = bareText lineStart text := by
  induction hn : text.length using Nat.strongRecOn generalizing lineStart lx text with
  | ind n ih =>
    by_cases hne : text = []
    · subst hne
      obtain ⟨close, hrun, hkind⟩ := hstands.run_close hrest
      refine ⟨[], close, hrun, hkind, fun _ ht => absurd ht List.not_mem_nil, ?_⟩
      cases lineStart <;> rfl
    · obtain ⟨next, hrun, hleft, hnext⟩ :=
        hstands.run_cons hrest (List.append_ne_nil_of_left_ne_nil hne _)
      obtain ⟨hnil, -, hspells, hshown⟩ := readPiece_prose lineStart h hne
      rw [hspells.openAfter_nil] at hnext
      set source := text ++ ['*', '/']
      set p := (readPiece lineStart [] source).1
      have hsplit : source.take p.length ++ next.rest = source := by
        rw [hleft, List.take_append_drop]
      obtain ⟨last, hlast, hend⟩ := hclose
      have hmem : last ∈ next.run.1 := by
        rcases List.mem_cons.1 (hrun ▸ List.mem_of_getLast? hlast) with rfl | hmem
        · exact absurd hend hspells.ne_commentEnd
        · exact hmem
      have hlast : next.run.1.getLast? = some last := by
        obtain ⟨t, tokens, hcons⟩ := List.exists_cons_of_ne_nil (List.ne_nil_of_mem hmem)
        rw [hrun, hcons, List.getLast?_cons_cons] at hlast
        rwa [hcons]
      obtain ⟨more, hmore⟩ := hnext.within hsplit hmem hend
      have hrest' : next.rest = more ++ ['*', '/'] := by
        refine List.append_cancel_left (hsplit.trans ?_)
        rw [← List.append_assoc, hmore]
      have hless : more.length < n := by
        have := List.length_pos_iff.2 hnil
        rw [← hn, ← hmore, List.length_append]
        omega
      have hprose : Prose more := Prose.right (hmore.symm ▸ h)
      obtain ⟨tokens, close, hall, hclose, hspell, hbare⟩ :=
        ih _ hless hnext hprose hrest' ⟨last, hlast, hend⟩ rfl
      have htext : (p.token source lx.position).text.toList = source.take p.length :=
        String.toList_ofList
      refine ⟨p.token source lx.position :: tokens, close, ?_, hclose, ?_, ?_⟩
      · rw [hrun, hall]
        rfl
      · refine List.forall_mem_cons.2 ⟨?_, hspell⟩
        rw [htext]
        exact hspells
      · rw [shownText, List.flatMap_cons, htext, hshown more hmore.symm, ← hbare]
        rfl

end Doc
end SqlDoc

/-
# Tags from a marker on

A marker at the start of a line begins a tag, whatever the tags before it have left open: they end
there. So the tags from it on are those that are read from its token on
(`TagReader.tags_from_marker`). The tokens themselves depend on what is open for the lexer, which
does not go by markers: behind a brace that is never closed texts in quotes are still read as such
(`parseComment_quotes_after_brace`). Where nothing is open, or nothing behind the marker is read
otherwise inside braces, a comment is read from the marker on as the text from there alone
(`lexDoc_from_marker`, `parseComment_from_marker`).

Key definitions: `Doc.StartsWithMarker`.
Key theorems: `TagReader.tags_from_marker`, `lexDoc_from_marker`, `parseComment_from_marker`.
-/
import SqlDoc.Proofs.Doc.Pieces
import SqlDoc.Proofs.Doc.Spans

namespace SqlDoc

/-! ### Tags -/

namespace TagState

variable {s : TagState}

theorem kind?_of_startsTag (h : s.startsTag = true) : s.kind? = some .tag :=
  eq_of_beq (Bool.and_eq_true_iff.1 h).2

theorem lt_length_of_startsTag {b : Nat} (h : (s.after b).startsTag = true) :
    b < s.rest.length := by
  obtain ⟨t, rest, hrest, -⟩ := rest_ne_nil_of_kind? (kind?_of_startsTag h)
  rw [rest_after] at hrest
  exact List.length_lt_of_drop_ne_nil (hrest ▸ List.cons_ne_nil t rest)

theorem takeWhile_of_accept {p : TagState → Bool} {t : DocToken} {rest : List DocToken}
    (hrest : s.rest = t :: rest) (hp : p s = true) :
    (s.takeWhile p).2 = ((s.pass t rest).takeWhile p).2 := by
  rw [takeWhile.eq_def p s]
  split
  · rename_i h
    rw [hrest] at h
    cases h
  · rename_i h
    rw [hrest] at h
    cases h
    rw [if_pos hp]

end TagState

namespace TagReader

variable {s : TagState}

/-- Layout may be read before layout is skipped. -/
theorem skipLayout_after {j : Nat} (h : s.LayoutFor j) :
    skipLayout.run (s.after j) = skipLayout.run s := by
  induction j with
  | zero => rfl
  | succ j ih =>
    rw [← ih fun i hi => h i (Nat.lt_succ_of_lt hi)]
    have hkind := h j (Nat.lt_succ_self j)
    obtain ⟨kind, hsome, -⟩ := (Option.any_eq_true _ _).1 hkind
    obtain ⟨t, rest, hrest, -⟩ := TagState.rest_ne_nil_of_kind? hsome
    have hstep := TagState.takeWhile_of_accept (p := fun s => s.kind?.any DocKind.isLayout)
      hrest hkind
    show ((), _) = ((), ((s.after j).takeWhile fun s => s.kind?.any DocKind.isLayout).2)
    rw [hstep, ← TagState.take_eq_pass hrest]
    rfl

theorem nextTag_after {j : Nat} (h : s.LayoutFor j) :
    nextTag.run (s.after j) = nextTag.run s := by
  rw [nextTag, run_bind, run_bind, skipLayout_after h]
  rfl

/-- Wherever a marker begins a line, the tags before it end. -/
theorem tags_from_marker {b n m : Nat} (hs : s.InOrder) (hb : (s.after b).startsTag = true)
    (hn : s.rest.length ≤ n) (hm : (s.after b).rest.length ≤ m) :
    ∃ before, ((tagsUpTo n).run s).1 = before ++ ((tagsUpTo m).run (s.after b)).1 ∧
      ∀ t ∈ before, t.span.start < (s.after b).stop := by
  have hlt := TagState.lt_length_of_startsTag hb
  induction n generalizing s b with
  | zero => omega
  | succ n ih =>
    obtain ⟨j, hj, hlayout, hnext⟩ := nextTag_cases hs
    have hjb : j ≤ b := by
      refine Nat.le_of_not_lt fun hbj => ?_
      have := hlayout b hbj
      rw [TagState.kind?_of_startsTag hb] at this
      cases this
    rcases hnext with ⟨hrest, -⟩ | ⟨k, t, ht, hrun⟩
    · rw [s.rest_after, List.drop_eq_nil_iff] at hrest
      omega
    have hpos := ht.pos
    have hless {l : Nat} (hl : s.rest.length ≤ l + 1) : (s.after (j + k)).rest.length ≤ l := by
      rw [s.rest_after, List.length_drop]
      omega
    rw [tagsUpTo, run_bind, hrun]
    show ∃ before, t :: ((tagsUpTo n).run (s.after (j + k))).1 = _ ∧ _
    rcases Nat.lt_or_eq_of_le hjb with hjb | rfl
    · have hkb : j + k ≤ b := by
        refine Nat.le_of_not_lt fun hbk => ?_
        have hunmarked := ht.unmarked (b - j) (by omega) (by omega)
        rw [← s.after_add, Nat.add_sub_cancel' hjb.le, hb] at hunmarked
        cases hunmarked
      obtain ⟨c, rfl⟩ := Nat.exists_eq_add_of_le hkb
      rw [s.after_add (j + k) c] at hb hm ⊢
      obtain ⟨before, htags, hbefore⟩ := ih (hs.after (j + k)) hb (hless hn) hm
        (TagState.lt_length_of_startsTag hb)
      refine ⟨t :: before, congrArg (t :: ·) htags, List.forall_mem_cons.2 ⟨?_, hbefore⟩⟩
      have hspan := (hs.after j).place_lt_stop hpos ht.le
      rw [ht.span]
      rw [← s.after_add] at hspan
      exact hspan.trans_le ((hs.after (j + k)).stop_le c)
    · refine ⟨[], ?_, fun _ h => absurd h List.not_mem_nil⟩
      obtain ⟨m, rfl⟩ : ∃ l, m = l + 1 := Nat.exists_eq_succ_of_ne_zero (by
        rw [s.rest_after, List.length_drop] at hm
        omega)
      rw [tagsUpTo, run_bind, nextTag_after hlayout, hrun]
      refine congrArg (t :: ·) (tagsUpTo_eq (hs.after (j + k)) (hless hn) ?_)
      rw [s.rest_after, List.length_drop] at hm ⊢
      omega

end TagReader

/-! ### Tokens -/

namespace Lexer.Reads

variable {κ : Type} {g : Grammar κ}

/-- Some token holds the character behind a part of a text that is read to its end. -/
theorem exists_covering {lx last : Lexer g} {tokens : List (Token κ)} (h : lx.Reads tokens last)
    (hlast : last.rest = []) {front post : List Char} {c : Char}
    (htext : lx.rest = front ++ c :: post) :
    ∃ before t after mid next inFront inPost, tokens = before ++ t :: after ∧
      lx.Reads before mid ∧ mid.step = .token t next ∧ next.Reads after last ∧
      t.text.toList = inFront ++ c :: inPost ∧ post = inPost ++ next.rest ∧
      front = (tokensText before).toList ++ inFront := by
  induction h generalizing front with
  | nil =>
    rw [hlast] at htext
    cases front <;> cases htext
  | @cons lx mid last t tokens hstep h ih =>
    have hcases : (∃ more, front = t.text.toList ++ more ∧ mid.rest = more ++ c :: post) ∨
        ∃ inPost, t.text.toList = front ++ c :: inPost ∧ post = inPost ++ mid.rest := by
      rcases List.append_eq_append_iff.1 ((step_text hstep).trans htext) with h | ⟨more, ht, hmore⟩
      · exact Or.inl h
      · cases more with
        | nil => exact Or.inl ⟨[], by rw [ht, List.append_nil, List.append_nil], hmore.symm⟩
        | cons d more =>
          obtain ⟨rfl, hpost⟩ := List.cons.inj hmore
          exact Or.inr ⟨more, ht, hpost⟩
    rcases hcases with ⟨more, rfl, hmid⟩ | ⟨inPost, ht, hpost⟩
    · obtain ⟨before, u, after, mid', next, inFront, inPost, rfl, hreads, hstep', hafter, hu, hpost,
        rfl⟩ := ih hlast hmid
      refine ⟨t :: before, u, after, mid', next, inFront, inPost, rfl, .cons hstep hreads, hstep',
        hafter, hu, hpost, ?_⟩
      rw [tokensText_cons, String.toList_append, List.append_assoc]
    · exact ⟨[], t, tokens, lx, mid, front, inPost, rfl, .nil lx, hstep, h, ht, hpost, rfl⟩

theorem position_le {lx next : Lexer g} {tokens : List (Token κ)} (h : lx.Reads tokens next) :
    lx.position ≤ next.position := by
  induction h with
  | nil => exact le_refl _
  | cons hstep _ ih => exact (position_lt_of_step hstep).le.trans ih

theorem snoc {lx mid next : Lexer g} {tokens : List (Token κ)} {t : Token κ}
    (h : lx.Reads tokens mid) (hstep : mid.step = .token t next) :
    lx.Reads (tokens ++ [t]) next := by
  induction h with
  | nil => exact .cons hstep (.nil next)
  | cons hstep' _ ih => exact .cons hstep' (ih hstep)

/-- Tokens begin before the place that reading comes to. -/
theorem start_le {lx next : Lexer g} {tokens : List (Token κ)} (h : lx.Reads tokens next) :
    ∀ t ∈ tokens, t.span.start ≤ next.position := by
  induction h with
  | nil => exact fun _ h => absurd h List.not_mem_nil
  | cons hstep h ih =>
    refine List.forall_mem_cons.2 ⟨?_, ih⟩
    rw [(span_of_step hstep).1]
    exact (position_lt_of_step hstep).le.trans h.position_le

end Lexer.Reads

theorem InOrderFrom.le_start {p : Position} {tokens : List DocToken} (h : InOrderFrom p tokens) :
    ∀ t ∈ tokens, p ≤ t.span.start := by
  induction tokens generalizing p with
  | nil => exact fun _ h => absurd h List.not_mem_nil
  | cons t tokens ih =>
    obtain ⟨hstart, hspan, hrest⟩ := h
    exact List.forall_mem_cons.2
      ⟨hstart, fun u hu => (hstart.trans hspan.le).trans (ih hrest u hu)⟩

namespace Doc

open Pattern (set star)

/-- A text that begins with a marker: an at sign and a letter. -/
def StartsWithMarker (text : List Char) : Prop :=
  ∃ c rest, text = '@' :: c :: rest ∧ Text.isAlphabetic c = true

variable {enclosing : List Delimiter} {lx next : Lexer docGrammar}

/-- The tokens that begin before a place inside of a token or at its end are those up to it. -/
theorem filter_before {before after : List DocToken} {t : DocToken} {p : Position}
    {lx mid next last : Lexer docGrammar} (hbefore : lx.Reads before mid)
    (hstep : mid.step = .token t next) (hafter : next.Reads after last) (hmid : mid.position < p)
    (hnext : p ≤ next.position) :
    (before ++ t :: after).filter (fun t => t.span.start < p) = before ++ [t] := by
  have hstart : t.span.start = mid.position := by
    rw [(Lexer.span_of_step hstep).1]
    rfl
  have hkeep : before.filter (fun t => t.span.start < p) = before :=
    List.filter_eq_self.2 fun u hu => decide_eq_true ((hbefore.start_le u hu).trans_lt hmid)
  have hdrop : after.filter (fun t => t.span.start < p) = [] := by
    refine List.filter_eq_nil_iff.2 fun u hu hlt => ?_
    have hlt : u.span.start < p := of_decide_eq_true hlt
    exact lt_irrefl _ (hlt.trans_le (hnext.trans (hafter.inOrder.le_start u hu)))
  rw [List.filter_append, List.filter_cons, hkeep, hdrop, hstart, if_pos (decide_eq_true hmid)]

/-- The token with a line end in front of a marker is that line end, unless it is a text in quotes
inside delimiters. -/
theorem newline_of_step {lineStart : Bool} {mid : Lexer docGrammar} {t : DocToken} {c : Char}
    {inFront inPost : List Char} (hstands : Stands lineStart enclosing mid)
    (hstep : mid.step = .token t next) (hc : c = '\n' ∨ c = '\r')
    (ht : t.text.toList = inFront ++ c :: inPost) (hpost : StartsWithMarker (inPost ++ next.rest))
    (hopen : t.kind = .string → enclosing = [] ∨ IsQuiet inPost) :
    t.kind = .newline ∧ inPost = [] := by
  have hrest : mid.rest = inFront ++ c :: inPost ++ next.rest := by
    rw [← Lexer.step_text hstep, ht]
  obtain ⟨found, rest, hfound⟩ : ∃ found rest, mid.rest = found :: rest := by
    rw [hrest]
    cases inFront <;> exact ⟨_, _, rfl⟩
  obtain ⟨next', hstep', -⟩ := hstands.step hfound
  have htoken := (Lexer.Outcome.token.inj (hstep.symm.trans hstep')).1
  have hkind : t.kind = (readPiece lineStart enclosing mid.rest).1.kind :=
    congrArg Token.kind htoken
  have hpiece : mid.rest.take (readPiece lineStart enclosing mid.rest).1.length =
      inFront ++ c :: inPost := by
    rw [← ht, htoken]
    exact String.toList_ofList.symm
  have hmem : c ∈ mid.rest.take (readPiece lineStart enclosing mid.rest).1.length := by
    rw [hpiece]
    exact List.mem_append_right inFront List.mem_cons_self
  rw [hkind]
  rcases readPiece_lineEnd hc hmem with ⟨hnewline, hends⟩ | ⟨hstring, hreturn⟩
  · refine ⟨hnewline, ?_⟩
    -- an at sign is in no line end
    cases inPost with
    | nil => rfl
    | cons d inPost =>
      obtain ⟨letter, rest, hmarker, -⟩ := hpost
      obtain rfl : d = '@' := (List.cons.inj hmarker).1
      rw [hpiece] at hends
      have hnone : ∀ piece ∈ [['\r', '\n'], ['\r'], ['\n']], '@' ∉ piece := by decide
      exact absurd (by simp) (hnone _ hends)
  · obtain ⟨hne, quote, hquote, hlast⟩ := readPiece_string hstring
    rcases hopen (hkind.trans hstring) with hnil | hquiet
    · exact absurd hnil hne
    · rw [hpiece, List.getLast?_append, List.getLast?_cons, Option.some_or, ← List.getLast?_cons]
        at hlast
      rcases List.mem_cons.1 (List.mem_of_getLast? hlast) with rfl | hmem
      · rcases hquote with rfl | rfl <;> cases hreturn
      · rcases hquote with rfl | rfl
        · exact absurd hmem hquiet.1
        · exact absurd hmem hquiet.2.1

/-- A line end in front of a marker is read as one, if nothing is open there or there are no quotes
behind it. The tokens before the marker are those up to the line end. -/
theorem reads_lineEnd {front post : List Char} {start : Position} {c : Char}
    (hc : c = '\n' ∨ c = '\r') (hpost : StartsWithMarker post) {tokens : List DocToken}
    {last : Lexer docGrammar}
    (hreads : (Lexer.start docGrammar (front ++ c :: post) start).Reads tokens last)
    (hlast : last.rest = [])
    (hopen : unclosed (tokens.filter fun t => t.span.start < start.advance (front ++ [c])) = [] ∨
      IsQuiet post) :
    ∃ before t after mid next, tokens = before ++ t :: after ∧ t.kind = .newline ∧
      (Lexer.start docGrammar (front ++ c :: post) start).Reads before mid ∧
      mid.step = .token t next ∧ next.Reads after last ∧ next.rest = post ∧
      next.position = start.advance (front ++ [c]) ∧
      (tokens.filter fun t => t.span.start < start.advance (front ++ [c])) = before ++ [t] := by
  obtain ⟨before, t, after, mid, next, inFront, inPost, rfl, hbefore, hstep, hafter, ht, rfl,
    rfl⟩ := hreads.exists_covering hlast rfl
  obtain ⟨lineStart, hstands, -⟩ := (stands_start _ start).of_reads hbefore
  have hpasses := hbefore.passes keepsLineEnds
  have hmarker : (inPost ++ next.rest).head? = some '@' := by
    obtain ⟨letter, rest, hpost, -⟩ := hpost
    rw [hpost]
    rfl
  have hcut : ¬ Text.SplitsLineEnd (tokensText before).toList (inFront ++ [c]) := by
    intro hsplit
    refine hpasses.whole ?_
    have hrest : mid.rest = inFront ++ [c] ++ (inPost ++ next.rest) := by
      rw [← Lexer.step_text hstep, ht]
      simp
    rw [hrest]
    exact Text.splitsLineEnd_append_right _ hsplit
  have hcut' : ¬ Text.SplitsLineEnd ((tokensText before).toList ++ (inFront ++ [c])) inPost := by
    rintro ⟨-, hfeed⟩
    rw [List.head?_append, hfeed] at hmarker
    cases hmarker
  let p := start.advance ((tokensText before).toList ++ (inFront ++ [c]))
  have hmid : mid.position < p := by
    show mid.position < start.advance _
    rw [Position.advance_append _ hcut, hpasses.position]
    exact Position.lt_advance _ (by simp)
  have hreadt : (Lexer.start docGrammar ((tokensText before).toList ++ inFront ++
      c :: (inPost ++ next.rest)) start).Reads (before ++ [t]) next :=
    hbefore.snoc hstep
  have hnext : next.position = p.advance inPost := by
    have htext : (tokensText (before ++ [t])).toList =
        (tokensText before).toList ++ (inFront ++ [c]) ++ inPost := by
      rw [tokensText_append, String.toList_append, tokensText_cons]
      simp [ht, tokensText]
    rw [(hreadt.passes keepsLineEnds).position, htext, Position.advance_append _ hcut']
    rfl
  have hassoc : (tokensText before).toList ++ inFront ++ [c] =
      (tokensText before).toList ++ (inFront ++ [c]) :=
    List.append_assoc ..
  rw [hassoc] at hopen ⊢
  have hfilter := filter_before hbefore hstep hafter hmid (hnext ▸ p.le_advance inPost)
  rw [hfilter] at hopen ⊢
  obtain ⟨hkind, rfl⟩ := newline_of_step hstands hstep hc ht hpost fun hstring => by
    refine hopen.imp (fun hopen => ?_) fun hquiet => ?_
    · rwa [unclosed_snoc, hstring] at hopen
    · exact hquiet.left
  exact ⟨before, t, after, mid, next, rfl, hkind, hbefore, hstep, hafter, rfl, hnext, rfl⟩

/-- Where a text begins with a marker, that is read, in running text and inside delimiters, and at
the start of a line as further on in it. -/
theorem readPiece_marker {text : List Char} (h : StartsWithMarker text) (lineStart : Bool) :
    readPiece lineStart enclosing text =
      (contentPiece enclosing text, startsLine (contentPiece enclosing text).kind) := by
  obtain ⟨letter, rest, rfl, -⟩ := h
  refine readPiece_of_none (findSome?_pieceOf?_eq_none ?_) lineStart
  exact (by decide : (lineStartState.rules.all fun r => !r.matcher.mayBeginWith '@') = true)

theorem matchAt?_tag {letter : Char} (rest : List Char) (h : Text.isAlphabetic letter = true) :
    ∃ stop, tag.matchAt? (.start ('@' :: letter :: rest)) = some stop := by
  obtain ⟨first, hfirst⟩ :
      ∃ first, (Cursor.start ('@' :: letter :: rest)).next? (.single '@') = some first :=
    Cursor.next?_isSome rfl rfl
  obtain ⟨c, -, hrest⟩ := Cursor.rest_of_next? hfirst
  obtain ⟨-, hletter⟩ := List.cons.inj hrest
  obtain ⟨second, hsecond⟩ := Cursor.next?_isSome (s := .property .alphabetic) hletter.symm h
  let more := star (set (.union wordChar (.single '-')))
  have hrun : tag.matchAt? (.start ('@' :: letter :: rest)) =
      ((Cursor.start ('@' :: letter :: rest)).next? (.single '@')).bind fun mid =>
        (mid.next? (.property .alphabetic)).bind fun mid => more.run mid some :=
    rfl
  rw [hrun, hfirst, Option.bind_some, hsecond, Option.bind_some]
  show ∃ stop, Pattern.orElse
      ((Pattern.plus true (set (.union wordChar (.single '-')))).run second some)
      (fun _ => some second) = some stop
  unfold Pattern.orElse
  split
  · rename_i stop _
    exact ⟨stop, rfl⟩
  · exact ⟨second, rfl⟩

theorem kind_contentPiece_marker {text : List Char} (h : StartsWithMarker text) :
    (contentPiece [] text).kind = .tag := by
  obtain ⟨letter, rest, rfl, hletter⟩ := h
  obtain ⟨stop, hstop⟩ := matchAt?_tag rest hletter
  have hread := Matcher.tokenEnd?_of_matchAt? rfl hstop
  let front := spelling .commentStart "/**" (.push 1) :: wordRules.take 3
  let tagRule := rule .tag tag .stay fun text => Text.lower (withoutLeading '@' text)
  have hfront : front.findSome? (pieceOf? ('@' :: letter :: rest)) = none :=
    findSome?_pieceOf?_eq_none (by decide)
  have htag : pieceOf? ('@' :: letter :: rest) tagRule = some (.ofMatch tagRule stop) :=
    congrArg (Option.map _) hread
  have hpiece : pieceIn? (contentState []) ('@' :: letter :: rest) =
      some (.ofMatch tagRule stop) := by
    show (front ++ tagRule :: _).findSome? _ = _
    rw [List.findSome?_append, hfront, List.findSome?_cons, htag]
    rfl
  rw [contentPiece, hpiece]
  rfl

/-- A text that begins with a marker begins with its token. -/
theorem lexDoc_marker {text : String} (h : StartsWithMarker text.toList) (start : Position) :
    ∃ t more, (lexDoc text start).1 = t :: more ∧ t.kind = .tag := by
  have hne : text.toList ≠ [] :=
    let ⟨letter, rest, htext, _⟩ := h; htext ▸ List.cons_ne_nil '@' (letter :: rest)
  obtain ⟨next, hlex, -⟩ := lexDoc_cons rfl hne start
  refine ⟨_, _, hlex, ?_⟩
  show (readPiece false [] text.toList).1.kind = .tag
  rw [readPiece_marker h]
  exact kind_contentPiece_marker h

end Doc

namespace TagState

/-- After a line end that leaves nothing open reading is where it would begin anew. -/
theorem after_newline {s : TagState} {front back : List DocToken} {t : DocToken}
    (hrest : s.rest = front ++ t :: back) (hkind : t.kind = .newline) (hdepth : s.depth = 0)
    (hrecordings : s.recordings = []) :
    s.after (front.length + 1) = { rest := back, stop := t.span.stop } := by
  have hkeeps (n : Nat) : (s.after n).depth = 0 ∧ (s.after n).recordings = [] := by
    induction n with
    | zero => exact ⟨hdepth, hrecordings⟩
    | succ n ih =>
      rw [after, take]
      split
      · exact ih
      · exact ⟨ih.1, by rw [pass, ih.2]; rfl⟩
  have hhere : (s.after front.length).rest = t :: back := by
    rw [rest_after, hrest, List.drop_left]
  obtain ⟨hdepth, hrecordings⟩ := hkeeps front.length
  rw [after, take_eq_pass hhere, pass, hdepth, hrecordings, hkind]
  rfl

end TagState

section

open Doc

variable {pre lineEnd post : String} {start : Position}

/-- From a marker at the start of a line on, a comment is read as the text from there alone, if no
brace and no bracket is open there or nothing behind the marker is read otherwise inside them. -/
theorem lexDoc_from_marker (hline : lineEnd ∈ ["\n", "\r", "\r\n"])
    (hpost : StartsWithMarker post.toList) :
    let text := "/**" ++ pre ++ lineEnd ++ post
    let p := start.advance ("/**" ++ pre ++ lineEnd).toList
    unclosed ((lexDoc text start).1.filter fun t => t.span.start < p) = [] ∨
        IsQuiet post.toList →
      ∃ before t, (lexDoc text start).1 = before ++ t :: (lexDoc post p).1 ∧ t.kind = .newline ∧
        t.span.stop = p := by
  intro text p hopen
  obtain ⟨front, c, hc, hfront⟩ : ∃ front c, (c = '\n' ∨ c = '\r') ∧
      ("/**" ++ pre ++ lineEnd).toList = front ++ [c] := by
    rw [String.toList_append]
    simp only [List.mem_cons, List.not_mem_nil, or_false] at hline
    rcases hline with rfl | rfl | rfl
    · exact ⟨_, '\n', Or.inl rfl, rfl⟩
    · exact ⟨_, '\r', Or.inr rfl, rfl⟩
    · exact ⟨("/**" ++ pre).toList ++ ['\r'], '\n', Or.inl rfl, by rw [List.append_assoc]; rfl⟩
  have htext : text.toList = front ++ c :: post.toList := by
    show ("/**" ++ pre ++ lineEnd ++ post).toList = _
    rw [String.toList_append, hfront, List.append_assoc]
    rfl
  have hp : p = start.advance (front ++ [c]) := congrArg start.advance hfront
  obtain ⟨last, hreads, hlast, -⟩ := lexDoc_reads text start
  rw [htext] at hreads
  rw [hp] at hopen
  obtain ⟨before, t, after, mid, next, htokens, hkind, hbefore, hstep, hafter, hrest, hposition,
    hfilter⟩ := reads_lineEnd hc hpost hreads hlast hopen
  rw [hfilter, ← hrest] at hopen
  rw [← hp] at hposition
  rw [← hrest] at hpost
  have hsame : (lexDoc post p).1 = after := by
    obtain ⟨lineStart, hstands, -⟩ := (stands_start _ start).of_reads (hbefore.snoc hstep)
    have hrun : next.run.1 = (Lexer.start docGrammar post.toList p).run.1 := by
      refine run_eq hstands (stands_start post.toList p) hrest hposition (fun hne => ?_) hopen
      rw [readPiece_marker hpost, readPiece_marker hpost]
      rcases hopen with hopen | hquiet
      · rw [show openAfterAll [] (before ++ [t]) = [] from hopen]
      · rw [contentPiece_of_isQuiet hquiet hne]
    have hend : last.run.1 = [] := by
      rw [Lexer.run_of_finished (Lexer.step_of_endError?_none hlast (endError?_eq_none last))]
    rw [hafter.run, hend, List.append_nil] at hrun
    exact hrun.symm
  refine ⟨before, t, htokens.trans (hsame ▸ rfl), hkind, ?_⟩
  rw [(Lexer.span_of_step hstep).1, ← hposition]
  rfl

/-- Tags that begin with a marker at the start of a line are those that are read from the marker on
alone, whatever comes before it, if no brace and no bracket is open there for the lexer or nothing
behind the marker is read otherwise inside them. -/
theorem parseComment_from_marker (hline : lineEnd ∈ ["\n", "\r", "\r\n"])
    (hpost : StartsWithMarker post.toList)
    (hopen :
      let text := "/**" ++ pre ++ lineEnd ++ post
      let p := start.advance ("/**" ++ pre ++ lineEnd).toList
      unclosed ((lexDoc text start).1.filter fun t => t.span.start < p) = [] ∨
        IsQuiet post.toList) :
    let text := "/**" ++ pre ++ lineEnd ++ post
    let p := start.advance ("/**" ++ pre ++ lineEnd).toList
    (parseComment text start).tags.filter (fun t => p ≤ t.span.start) =
      (parseComment post p).tags := by
  intro text p
  obtain ⟨before, t, htokens, hkind, hstop⟩ := lexDoc_from_marker hline hpost hopen
  obtain ⟨tag, more, htag, htagKind⟩ := lexDoc_marker hpost p
  let significant : DocToken → Bool := fun t => !t.isTrivia
  have hkeep (t : DocToken) (h : t.kind = .newline ∨ t.kind = .tag) : significant t = true := by
    show (!(t.trivia == .yes)) = true
    rw [Token.trivia]
    rcases h with h | h <;> rw [h] <;> rfl
  let s : TagState := { rest := (lexDoc text start).1.filter significant, stop := start }
  have hs : s.InOrder := (lexDoc_inOrder text start).filter significant
  have hsplit : s.rest =
      before.filter significant ++ t :: (lexDoc post p).1.filter significant := by
    show (lexDoc text start).1.filter significant = _
    rw [htokens, List.filter_append, List.filter_cons, if_pos (hkeep t (Or.inl hkind))]
  let b := (before.filter significant).length + 1
  have hb : s.after b = { rest := (lexDoc post p).1.filter significant, stop := p } := by
    rw [TagState.after_newline hsplit hkind rfl rfl, hstop]
  have hmarker : (s.after b).startsTag = true := by
    rw [hb, htag, List.filter_cons, if_pos (hkeep tag (Or.inr htagKind)), TagState.startsTag,
      TagState.kind?_eq rfl, htagKind]
    rfl
  obtain ⟨front, htags, hfront⟩ := TagReader.tags_from_marker hs hmarker (le_refl _) (le_refl _)
  rw [hb] at htags hfront
  have htags : (parseComment text start).tags = front ++ (parseComment post p).tags := htags
  have hbefore : front.filter (fun t => p ≤ t.span.start) = [] := by
    refine List.filter_eq_nil_iff.2 fun u hu hle => ?_
    exact lt_irrefl _ ((hfront u hu).trans_le (of_decide_eq_true hle))
  have hfrom : (parseComment post p).tags.filter (fun t => p ≤ t.span.start) =
      (parseComment post p).tags :=
    List.filter_eq_self.2 fun u hu => decide_eq_true (parseComment_start_le post p u hu)
  rw [htags, List.filter_append, hbefore, hfrom, List.nil_append]

/-- A brace is open in front of the marker. -/
theorem parseComment_from_marker_unclosed :
    let text := "/**" ++ " \x7b@link a (b" ++ "\n" ++ "@param x \x7bb\x7d c"
    let p := Position.start.advance ("/**" ++ " \x7b@link a (b" ++ "\n").toList
    unclosed ((lexDoc text).1.filter fun t => t.span.start < p) = [.brace] ∧
      "\n" ∈ ["\n", "\r", "\r\n"] ∧ StartsWithMarker "@param x \x7bb\x7d c".toList ∧
      IsQuiet "@param x \x7bb\x7d c".toList ∧
      (parseComment text).tags.filter (fun t => p ≤ t.span.start) =
        (parseComment "@param x \x7bb\x7d c" p).tags := by
  have hmarker : StartsWithMarker "@param x \x7bb\x7d c".toList := ⟨'p', _, rfl, by decide⟩
  have hquiet : IsQuiet "@param x \x7bb\x7d c".toList := by decide +kernel
  exact ⟨by decide +kernel, by decide, hmarker, hquiet,
    parseComment_from_marker (by decide) hmarker (Or.inr hquiet)⟩

/-- A brace that is never closed changes what is read behind the marker: the quotes are left out of
the text. -/
theorem parseComment_quotes_after_brace :
    let text := "/**" ++ "\x7b" ++ "\n" ++ "@x \"a\""
    let p := Position.start.advance ("/**" ++ "\x7b" ++ "\n").toList
    StartsWithMarker "@x \"a\"".toList ∧
      ((parseComment text).tags.filter fun t => p ≤ t.span.start).map Tag.text = ["a"] ∧
      (parseComment "@x \"a\"" p).tags.map Tag.text = ["\"a\""] ∧
      (parseComment text).tags.filter (fun t => p ≤ t.span.start) ≠
        (parseComment "@x \"a\"" p).tags := by
  intro text p
  have hinside : ((parseComment text).tags.filter fun t => p ≤ t.span.start).map Tag.text =
      ["a"] := by
    decide +kernel
  have halone : (parseComment "@x \"a\"" p).tags.map Tag.text = ["\"a\""] := by
    decide +kernel
  refine ⟨⟨'x', _, rfl, by decide⟩, hinside, halone, fun hsame => ?_⟩
  rw [hsame, halone] at hinside
  exact absurd hinside (by decide)

end

end SqlDoc

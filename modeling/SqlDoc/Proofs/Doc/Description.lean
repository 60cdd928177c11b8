/-
# Prose is a description

The tokens of prose become the content of one description. A mark of a reference and the name behind
it are read together and written again as they stood; every other token is written as it is, so the
content is written as the text without decoration (`TagReader.content_prose`). A comment that holds
prose is the description of what its lines say, or nothing if they say nothing
(`parseComment_prose`). The arguments of a reference are the exception: they are read and not
written (`parseComment_call`).

Key theorems: `TagReader.reference_run`, `TagReader.content_prose`, `TagReader.tagsUpTo_prose`,
`parseComment_prose`.
-/
import SqlDoc.Proofs.Doc.Prose

namespace SqlDoc

open Doc (Prose Spells shownChars shownChars_of_isWordy shownText isPlain isWordy)
open Text (isBlank)

/-! ### What a recording holds -/

namespace TagState

variable {s : TagState}

/-- Every recording goes on with the tokens that are taken. -/
theorem recordings_after (s : TagState) (n : Nat) :
    (s.after n).recordings = s.recordings.map fun text =>
      (s.rest.take n).foldl (fun text t => recordToken t text) text := by
  induction n with
  | zero => exact (List.map_id' _).symm
  | succ n ih =>
    rw [List.take_add_one, after]
    cases h : (s.after n).rest with
    | nil =>
      have hnone : s.rest[n]? = none := by
        rw [← List.head?_drop, ← s.rest_after, h]
        rfl
      rw [hnone, take, h, ih]
      exact congrArg (fun tokens => s.recordings.map fun text =>
        tokens.foldl (fun text t => recordToken t text) text) (List.append_nil _).symm
    | cons t rest =>
      have hnext : s.rest[n]? = some t := by
        rw [← List.head?_drop, ← s.rest_after, h]
        rfl
      rw [hnext, take_eq_pass h, pass, ih, List.map_map]
      refine List.map_congr_left fun text _ => ?_
      rw [Function.comp_apply, Option.toList_some, List.foldl_append]
      rfl

end TagState

theorem foldl_recordToken {tokens : List DocToken} (h : ∀ t ∈ tokens, t.kind.isLayout = false)
    (text : List Char) : tokens.foldl (fun text t => recordToken t text) text =
      text ++ tokens.flatMap (·.text.toList) := by
  induction tokens generalizing text with
  | nil => exact (List.append_nil text).symm
  | cons t tokens ih =>
    obtain ⟨ht, htokens⟩ := List.forall_mem_cons.1 h
    have hrecord : recordToken t text = text ++ t.text.toList := by
      rw [recordToken, ht]
      rfl
    rw [List.foldl_cons, hrecord, ih htokens, List.flatMap_cons, List.append_assoc]

/-- The piece is a reference with arguments. -/
def ContentNode.isCall : ContentNode → Bool
  | .hash ref => ref.args.isSome
  | _ => false

namespace TagReader

variable {s : TagState}

/-! ### References -/

/-- A recorded program that takes tokens without layout and without blanks gives their text. -/
theorem recording_text {α : Type} {m : TagReader α} {n : Nat}
    (hrun : (m.run s.beginRecording).2 = s.beginRecording.after n)
    (hlayout : ∀ t ∈ s.rest.take n, t.kind.isLayout = false)
    (hblank : ∀ t ∈ s.rest.take n, ∀ c ∈ t.text.toList, isBlank c = false) :
    ((recording m).run s).1.2.toList = (s.rest.take n).flatMap (·.text.toList) := by
  have hrecorded : (s.beginRecording.after n).recordings.head? =
      some ((s.rest.take n).flatMap (·.text.toList)) := by
    rw [TagState.recordings_after]
    show some ((s.rest.take n).foldl _ []) = _
    rw [foldl_recordToken hlayout, List.nil_append]
  obtain ⟨more, hmore⟩ := List.head?_eq_some_iff.1 hrecorded
  have hall : ∀ c ∈ (s.rest.take n).flatMap (·.text.toList), isBlank c = false := by
    intro c hc
    obtain ⟨t, ht, hc⟩ := List.mem_flatMap.1 hc
    exact hblank t ht c hc
  show ((m.run s.beginRecording).2.endRecording).1.toList = _
  rw [hrun, TagState.endRecording, hmore, String.toList_ofList]
  exact Text.trimChars_eq_self hall

/-- A reference without arguments is the text of the tokens it takes. -/
theorem reference_run
    (hblank : ∀ t ∈ s.rest, t.kind = .dot ∨ t.kind = .identifier → ∀ c ∈ t.text.toList,
      isBlank c = false)
    (hargs : (reference.run s).1.args = none) :
    ∃ n ≤ s.rest.length, (reference.run s).2 = s.after n ∧
      (∀ t ∈ s.rest.take n, t.kind = .dot ∨ t.kind = .identifier) ∧
      (reference.run s).1.text.toList = (s.rest.take n).flatMap (·.text.toList) := by
  obtain ⟨n, hn, -, hname, -, hkinds⟩ := takes_dottedName (s := s.beginRecording)
  have hrecording : ((recording dottedName).run s).2 = s.after n := by
    show ((dottedName.run s.beginRecording).2.endRecording).2 = _
    rw [hname, TagState.after_endRecording]
    rfl
  have htext := recording_text hname
    (fun t ht => by rcases hkinds t ht with hkind | hkind <;> rw [hkind] <;> rfl)
    (fun t ht => hblank t (List.mem_of_mem_take ht) (hkinds t ht))
  have hrun : reference.run s =
      ((do return Reference.mk (((recording dottedName).run s).1.1.getD .empty)
              ((recording dottedName).run s).1.2
              (← if (s.after n).kind? == some .lparen then some <$> arguments else pure none) :
          TagReader Reference).run (s.after n)) := by
    rw [← hrecording]
    rfl
  by_cases hparen : (s.after n).kind? == some .lparen
  · rw [hrun, if_pos hparen] at hargs
    cases hargs
  · rw [if_neg hparen] at hrun
    rw [hrun]
    exact ⟨n, hn, rfl, hkinds, htext⟩

/-! ### Content -/

/-- Tokens of a prose that are not decoration. -/
def Spelled (tokens : List DocToken) : Prop :=
  ∀ t ∈ tokens, Spells t.kind t.text.toList ∧ t.kind ≠ .decoration

variable {tokens rest : List DocToken} {t : DocToken}

/-- Among the tokens of a prose names and dots have no blanks. -/
theorem Spelled.not_isBlank (h : Spelled tokens) :
    ∀ t ∈ tokens, t.kind = .dot ∨ t.kind = .identifier → ∀ c ∈ t.text.toList,
      isBlank c = false := by
  intro t ht hkind
  have hspells := (h t ht).1
  rcases hkind with hkind | hkind <;> rw [hkind] at hspells <;> cases hspells with
  | word _ _ hblank => exact hblank

theorem shownText_append (tokens more : List DocToken) :
    shownText (tokens ++ more) = shownText tokens ++ shownText more :=
  List.flatMap_append

/-- A mark of a reference and the name behind it are shown as they stand. -/
theorem shownText_of_hash (hspells : Spells t.kind t.text.toList) (hhash : t.kind = .hash) {k : Nat}
    (h : ∀ u ∈ rest.take k, u.kind = .dot ∨ u.kind = .identifier) :
    shownText (t :: rest) =
      '#' :: (rest.take k).flatMap (·.text.toList) ++ shownText (rest.drop k) := by
  have hmark : shownChars t.kind t.text.toList = ['#'] := by
    rw [hhash] at hspells ⊢
    cases hspells with
    | word _ _ _ hmark => exact hmark rfl
  have hname : shownText (rest.take k) = (rest.take k).flatMap (·.text.toList) := by
    refine List.flatMap_congr fun u hu => ?_
    rcases h u hu with hkind | hkind <;> rw [hkind] <;> rfl
  have hrest := shownText_append (rest.take k) (rest.drop k)
  rw [List.take_append_drop, hname] at hrest
  rw [shownText, List.flatMap_cons, hmark, ← shownText, hrest]
  rfl

theorem contentToken_of_isWordy (h : isWordy t.kind = true) :
    contentToken .block t = .text t.text := by
  rw [contentToken]
  cases hkind : t.kind <;> simp_all [isWordy, isPlain]

/-- A token is written as a reader is shown it. -/
theorem writtenContent_contentToken (h : Spells t.kind t.text.toList)
    (hdecoration : t.kind ≠ .decoration) :
    (writtenContent [contentToken .block t]).toList = shownChars t.kind t.text.toList := by
  generalize hkind : t.kind = kind at h hdecoration
  cases h with
  | lineEnd =>
    rw [contentToken, hkind]
    simp only [writtenContent]
    rfl
  | stars => exact absurd rfl hdecoration
  | blanks =>
    rw [contentToken, hkind]
    simp only [writtenContent, String.append_empty, shownChars]
  | word hword =>
    rw [contentToken_of_isWordy (hkind ▸ hword), shownChars_of_isWordy hword]
    simp only [writtenContent, String.append_empty]

/-- Texts that become one are no reference. -/
theorem isCall_of_cons {node : ContentNode} {rest : List ContentNode}
    (h : ∀ x ∈ node.cons rest, x.isCall = false) :
    node.isCall = false ∧ ∀ x ∈ rest, x.isCall = false := by
  revert h
  fun_cases ContentNode.cons node rest with
  | case1 first second rest =>
    exact fun h => ⟨rfl, List.forall_mem_cons.2 ⟨rfl, (List.forall_mem_cons.1 h).2⟩⟩
  | case2 => exact List.forall_mem_cons.1

/-- Content begins with the mark of a reference. -/
theorem content_of_hash (hrest : s.rest = t :: rest)
    (hhash : t.kind = .hash ∧ s.secondKind? = some .identifier) (n : Nat) :
    (content (n + 1) .block).run s =
      let ref := reference.run (s.pass t rest)
      let more := (content n .block).run ref.2
      ((ContentNode.hash ref.1).cons more.1, more.2) := by
  have hmarker : s.atMarker = false := by
    rw [TagState.atMarker, TagState.kind?_eq hrest, hhash.1]
    exact Bool.and_false _
  have hstop : ¬ (s.atMarker = true ∨ Scope.block = .inline ∧ t.kind = .rbrace) := by
    simp [hmarker]
  have hkind {kind : DocKind} (h : kind ≠ .hash) : ¬ t.kind = kind :=
    fun heq => h (heq.symm.trans hhash.1)
  rw [content, run_get, hrest]
  dsimp only
  rw [if_neg hstop, if_neg fun h => hkind DocKind.noConfusion h.1,
    if_neg (hkind DocKind.noConfusion), if_neg (hkind DocKind.noConfusion), if_pos hhash]
  show (take >>= fun _ => _).run s = _
  rw [run_bind, take_run hrest]
  rfl

/-- Content of prose is written as a reader is shown its tokens, if no reference has arguments. -/
theorem content_prose {n : Nat} (h : Spelled s.rest) (hn : s.rest.length ≤ n)
    (hcall : ∀ node ∈ ((content n .block).run s).1, node.isCall = false) :
    (writtenContent ((content n .block).run s).1).toList = shownText s.rest ∧
      ((content n .block).run s).2.rest = [] := by
  induction n generalizing s with
  | zero =>
    have hrest : s.rest = [] := List.length_eq_zero_iff.1 (Nat.le_zero.1 hn)
    rw [hrest]
    exact ⟨rfl, hrest⟩
  | succ n ih =>
    cases hrest : s.rest with
    | nil =>
      rw [content, run_get, hrest]
      exact ⟨rfl, hrest⟩
    | cons t rest =>
      rw [hrest] at h hn
      have hn : rest.length ≤ n := Nat.le_of_succ_le_succ hn
      obtain ⟨⟨hspells, hdecoration⟩, hmore⟩ := List.forall_mem_cons.1 h
      by_cases hhash : t.kind = .hash ∧ s.secondKind? = some .identifier
      · rw [content_of_hash hrest hhash] at hcall ⊢
        dsimp only at hcall ⊢
        obtain ⟨hfirst, hothers⟩ := isCall_of_cons hcall
        have hargs := Option.isNone_iff_eq_none.1 (Option.isSome_eq_false_iff.1 hfirst)
        obtain ⟨k, -, hstate, hkinds, htext⟩ := reference_run (s := s.pass t rest)
          (Spelled.not_isBlank hmore) hargs
        have hleft : (reference.run (s.pass t rest)).2.rest = rest.drop k := by
          rw [hstate, TagState.rest_after]
          rfl
        obtain ⟨hwritten, hend⟩ := ih (s := (reference.run (s.pass t rest)).2)
          (fun u hu => hmore u (List.mem_of_mem_drop (hleft ▸ hu)))
          (by rw [hleft, List.length_drop]; omega) hothers
        refine ⟨?_, hend⟩
        have hkinds : ∀ u ∈ rest.take k, u.kind = .dot ∨ u.kind = .identifier := hkinds
        rw [writtenContent_cons, String.toList_append, hwritten, hleft,
          shownText_of_hash hspells hhash.1 hkinds]
        simp only [writtenContent, String.append_empty, String.toList_append]
        rw [htext]
        rfl
      · have hopens := hspells.opens_nothing
        rw [content_of_token hrest hopens hhash] at hcall ⊢
        obtain ⟨hwritten, hend⟩ := ih (s := s.pass t rest) hmore hn (isCall_of_cons hcall).2
        refine ⟨?_, hend⟩
        rw [writtenContent_cons, String.toList_append, hwritten,
          writtenContent_contentToken hspells hdecoration]
        rfl

/-! ### The description -/

/-- Layout is shown as blanks. -/
theorem isBlank_of_layout (h : Spelled tokens) (hlayout : ∀ t ∈ tokens, t.kind.isLayout = true) :
    ∀ c ∈ shownText tokens, isBlank c = true := by
  intro c hc
  obtain ⟨t, ht, hc⟩ := List.mem_flatMap.1 hc
  have hspells := (h t ht).1
  have hkind := hlayout t ht
  generalize t.kind = kind at hspells hkind hc
  cases hspells with
  | lineEnd =>
    rw [List.mem_singleton.1 hc]
    rfl
  | blanks hblank => exact hblank c hc
  | stars => cases hkind
  | word hword =>
    cases kind with
    | whitespace | newline => cases hword
    | _ => cases hkind

/-- A word is shown with something that is no blank. -/
theorem exists_not_isBlank (h : Spelled (t :: rest)) (hlayout : t.kind.isLayout = false) :
    ∃ c ∈ shownText (t :: rest), isBlank c = false := by
  obtain ⟨⟨hspells, hdecoration⟩, -⟩ := List.forall_mem_cons.1 h
  rw [shownText, List.flatMap_cons]
  generalize t.kind = kind at hspells hdecoration hlayout
  cases hspells with
  | lineEnd | blanks => cases hlayout
  | stars => exact absurd rfl hdecoration
  | word hword hne hblank =>
    rw [shownChars_of_isWordy hword]
    obtain ⟨c, more, hpiece⟩ := List.exists_cons_of_ne_nil hne
    have hc : c ∈ t.text.toList := hpiece ▸ List.mem_cons_self
    exact ⟨c, List.mem_append_left _ hc, hblank c hc⟩

theorem layout_of_layoutFor {j : Nat} (h : s.LayoutFor j) :
    ∀ t ∈ s.rest.take j, t.kind.isLayout = true := by
  intro t ht
  obtain ⟨i, hi, rfl⟩ := List.mem_take_iff_getElem.1 ht
  have hkind := h i (Nat.lt_of_lt_of_le hi (Nat.min_le_left _ _))
  have hlength := Nat.lt_of_lt_of_le hi (Nat.min_le_right _ _)
  rw [s.kind?_after, List.getElem?_eq_getElem hlength] at hkind
  exact hkind

/-- Where nothing but layout is left, there is no tag. -/
theorem tagsUpTo_of_layout {j : Nat} (hskip : skipLayout.run s = ((), s.after j))
    (hrest : (s.after j).rest = []) (n : Nat) : ((tagsUpTo n).run s).1 = [] := by
  have hnone : (nextTag.run s).1 = none := by
    rw [nextTag, run_bind, hskip, run_get]
    dsimp only
    rw [TagState.kind?, hrest]
    rfl
  cases n with
  | zero => rfl
  | succ n =>
    rw [tagsUpTo, run_bind, hnone]
    rfl

/-- Prose is one description, which is shown as the tokens are, or nothing if these are blank. -/
theorem tagsUpTo_prose {n : Nat} (h : Spelled s.rest) (hn : s.rest.length ≤ n)
    (hcall : ∀ t ∈ ((tagsUpTo n).run s).1, ∀ node ∈ t.content, node.isCall = false) :
    ((∀ c ∈ shownText s.rest, isBlank c = true) → ((tagsUpTo n).run s).1 = []) ∧
      ((∃ c ∈ shownText s.rest, isBlank c = false) →
        ∃ t, ((tagsUpTo n).run s).1 = [t] ∧ t.marker = "" ∧ t.isDescription = true ∧
          t.text = String.ofList (Text.tidyLines (shownText s.rest))) := by
  obtain ⟨j, -, hlayout, hskip, hnext⟩ := skipLayout_cases s
  have hsplit : shownText s.rest = shownText (s.rest.take j) ++ shownText (s.after j).rest := by
    rw [s.rest_after, ← shownText_append, List.take_append_drop]
  have hfront : ∀ c ∈ shownText (s.rest.take j), isBlank c = true :=
    isBlank_of_layout (fun t ht => h t (List.mem_of_mem_take ht)) (layout_of_layoutFor hlayout)
  have hafter : Spelled (s.after j).rest := fun t ht =>
    h t (List.mem_of_mem_drop (s.rest_after j ▸ ht))
  rw [hsplit, Text.tidyLines_append hfront]
  cases hrest : (s.after j).rest with
  | nil =>
    refine ⟨fun _ => tagsUpTo_of_layout hskip hrest n, fun ⟨c, hc, hno⟩ => ?_⟩
    rw [show shownText [] = [] from rfl, List.append_nil] at hc
    rw [hfront c hc] at hno
    cases hno
  | cons t rest =>
    have hkind : t.kind.isLayout = false := by
      rw [TagState.kind?_eq hrest] at hnext
      exact hnext
    obtain ⟨c, hc, hno⟩ := exists_not_isBlank (hrest ▸ hafter) hkind
    refine ⟨fun hblank => ?_, fun _ => ?_⟩
    · rw [hblank c (List.mem_append_right _ hc)] at hno
      cases hno
    · have htag : t.kind ≠ .tag := by
        have hopens := (hafter t (hrest ▸ List.mem_cons_self)).1.opens_nothing
        exact fun heq => hopens (heq ▸ List.mem_cons_self)
      obtain ⟨more, htags, hmore⟩ := tagsUpTo_of_skipLayout hskip hrest htag hn
      have hbound : (s.after j).rest.length ≤ 2 * ((s.after j).rest.length + 1) := by omega
      obtain ⟨hwritten, hend⟩ :=
        content_prose hafter hbound (hcall _ (htags ▸ List.mem_cons_self))
      rw [hmore hend] at htags
      refine ⟨_, htags, rfl, rfl, ?_⟩
      rw [← hrest, ← hwritten]
      rfl

end TagReader

/-! ### Comments that hold prose -/

section

variable {body : String} {start : Position}

/-- The comment that holds a text. -/
def commentOf (body : String) : String :=
  "/**" ++ body ++ "*/"

/-- The tokens of the comment are shown as the text without decoration. -/
theorem lexDoc_prose (h : Prose body.toList)
    (hclose : (lexDoc (commentOf body) start).1.getLast?.map (·.kind) = some .commentEnd) :
    ∃ first tokens close, (lexDoc (commentOf body) start).1 = first :: (tokens ++ [close]) ∧
      first.kind = .commentStart ∧ close.kind = .commentEnd ∧
      (∀ t ∈ tokens, Spells t.kind t.text.toList) ∧
      shownText tokens = Text.bareText true body.toList := by
  have hsource : (commentOf body).toList = '/' :: '*' :: '*' :: (body.toList ++ ['*', '/']) := by
    rw [commentOf, String.toList_append, String.toList_append]
    rfl
  obtain ⟨hkind, hlength⟩ := readPiece_commentStart (body.toList ++ ['*', '/'])
  obtain ⟨next, hlex, hleft, hnext⟩ := lexDoc_cons hsource (List.cons_ne_nil _ _) start
  rw [hlength] at hleft
  rw [hkind] at hnext
  have hnext : Doc.Stands true [] next := hnext
  have hlast : ∃ t, next.run.1.getLast? = some t ∧ t.kind = .commentEnd := by
    obtain ⟨t, ht, hend⟩ := Option.map_eq_some_iff.1 hclose
    rw [hlex] at ht
    cases hrun : next.run.1 with
    | nil =>
      rw [hrun] at ht
      cases ht
      cases hkind.symm.trans hend
    | cons u tokens =>
      rw [hrun, List.getLast?_cons_cons] at ht
      exact ⟨t, ht, hend⟩
  obtain ⟨tokens, close, hrun, hend, hspells, hshown⟩ := Doc.run_prose hnext h hleft hlast
  exact ⟨_, tokens, close, hlex.trans (congrArg (_ :: ·) hrun), hkind, hend, hspells, hshown⟩

theorem isTrivia_of_spells {t : DocToken} (h : Spells t.kind t.text.toList) :
    t.isTrivia = decide (t.kind = .decoration) := by
  show (TokenKind.trivia t.kind == .yes) = _
  generalize t.kind = kind at h
  cases h with
  | word hword => cases kind <;> first | rfl | cases hword
  | _ => rfl

/-- Only decoration is left out, of which nothing is shown. -/
theorem shownText_filter {tokens : List DocToken} (h : ∀ t ∈ tokens, Spells t.kind t.text.toList) :
    shownText (tokens.filter fun t => !t.isTrivia) = shownText tokens := by
  induction tokens with
  | nil => rfl
  | cons t tokens ih =>
    obtain ⟨ht, htokens⟩ := List.forall_mem_cons.1 h
    have hmore := ih htokens
    by_cases hkind : t.kind = .decoration
    · rw [List.filter_cons_of_neg (by simp [isTrivia_of_spells ht, hkind]), hmore, shownText,
        shownText, List.flatMap_cons, hkind]
      rfl
    · rw [List.filter_cons_of_pos (by simp [isTrivia_of_spells ht, hkind]), shownText,
        List.flatMap_cons, ← shownText, hmore]
      rfl

/-- A comment that holds prose is one description of what its lines say, or nothing if they say
nothing. It is so if no address takes the end of the comment and no reference has arguments. -/
theorem parseComment_prose (h : Prose body.toList)
    (hclose : (lexDoc (commentOf body) start).1.getLast?.map (·.kind) = some .commentEnd)
    (hcall : ∀ t ∈ (parseComment (commentOf body) start).tags,
      ∀ node ∈ t.content, node.isCall = false) :
    let comment := parseComment (commentOf body) start
    comment.error = none ∧
      ((∀ line ∈ Text.proseLines body.toList, line = []) → comment.tags = []) ∧
      ((∃ line ∈ Text.proseLines body.toList, line ≠ []) →
        ∃ t, comment.tags = [t] ∧ t.marker = "" ∧ t.isDescription = true ∧
          t.text = String.ofList (Text.proseText body.toList)) := by
  intro comment
  obtain ⟨first, tokens, close, hlex, hfirst, hend, hspells, hshown⟩ := lexDoc_prose h hclose
  let shown := tokens.filter fun t => !t.isTrivia
  have hspelled : TagReader.Spelled shown := by
    intro t ht
    obtain ⟨ht, hshown⟩ := List.mem_filter.1 ht
    refine ⟨hspells t ht, fun hkind => ?_⟩
    rw [isTrivia_of_spells (hspells t ht), hkind] at hshown
    cases hshown
  have htrivia {t : DocToken} (h : t.kind = .commentStart ∨ t.kind = .commentEnd) :
      t.isTrivia = true := by
    show (TokenKind.trivia t.kind == .yes) = true
    rcases h with h | h <;> rw [h] <;> rfl
  have htokens : (lexDoc (commentOf body) start).1.filter (fun t => !t.isTrivia) = shown := by
    rw [hlex, List.filter_cons, htrivia (Or.inl hfirst), List.filter_append,
      List.filter_singleton, htrivia (Or.inr hend)]
    exact List.append_nil shown
  have htags : comment.tags = ((TagReader.tagsUpTo shown.length).run
      { rest := shown, stop := start }).1 := by
    show readTags (lexDoc (commentOf body) start).1 start = _
    rw [readTags, htokens]
  obtain ⟨hnone, hone⟩ := TagReader.tagsUpTo_prose (s := { rest := shown, stop := start }) hspelled
    (le_refl _) fun t ht => hcall t (htags ▸ ht)
  have hbare : shownText shown = Text.bareText true body.toList :=
    (shownText_filter hspells).trans hshown
  refine ⟨lexDoc_error _ start, fun hlines => ?_, ?_⟩
  · rw [htags]
    refine hnone ?_
    rw [hbare]
    exact Text.isBlank_bareText.2 hlines
  · rintro ⟨line, hline, hsays⟩
    rw [htags, ← Text.tidyLines_bareText, ← hbare]
    refine hone ?_
    by_contra hall
    have hall : ∀ c ∈ shownText shown, Text.isBlank c = true := fun c hc =>
      Bool.of_not_eq_false fun hno => hall ⟨c, hc, hno⟩
    exact hsays (Text.isBlank_bareText.1 (hbare ▸ hall) line hline)

/-- Stars are dropped at the start of a line only, and whatever means nothing here stays. -/
theorem parseComment_prose_lines :
    let body := "\n ** A #member.name, \"quoted\" (a*b / c):\r\n *\n  #1 = http://a/b. \n "
    Prose body.toList ∧
      (lexDoc (commentOf body)).1.getLast?.map (·.kind) = some .commentEnd ∧
      (∀ t ∈ (parseComment (commentOf body)).tags, ∀ node ∈ t.content, node.isCall = false) ∧
      (∃ line ∈ Text.proseLines body.toList, line ≠ []) ∧
      (parseComment (commentOf body)).error = none ∧
      ∃ t, (parseComment (commentOf body)).tags = [t] ∧ t.marker = "" ∧ t.isDescription = true ∧
        t.text = "A #member.name, \"quoted\" (a*b / c):\n\n#1 = http://a/b." := by
  intro body
  have hprose : Prose body.toList :=
    ⟨forall_of_any (by decide +kernel), by decide +kernel, by decide +kernel, by decide +kernel⟩
  have hclose : (lexDoc (commentOf body)).1.getLast?.map (·.kind) = some .commentEnd := by
    decide +kernel
  have hcall : ∀ t ∈ (parseComment (commentOf body)).tags, ∀ node ∈ t.content,
      node.isCall = false := by
    decide +kernel
  have hline : ∃ line ∈ Text.proseLines body.toList, line ≠ [] := by decide +kernel
  have htext : String.ofList (Text.proseText body.toList) =
      "A #member.name, \"quoted\" (a*b / c):\n\n#1 = http://a/b." := by
    decide +kernel
  obtain ⟨herror, -, hone⟩ := parseComment_prose hprose hclose hcall
  exact ⟨hprose, hclose, hcall, hline, herror, htext ▸ hone hline⟩

/-- The arguments of a reference are not shown. -/
theorem parseComment_call :
    let body := " see #get(1) now "
    (∀ c ∈ body.toList, Doc.isSpecial c = false) ∧ ¬ "*/".toList <:+: body.toList ∧
      body.toList.getLast? ≠ some '*' ∧
      (parseComment (commentOf body)).tags.map Tag.text = ["see #get now"] ∧
      ¬ ∃ t, (parseComment (commentOf body)).tags = [t] ∧ t.isDescription = true ∧
        t.text = String.ofList (Text.proseText body.toList) := by
  intro body
  have htext : (parseComment (commentOf body)).tags.map Tag.text = ["see #get now"] := by
    decide +kernel
  have hprose : String.ofList (Text.proseText body.toList) = "see #get(1) now" := by
    decide +kernel
  refine ⟨forall_of_any (by decide +kernel), by decide +kernel, by decide +kernel, htext,
    fun ⟨t, htags, _, hsame⟩ => ?_⟩
  rw [htags, List.map_singleton, hsame, hprose] at htext
  exact absurd htext (by decide)

end

end SqlDoc

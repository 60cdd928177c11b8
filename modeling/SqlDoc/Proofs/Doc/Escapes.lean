/-
# Escaped text

A backslash in front of a character that would mean something takes its meaning away. A text that is
escaped throughout is read back without its own backslashes, and so as it was if it has none
(`parseComment_escaped`): each piece that the lexer reads of it is an escape or has no backslash, and
stands for a piece of the text. An escaped backslash stands for nothing, since an escape is shown
without any backslash that it begins with (`parseComment_escaped_backslash`). An address on the web
is taken as it is written, so a backslash in it stays.

Key definitions: `Doc.escapeText`, `Doc.withoutBackslashes`, `Doc.Shows`, `escapedComment`.
Key theorems: `Doc.readPiece_escapeText`, `Doc.run_escapeText`, `TagReader.tagsUpTo_of_showAll`,
`parseComment_escaped`.
-/
import SqlDoc.Proofs.Doc.Lines
import SqlDoc.Proofs.Doc.Pieces
import SqlDoc.Proofs.Doc.Spans

namespace SqlDoc

namespace Doc

/-! ### Escaping -/

/-- The character means something in running text, unless a backslash stands in front of it. -/
def isEscapable (c : Char) : Bool :=
  "@\x7b\x7d[]#\\*".toList.contains c

/-- The text with a backslash in front of each character that would mean something without it. -/
def escapeText (text : List Char) : List Char :=
  text.flatMap fun c => if isEscapable c then ['\\', c] else [c]

theorem escapeText_cons_of_escapable {c : Char} (hc : isEscapable c = true) (text : List Char) :
    escapeText (c :: text) = '\\' :: c :: escapeText text := by
  rw [escapeText, List.flatMap_cons, if_pos hc]
  rfl

theorem escapeText_cons_of_not {c : Char} (hc : isEscapable c = false) (text : List Char) :
    escapeText (c :: text) = c :: escapeText text := by
  rw [escapeText, List.flatMap_cons, if_neg (Bool.eq_false_iff.1 hc)]
  rfl

theorem mem_escapeText {c : Char} {text : List Char} (h : c ∈ text) : c ∈ escapeText text := by
  refine List.mem_flatMap.2 ⟨c, h, ?_⟩
  split <;> simp

/-- The text with its backslashes left out. -/
def withoutBackslashes (text : List Char) : List Char :=
  text.filter (· != '\\')

theorem withoutBackslashes_append (a b : List Char) :
    withoutBackslashes (a ++ b) = withoutBackslashes a ++ withoutBackslashes b :=
  List.filter_append ..

theorem withoutBackslashes_eq_self {text : List Char} (h : '\\' ∉ text) :
    withoutBackslashes text = text :=
  List.filter_eq_self.2 fun _ hc => bne_iff_ne.2 fun heq => h (heq ▸ hc)

/-- What an escaped text begins with is what the text begins with, if there is no backslash in
it. -/
theorem escapeText_split {text piece rest : List Char} (h : escapeText text = piece ++ rest)
    (hpiece : '\\' ∉ piece) :
    ∃ more, text = piece ++ more ∧ rest = escapeText more ∧ ∀ c ∈ piece, isEscapable c = false := by
  induction piece generalizing text with
  | nil => exact ⟨text, rfl, h.symm, fun _ h => absurd h List.not_mem_nil⟩
  | cons d piece ih =>
    rw [List.mem_cons, not_or] at hpiece
    cases text with
    | nil => cases h
    | cons c text =>
      cases hc : isEscapable c with
      | true =>
        rw [escapeText_cons_of_escapable hc] at h
        exact absurd (List.cons.inj h).1 hpiece.1
      | false =>
        rw [escapeText_cons_of_not hc] at h
        obtain ⟨rfl, htail⟩ := List.cons.inj h
        obtain ⟨more, rfl, hrest, hall⟩ := ih htail hpiece.2
        exact ⟨more, rfl, hrest, List.forall_mem_cons.2 ⟨hc, hall⟩⟩

/-! ### Pieces of an escaped text -/

variable {lineStart : Bool}

theorem matchAt?_escape {c : Char} (rest : List Char) (hc : isEscapable c = true) :
    ∃ stop, escape.matchAt? (.start ('\\' :: c :: rest)) = some stop ∧ stop.seen = 2 := by
  obtain ⟨first, hfirst⟩ :
      ∃ first, (Cursor.start ('\\' :: c :: rest)).next? (.single '\\') = some first :=
    Cursor.next?_isSome rfl rfl
  obtain ⟨_, -, hrest⟩ := Cursor.rest_of_next? hfirst
  obtain ⟨-, hchar⟩ := List.cons.inj hrest
  have hmem : (CharSet.ofList "@\x7b\x7d[]#\\*".toList).mem c = true := by
    rw [CharSet.mem_ofList]
    exact hc
  obtain ⟨second, hsecond⟩ := Cursor.next?_isSome hchar.symm hmem
  have hrun : escape.matchAt? (.start ('\\' :: c :: rest)) =
      ((Cursor.start ('\\' :: c :: rest)).next? (.single '\\')).bind fun mid =>
        (mid.next? (.ofList "@\x7b\x7d[]#\\*".toList)).bind some :=
    rfl
  refine ⟨second, ?_, ?_⟩
  · rw [hrun, hfirst, Option.bind_some, hsecond, Option.bind_some]
  · rw [Cursor.seen_of_next? hsecond, Cursor.seen_of_next? hfirst]
    rfl

/-- A backslash and a character that it takes the meaning from are read together. They are shown as
the character, but as nothing if that is a backslash too. -/
theorem readPiece_escape {c : Char} (rest : List Char) (hc : isEscapable c = true) :
    readPiece lineStart [] ('\\' :: c :: rest) =
      (⟨.escape, 2, String.ofList (withoutBackslashes [c])⟩, false) := by
  obtain ⟨stop, hstop, hseen⟩ := matchAt?_escape rest hc
  have hread := Matcher.tokenEnd?_of_matchAt? rfl hstop
  let front := spelling .commentStart "/**" (.push 1) :: wordRules.take 5
  let escapeRule := rule .escape escape .stay (withoutLeading '\\')
  have hfront : front.findSome? (pieceOf? ('\\' :: c :: rest)) = none :=
    findSome?_pieceOf?_eq_none (by decide)
  have hescape : pieceOf? ('\\' :: c :: rest) escapeRule = some (.ofMatch escapeRule stop) :=
    congrArg (Option.map _) hread
  have hvalue : Piece.ofMatch escapeRule stop =
      ⟨.escape, 2, String.ofList (withoutBackslashes [c])⟩ := by
    rw [Piece.ofMatch, hseen]
    by_cases hback : c = '\\'
    · simp [escapeRule, rule, withoutLeading, withoutBackslashes, hback]
    · simp [escapeRule, rule, withoutLeading, withoutBackslashes, hback]
  have hpiece : pieceIn? (contentState []) ('\\' :: c :: rest) =
      some ⟨.escape, 2, String.ofList (withoutBackslashes [c])⟩ := by
    show (front ++ escapeRule :: _).findSome? _ = _
    rw [List.findSome?_append, hfront, List.findSome?_cons, hescape, hvalue]
    rfl
  have hline : pieceIn? 1 ('\\' :: c :: rest) = none :=
    findSome?_pieceOf?_eq_none
      (by decide : (lineStartState.rules.all fun r => !r.matcher.mayBeginWith '\\') = true)
  rw [readPiece_of_none hline, contentPiece, hpiece]
  rfl

/-- Tokens of the kind stand for themselves in running text. -/
def isPlain : DocKind → Bool
  | .whitespace | .url | .identifier | .number | .text | .lparen | .rparen | .equals | .comma
  | .dot | .pipe | .colon => true
  | _ => false

/-- The token stands in running text for the characters: its own, or the one that is escaped. -/
inductive Shows (t : DocToken) : List Char → Prop where
  | plain (hkind : isPlain t.kind = true)
      (hblank : t.kind.isLayout = true → ∀ c ∈ t.text.toList, Text.isBlank c = true) :
      Shows t t.text.toList
  | escape (hkind : t.kind = .escape) : Shows t t.value.toList

theorem whitespace_of_isPlain {kind : DocKind} (h : isPlain kind = true)
    (hlayout : kind.isLayout = true) : kind = .whitespace := by
  cases kind <;> simp_all [isPlain, DocKind.isLayout]

/-- What the rule reads is plain if every character of it means nothing. It has no backslash, but in
an address or as an escape, and no blank, but in a run of blanks. -/
def checksPlain (r : Rule DocKind Matcher (Fin 4)) : Bool :=
  (isPlain r.kind || r.matcher.mustContain fun c => isEscapable c || Text.isLineEnd c) &&
    (r.kind = .url || r.matcher.avoids '\\' || r.matcher.isPattern escape) &&
    (if r.kind = .whitespace then r.matcher.isPattern .blanks else r.matcher.avoids ' ')

theorem checksPlain_rules {id : Fin 4} (h : id = 1 ∨ id = contentState []) :
    ((docGrammar.state id).rules.all checksPlain) = true := by
  rcases h with rfl | rfl
  · exact (by decide : (lineStartState.rules.all checksPlain) = true)
  · exact (by decide : (mainState.rules.all checksPlain) = true)

theorem isBlank_of_describes_blanks {piece : List Char} (h : Pattern.blanks.Describes piece) :
    ∀ c ∈ piece, Text.isBlank c = true := by
  intro c hc
  have hmay : Pattern.innerBlank.mem c = true := h.mayContain hc
  exact (Bool.and_eq_true_iff.1 hmay).1

/-- What a rule that passes the check reads where there is no backslash. -/
theorem plain_of_checksPlain {r : Rule DocKind Matcher (Fin 4)} (h : checksPlain r = true)
    {c : Char} {rest : List Char} (hc : c ≠ '\\') {stop : Cursor (c :: rest)}
    (hstop : r.matcher.tokenEnd? (c :: rest) = some stop) :
    let piece := (c :: rest).take stop.seen
    (isPlain r.kind = true ∨ ∃ d ∈ piece, (isEscapable d || Text.isLineEnd d) = true) ∧
      (r.kind = .url ∨ '\\' ∉ piece) ∧
      (r.kind = .whitespace ∨ ' ' ∉ piece) ∧
      (r.kind = .whitespace → ∀ d ∈ piece, Text.isBlank d = true) := by
  simp only [checksPlain, Bool.and_eq_true, Bool.or_eq_true, decide_eq_true_eq] at h
  obtain ⟨⟨hmeaning, hbackslash⟩, hspace⟩ := h
  refine ⟨hmeaning.imp_right fun hmust => Matcher.exists_mem_of_mustContain hmust hstop, ?_, ?_,
    fun hkind => ?_⟩
  · rcases hbackslash with (hurl | havoids) | hescape
    · exact Or.inl hurl
    · exact Or.inr (Matcher.not_mem_of_avoids havoids hstop)
    · rw [Matcher.eq_of_isPattern hescape] at hstop
      have hbegin : ((CharSet.single '\\').mem c || (false && _)) = true :=
        Matcher.mayBeginWith_of_tokenEnd? hstop
      exact absurd (by simpa using hbegin) hc
  · by_cases hkind : r.kind = .whitespace
    · exact Or.inl hkind
    · rw [if_neg hkind] at hspace
      exact Or.inr (Matcher.not_mem_of_avoids hspace hstop)
  · rw [if_pos hkind] at hspace
    rw [Matcher.eq_of_isPattern hspace] at hstop
    exact isBlank_of_describes_blanks (Matcher.describes_of_pattern hstop)

/-- A piece in front of a blank goes past it only if it has the blank and all in front of it. -/
theorem prefix_of_not_mem {piece front back : List Char} {d : Char}
    (h : piece <+: front ++ ' ' :: back) (hd : d ∈ front ++ [' ']) (hpiece : d ∉ piece) :
    piece <+: front := by
  have hfront : front ++ [' '] <+: front ++ ' ' :: back :=
    (List.prefix_append_right_inj front).2 ⟨back, rfl⟩
  rcases List.prefix_or_prefix_of_prefix h hfront with hle | hle
  · rcases List.prefix_concat_iff.1 hle with rfl | hle
    · exact absurd hd hpiece
    · exact hle
  · exact absurd (hle.subset hd) hpiece

variable {text tail : List Char}

/-- The text is on one line. A blank does not end it. -/
structure OneLine (text : List Char) : Prop where
  line : ∀ c ∈ text, Text.isLineEnd c = false
  last : ∀ c ∈ text.getLast?, Text.isBlank c = false

theorem OneLine.right {piece more : List Char} (h : OneLine (piece ++ more)) :
    OneLine more where
  line c hc := h.line c (List.mem_append_right piece hc)
  last c hc := h.last c (by rw [List.getLast?_append, hc]; rfl)

/-- A piece that is all blank or has no blank ends before the blank behind the text. -/
theorem OneLine.prefix_of_blanks {piece : List Char} (h : OneLine text) (hne : text ≠ [])
    (hle : piece <+: escapeText text ++ ' ' :: tail)
    (hpiece : (∀ d ∈ piece, Text.isBlank d = true) ∨ ' ' ∉ piece) :
    piece <+: escapeText text := by
  rcases hpiece with hblank | hspace
  · -- the last character of the text is in front of the blank, and is none
    obtain ⟨last, hlast⟩ : ∃ last, text.getLast? = some last :=
      ⟨_, List.getLast?_eq_some_getLast hne⟩
    have hmem := mem_escapeText (List.mem_of_getLast? hlast)
    refine prefix_of_not_mem hle (List.mem_append_left _ hmem) fun hin => ?_
    exact absurd (hblank last hin) (Bool.eq_false_iff.1 (h.last last hlast))
  · exact prefix_of_not_mem hle (List.mem_append_right _ List.mem_cons_self) hspace

/-- Without a backslash nothing in a piece of the escaped text means anything. -/
theorem OneLine.means_nothing {piece : List Char} (h : OneLine text)
    (hwithin : piece <+: escapeText text) (hback : '\\' ∉ piece) :
    ∀ d ∈ piece, (isEscapable d || Text.isLineEnd d) = false := by
  intro d hd
  obtain ⟨rest, hrest⟩ := hwithin
  obtain ⟨rest, htext, -, hall⟩ := escapeText_split hrest.symm hback
  rw [hall d hd, h.line d (htext ▸ List.mem_append_left rest hd)]
  rfl

/-- A piece that begins with a character that means nothing is plain and has no character that
means anything. -/
theorem readPiece_plain {c : Char} {more : List Char} (h : OneLine (c :: more))
    (hc : isEscapable c = false) :
    let source := c :: (escapeText more ++ ' ' :: tail)
    let p := (readPiece lineStart [] source).1
    let piece := source.take p.length
    (p.kind = .url → '\\' ∉ piece) →
      piece ≠ [] ∧ '\\' ∉ piece ∧ piece <+: escapeText (c :: more) ∧ isPlain p.kind = true ∧
        (p.kind.isLayout = true → ∀ d ∈ piece, Text.isBlank d = true) := by
  intro source p piece hurl
  have hback : c ≠ '\\' := by
    rintro rfl
    cases hc
  have hescaped := escapeText_cons_of_not hc more
  rcases readPiece_cases lineStart [] source with
    ⟨id, hid, r, hr, stop, hstop, hp⟩ | ⟨-, hp⟩
  · have hpiece : piece = source.take stop.seen := congrArg (fun p => source.take p.length) hp
    have hkind : p.kind = r.kind := congrArg Piece.kind hp
    have hcheck := List.all_eq_true.1 (checksPlain_rules hid) r hr
    have hplain := plain_of_checksPlain hcheck hback hstop
    rw [← hkind, ← hpiece] at hplain
    obtain ⟨hmeaning, hbackslash, hspace, hblank⟩ := hplain
    have hnone : '\\' ∉ piece := hbackslash.elim hurl fun hnone => hnone
    have hle : piece <+: escapeText (c :: more) ++ ' ' :: tail := by
      rw [hescaped]
      exact List.take_prefix p.length source
    have hwithin := h.prefix_of_blanks (List.cons_ne_nil c more) hle (hspace.imp_left hblank)
    have hplain : isPlain p.kind = true := by
      refine hmeaning.resolve_right fun ⟨d, hd, hmeans⟩ => ?_
      rw [h.means_nothing hwithin hnone d hd] at hmeans
      cases hmeans
    exact ⟨hpiece ▸ Matcher.take_seen_ne_nil hstop, hnone, hwithin, hplain,
      fun hlayout => hblank (whitespace_of_isPlain hplain hlayout)⟩
  · have hpiece : piece = [c] := congrArg (fun p => source.take p.length) hp
    have hkind : p.kind = .text := congrArg Piece.kind hp
    rw [hpiece, hkind, List.mem_singleton, hescaped]
    exact ⟨List.cons_ne_nil c [], hback.symm, List.prefix_append [c] (escapeText more), rfl,
      fun hlayout => absurd hlayout (by decide)⟩

/-- A piece of an escaped text stands for a piece of the text without its backslashes, and leaves the
rest of it escaped. -/
theorem readPiece_escapeText (h : OneLine text) (hne : text ≠ []) (position : Position) :
    let source := escapeText text ++ ' ' :: tail
    let p := (readPiece lineStart [] source).1
    (p.kind = .url → '\\' ∉ source.take p.length) →
      ∃ piece more, piece ≠ [] ∧ text = piece ++ more ∧
        source.drop p.length = escapeText more ++ ' ' :: tail ∧
        Shows (p.token source position) (withoutBackslashes piece) ∧
        (p.kind.isLayout = true → ∀ d ∈ piece, Text.isBlank d = true) := by
  obtain ⟨c, more, rfl⟩ := List.exists_cons_of_ne_nil hne
  intro source p hurl
  cases hc : isEscapable c with
  | true =>
    have hsource : source = '\\' :: c :: (escapeText more ++ ' ' :: tail) :=
      congrArg (· ++ ' ' :: tail) (escapeText_cons_of_escapable hc more)
    have hp : p = ⟨.escape, 2, String.ofList (withoutBackslashes [c])⟩ := by
      show (readPiece lineStart [] source).1 = _
      rw [hsource, readPiece_escape _ hc]
    refine ⟨[c], more, List.cons_ne_nil c [], rfl, ?_, ?_, fun hlayout => ?_⟩
    · rw [hp, hsource]
      rfl
    · have hshows := Shows.escape (t := p.token source position) (congrArg Piece.kind hp)
      have hvalue : (p.token source position).value.toList = withoutBackslashes [c] := by
        show p.value.toList = _
        rw [hp, String.toList_ofList]
      rwa [hvalue] at hshows
    · rw [hp] at hlayout
      cases hlayout
  | false =>
    have hsource : source = c :: (escapeText more ++ ' ' :: tail) :=
      congrArg (· ++ ' ' :: tail) (escapeText_cons_of_not hc more)
    have hpiece := @readPiece_plain lineStart tail c more h hc
    rw [← hsource] at hpiece
    obtain ⟨hpos, hback, ⟨rest, hwithin⟩, hplain, hblank⟩ := hpiece hurl
    obtain ⟨more', htext, hrest, -⟩ := escapeText_split hwithin.symm hback
    refine ⟨source.take p.length, more', hpos, htext, ?_, ?_, hblank⟩
    · refine @List.append_cancel_left _ (source.take p.length) _ _ ?_
      rw [List.take_append_drop, ← List.append_assoc, ← hrest, hwithin]
    · have htoken : (p.token source position).text.toList = source.take p.length :=
        String.toList_ofList
      rw [withoutBackslashes_eq_self hback]
      rw [← htoken] at hblank ⊢
      exact Shows.plain hplain hblank

/-! ### Tokens of an escaped text -/

/-- The tokens stand in running text for the characters, each for a piece of them. -/
inductive ShowAll : List DocToken → List Char → Prop where
  | nil : ShowAll [] []
  | cons {t : DocToken} {tokens : List DocToken} {piece more : List Char} (ht : Shows t piece)
      (h : ShowAll tokens more) : ShowAll (t :: tokens) (piece ++ more)

theorem Shows.kind_not_mem {t : DocToken} {piece : List Char} (h : Shows t piece) :
    t.kind ∉ [.tag, .lbrace, .lbracket, .hash] := by
  cases h with
  | plain hkind => cases hk : t.kind <;> simp_all [isPlain]
  | escape hkind => simp [hkind]

theorem Shows.openAfter_nil {t : DocToken} {piece : List Char} (h : Shows t piece) :
    openAfter [] t.kind = [] := by
  cases h with
  | plain hkind => cases hk : t.kind <;> simp_all [isPlain, openAfter]
  | escape hkind =>
    rw [hkind]
    rfl

theorem Shows.isTrivia {t : DocToken} {piece : List Char} (h : Shows t piece) :
    t.isTrivia = false := by
  show (TokenKind.trivia t.kind == .yes) = false
  cases h with
  | plain hkind => cases hk : t.kind <;> first | rfl | simp [hk, isPlain] at hkind
  | escape hkind =>
    rw [hkind]
    rfl

theorem ShowAll.isTrivia {tokens : List DocToken} {text : List Char} (h : ShowAll tokens text) :
    ∀ t ∈ tokens, t.isTrivia = false := by
  induction h with
  | nil => exact fun _ ht => absurd ht List.not_mem_nil
  | cons ht _ ih => exact List.forall_mem_cons.2 ⟨ht.isTrivia, ih⟩

theorem isTrivia_of_kind {t : DocToken} {kind : DocKind} (h : t.kind = kind) :
    t.isTrivia = (TokenKind.trivia kind == .yes) := by
  rw [← h]
  rfl

/-- Of a comment the delimiters are left out. -/
theorem filter_comment {first close : DocToken} {shown : List DocToken}
    (hfirst : first.kind = .commentStart) (hshown : ∀ t ∈ shown, t.isTrivia = false)
    (hclose : close.kind = .commentEnd) :
    (first :: (shown ++ [close])).filter (fun t => !t.isTrivia) = shown := by
  have hkept : ∀ t ∈ shown, (!t.isTrivia) = true := fun t ht => by rw [hshown t ht]; rfl
  rw [List.filter_cons_of_neg (by rw [isTrivia_of_kind hfirst]; decide), List.filter_append,
    List.filter_eq_self.2 hkept, List.filter_singleton, isTrivia_of_kind hclose]
  exact List.append_nil shown

variable {lx : Lexer docGrammar}

/-- A blank and the end of the comment are two tokens. -/
theorem run_end (h : Stands lineStart [] lx) (hrest : lx.rest = [' ', '*', '/']) :
    ∃ blank close, lx.run.1 = [blank, close] ∧ Shows blank [' '] ∧ close.kind = .commentEnd := by
  obtain ⟨hblank, hone⟩ : (readPiece lineStart [] [' ', '*', '/']).1.kind = .whitespace ∧
      (readPiece lineStart [] [' ', '*', '/']).1.length = 1 := by
    cases lineStart <;> decide +kernel
  have hclose (lineStart : Bool) : (readPiece lineStart [] ['*', '/']).1.kind = .commentEnd ∧
      (readPiece lineStart [] ['*', '/']).1.length = 2 := by
    cases lineStart <;> decide +kernel
  obtain ⟨next, hrun, hleft, hnext⟩ := h.run_cons hrest (List.cons_ne_nil _ _)
  have hleft : next.rest = ['*', '/'] := hleft.trans (congrArg (List.drop · _) hone)
  have hnext : Stands _ [] next := congrArg (openAfter []) hblank ▸ hnext
  obtain ⟨last, hlast, hend, -⟩ := hnext.run_cons hleft (List.cons_ne_nil _ _)
  rw [(hclose _).2] at hend
  have hfinished := Lexer.step_of_endError?_none hend (endError?_eq_none last)
  rw [hlast, Lexer.run_of_finished hfinished] at hrun
  refine ⟨_, _, hrun, ?_, (hclose _).1⟩
  let blank := (readPiece lineStart [] [' ', '*', '/']).1.token [' ', '*', '/'] lx.position
  have htext : blank.text.toList = [' '] :=
    String.toList_ofList.trans (congrArg (List.take · _) hone)
  have hshows : Shows blank blank.text.toList :=
    .plain (congrArg isPlain hblank) fun _ => htext ▸ List.forall_mem_singleton.2 (by decide)
  rwa [htext] at hshows

/-- An escaped text in front of the end of a comment is read as tokens that stand for it without its
backslashes. Not all of them are layout. -/
theorem run_escapeText (h : Stands lineStart [] lx) (htext : OneLine text)
    (hrest : lx.rest = escapeText text ++ [' ', '*', '/'])
    (hurl : ∀ t ∈ lx.run.1, t.kind = .url → '\\' ∉ t.text.toList) :
    ∃ shown close, lx.run.1 = shown ++ [close] ∧
      ShowAll shown (withoutBackslashes text ++ [' ']) ∧ close.kind = .commentEnd ∧
      (text ≠ [] → ∃ t ∈ shown, t.kind.isLayout = false) := by
  induction hn : text.length using Nat.strongRecOn generalizing lineStart lx text with
  | ind n ih =>
    by_cases hne : text = []
    · subst hne
      obtain ⟨blank, close, hrun, hblank, hclose⟩ := run_end h hrest
      have hall : ShowAll [blank] ([' '] ++ []) := .cons hblank .nil
      exact ⟨[blank], close, hrun, hall, hclose, fun hne => absurd rfl hne⟩
    · obtain ⟨next, hrun, hleft, hnext⟩ :=
        h.run_cons hrest (List.append_ne_nil_of_right_ne_nil _ (List.cons_ne_nil _ _))
      rw [hrun] at hurl ⊢
      obtain ⟨hurl, hurls⟩ := List.forall_mem_cons.1 hurl
      rw [Piece.token, String.toList_ofList] at hurl
      obtain ⟨piece, more, hpos, rfl, hdrop, hshows, hblank⟩ :=
        readPiece_escapeText htext hne lx.position hurl
      have hopen : openAfter [] (readPiece lineStart [] _).1.kind = [] := hshows.openAfter_nil
      rw [hopen] at hnext
      have hless : more.length < n := by
        have := List.length_pos_iff.2 hpos
        rw [← hn, List.length_append]
        omega
      obtain ⟨tokens, close, hmore, hall, hclose, hsolid⟩ :=
        ih _ hless hnext htext.right (hleft.trans hdrop) hurls rfl
      rw [hmore, withoutBackslashes_append, List.append_assoc]
      refine ⟨_ :: tokens, close, rfl, .cons hshows hall, hclose, fun _ => ?_⟩
      by_cases hend : more = []
      · -- the last character of the text is in this piece, and is no blank
        subst hend
        rw [List.append_nil] at htext
        obtain ⟨last, hlast⟩ : ∃ last, piece.getLast? = some last :=
          ⟨_, List.getLast?_eq_some_getLast hpos⟩
        refine ⟨_, List.mem_cons_self, Bool.eq_false_iff.2 fun hlayout => ?_⟩
        have hlastBlank := hblank hlayout last (List.mem_of_getLast? hlast)
        exact absurd hlastBlank (Bool.eq_false_iff.1 (htext.last last hlast))
      · obtain ⟨t, ht, hkind⟩ := hsolid hend
        exact ⟨t, List.mem_cons_of_mem _ ht, hkind⟩

end Doc

namespace TagReader

open Doc (Shows ShowAll isPlain)

variable {s : TagState} {text : List Char}

/-! ### Content of such tokens -/

theorem writtenContent_cons (node : ContentNode) (rest : List ContentNode) :
    writtenContent (node.cons rest) = writtenContent [node] ++ writtenContent rest := by
  fun_cases ContentNode.cons node rest with
  | case1 first second rest =>
    simp only [writtenContent, String.append_assoc, String.append_empty]
  | case2 =>
    cases node <;> simp only [writtenContent, String.append_empty]

theorem contentToken_of_shows {t : DocToken} {piece : List Char} (h : Shows t piece) :
    contentToken .block t = .text (String.ofList piece) := by
  cases h with
  | plain hkind =>
    rw [String.ofList_toList]
    cases hk : t.kind <;> simp_all [isPlain, contentToken]
  | escape hkind =>
    rw [contentToken, hkind, String.ofList_toList]

theorem take_run {t : DocToken} {rest : List DocToken} (hrest : s.rest = t :: rest) :
    take.run s = ((), s.pass t rest) :=
  congrArg (Prod.mk ()) (TagState.take_eq_pass hrest)

/-- Content begins with a token that opens nothing and is not the mark of a reference. -/
theorem content_of_token {t : DocToken} {rest : List DocToken} (hrest : s.rest = t :: rest)
    (h : t.kind ∉ [.tag, .lbrace, .lbracket])
    (hhash : ¬ (t.kind = .hash ∧ s.secondKind? = some .identifier)) (n : Nat) :
    (content (n + 1) .block).run s =
      let r := (content n .block).run (s.pass t rest)
      ((contentToken .block t).cons r.1, r.2) := by
  simp only [List.mem_cons, List.not_mem_nil, or_false, not_or] at h
  obtain ⟨htag, hbrace, hbracket⟩ := h
  have hmarker : s.atMarker = false := by
    rw [TagState.atMarker, TagState.kind?_eq hrest]
    simp [htag]
  have hstop : ¬ (s.atMarker = true ∨ Scope.block = .inline ∧ t.kind = .rbrace) := by
    simp [hmarker]
  rw [content, run_get, hrest]
  dsimp only
  rw [if_neg hstop, if_neg fun h => hbrace h.1, if_neg hbrace, if_neg hbracket, if_neg hhash,
    run_bind, take_run hrest]
  rfl

/-- The content of tokens that stand for characters is written as the characters. -/
theorem writtenContent_of_showAll {n : Nat} (h : ShowAll s.rest text) (hn : s.rest.length ≤ n) :
    writtenContent ((content n .block).run s).1 = String.ofList text ∧
      ((content n .block).run s).2.rest = [] := by
  generalize htokens : s.rest = tokens at h hn
  induction h generalizing s n with
  | nil =>
    cases n with
    | zero => exact ⟨rfl, htokens⟩
    | succ n =>
      rw [content, run_get, htokens]
      exact ⟨rfl, htokens⟩
  | @cons t tokens piece more ht h ih =>
    cases n with
    | zero => exact absurd hn (Nat.not_succ_le_zero _)
    | succ n =>
      have hkind := ht.kind_not_mem
      have hopens : t.kind ∉ [.tag, .lbrace, .lbracket] := fun hmem =>
        hkind (List.mem_append_left [DocKind.hash] hmem)
      have hhash : t.kind ≠ .hash := fun hmem => hkind (by simp [hmem])
      rw [content_of_token htokens hopens fun h => hhash h.1]
      obtain ⟨hwritten, hend⟩ := ih (s := s.pass t tokens) rfl (Nat.le_of_succ_le_succ hn)
      refine ⟨?_, hend⟩
      rw [writtenContent_cons, hwritten, contentToken_of_shows ht, String.ofList_append]
      simp only [writtenContent, String.append_empty]

/-- Layout in front of such tokens stands for blanks. -/
theorem showAll_drop {tokens : List DocToken} (h : ShowAll tokens text) {j : Nat}
    (hlayout : ∀ i < j, (tokens[i]?.map (·.kind)).any DocKind.isLayout = true) :
    ∃ blanks more, text = blanks ++ more ∧ (∀ c ∈ blanks, Text.isBlank c = true) ∧
      ShowAll (tokens.drop j) more := by
  induction h generalizing j with
  | nil =>
    rw [List.drop_nil]
    exact ⟨[], [], rfl, fun _ h => absurd h List.not_mem_nil, .nil⟩
  | @cons t tokens piece more ht h ih =>
    cases j with
    | zero => exact ⟨[], piece ++ more, rfl, fun _ h => absurd h List.not_mem_nil, .cons ht h⟩
    | succ j =>
      have hpiece : ∀ c ∈ piece, Text.isBlank c = true := by
        have hkind : t.kind.isLayout = true := hlayout 0 (Nat.succ_pos j)
        cases ht with
        | plain _ hblank => exact hblank hkind
        | escape hescape =>
          rw [hescape] at hkind
          cases hkind
      obtain ⟨blanks, more, rfl, hblanks, hall⟩ :=
        ih fun i hi => hlayout (i + 1) (Nat.succ_lt_succ hi)
      refine ⟨piece ++ blanks, more, (List.append_assoc ..).symm, fun c hc => ?_, hall⟩
      exact (List.mem_append.1 hc).elim (hpiece c) (hblanks c)

/-- After layout comes a description, unless a marker is next. -/
theorem nextTag_of_skipLayout {j : Nat} (hskip : skipLayout.run s = ((), s.after j)) {t : DocToken}
    {rest : List DocToken} (hrest : (s.after j).rest = t :: rest) (ht : t.kind ≠ .tag) :
    nextTag.run s =
      (some <$> description (2 * ((s.after j).rest.length + 1))).run (s.after j) := by
  rw [nextTag, run_bind, hskip, run_get]
  dsimp only
  rw [TagState.kind?_eq hrest]
  split
  · rename_i hnone
    cases hnone
  · rename_i htag
    exact absurd (Option.some.inj htag) ht
  · rfl

/-- After layout the first tag is a description, unless a marker is next. It is the only one if it
takes all that is left. -/
theorem tagsUpTo_of_skipLayout {j n : Nat} (hskip : skipLayout.run s = ((), s.after j))
    {t : DocToken} {rest : List DocToken} (hrest : (s.after j).rest = t :: rest)
    (ht : t.kind ≠ .tag) (hn : s.rest.length ≤ n) :
    let bound := 2 * ((s.after j).rest.length + 1)
    ∃ more, ((tagsUpTo n).run s).1 = ((description bound).run (s.after j)).1 :: more ∧
      (((content bound .block).run (s.after j)).2.rest = [] → more = []) := by
  intro bound
  obtain ⟨n, rfl⟩ : ∃ m, n = m + 1 := by
    refine Nat.exists_eq_add_one.2 (lt_of_lt_of_le ?_ hn)
    have hlength := congrArg List.length (s.rest_after j)
    rw [hrest, List.length_cons, List.length_drop] at hlength
    omega
  refine ⟨((tagsUpTo n).run ((description bound).run (s.after j)).2).1, ?_,
    fun hend => tagsUpTo_of_rest_eq_nil hend n⟩
  rw [tagsUpTo, run_bind, nextTag_of_skipLayout hskip hrest ht]
  rfl

/-- Tokens that stand for characters on one line are one description, which is shown as the
characters without the blanks at the ends, if not all of the tokens are layout. -/
theorem tagsUpTo_of_showAll {n : Nat} (h : ShowAll s.rest text) (hn : s.rest.length ≤ n)
    (hsolid : ∃ t ∈ s.rest, t.kind.isLayout = false) (hline : '\n' ∉ text) :
    ∃ t, ((tagsUpTo n).run s).1 = [t] ∧ t.marker = "" ∧ t.isDescription = true ∧
      t.text = String.ofList (Text.trimChars text) := by
  obtain ⟨j, -, hlayout, hskip, -⟩ := skipLayout_cases s
  obtain ⟨blanks, more, rfl, hblanks, hall⟩ :=
    showAll_drop h fun i hi => s.kind?_after i ▸ hlayout i hi
  rw [← s.rest_after] at hall
  obtain ⟨t, rest, hrest⟩ : ∃ t rest, (s.after j).rest = t :: rest := by
    refine List.exists_cons_of_ne_nil fun hnil => ?_
    obtain ⟨t, ht, hno⟩ := hsolid
    obtain ⟨i, hi, rfl⟩ := List.getElem_of_mem ht
    rw [s.rest_after, List.drop_eq_nil_iff] at hnil
    have hkind := s.kind?_after i ▸ hlayout i (hi.trans_le hnil)
    rw [List.getElem?_eq_getElem hi] at hkind
    exact Bool.noConfusion (hno.symm.trans hkind)
  have ht : t.kind ≠ .tag := by
    rw [hrest] at hall
    cases hall with
    | cons ht _ =>
      intro hkind
      exact ht.kind_not_mem (hkind ▸ List.mem_cons_self)
  obtain ⟨others, htags, hnone⟩ := tagsUpTo_of_skipLayout hskip hrest ht hn
  have hbound : (s.after j).rest.length ≤ 2 * ((s.after j).rest.length + 1) := by omega
  obtain ⟨hwritten, hend⟩ := writtenContent_of_showAll hall hbound
  rw [hnone hend] at htags
  refine ⟨_, htags, rfl, rfl, ?_⟩
  have hmore : '\n' ∉ more := fun hmem => hline (List.mem_append_right blanks hmem)
  have hcontent : writtenContent ((description (2 * ((s.after j).rest.length + 1))).run
      (s.after j)).1.content = String.ofList more := hwritten
  rw [Text.trimChars_append hblanks, ← Text.tidyLines_of_not_mem hmore, Tag.text,
    contentText, hcontent, String.toList_ofList]

end TagReader

/-! ### Comments with escaped text -/

/-- The comment that says a text and nothing else. -/
def escapedComment (text : String) : String :=
  "/** " ++ String.ofList (Doc.escapeText text.toList) ++ " */"

section

open Doc

variable {s : String} {start : Position}

theorem readPiece_commentStart (rest : List Char) :
    (readPiece false [] ('/' :: '*' :: '*' :: rest)).1.kind = .commentStart ∧
      (readPiece false [] ('/' :: '*' :: '*' :: rest)).1.length = 3 :=
  ⟨rfl, rfl⟩

/-- The tokens of the comment stand for the text without its backslashes, with a blank at each end. -/
theorem lexDoc_escapedComment (hne : s ≠ "") (htext : OneLine s.toList)
    (hurl : ∀ t ∈ (lexDoc (escapedComment s) start).1, t.kind = .url → '\\' ∉ t.text.toList) :
    ∃ first shown close, (lexDoc (escapedComment s) start).1 = first :: (shown ++ [close]) ∧
      first.kind = .commentStart ∧ ShowAll shown (' ' :: withoutBackslashes s.toList ++ [' ']) ∧
      close.kind = .commentEnd ∧ ∃ t ∈ shown, t.kind.isLayout = false := by
  have hsource : (escapedComment s).toList =
      '/' :: '*' :: '*' :: (escapeText (' ' :: s.toList) ++ [' ', '*', '/']) := by
    have hmiddle := @String.toList_ofList (escapeText s.toList)
    rw [escapedComment, String.toList_append, String.toList_append, hmiddle]
    rfl
  obtain ⟨hkind, hlength⟩ :=
    readPiece_commentStart (escapeText (' ' :: s.toList) ++ [' ', '*', '/'])
  obtain ⟨next, hlex, hleft, hnext⟩ := lexDoc_cons hsource (List.cons_ne_nil _ _) start
  rw [hlength] at hleft
  rw [hkind] at hnext
  have hspaced : OneLine (' ' :: s.toList) := by
    refine ⟨List.forall_mem_cons.2 ⟨rfl, htext.line⟩, ?_⟩
    obtain ⟨c, rest, hcons⟩ := List.exists_cons_of_ne_nil (String.toList_eq_nil_iff.not.2 hne)
    rw [hcons, List.getLast?_cons_cons, ← hcons]
    exact htext.last
  rw [hlex] at hurl ⊢
  obtain ⟨shown, close, hshown, hall, hclose, hsolid⟩ :=
    run_escapeText hnext hspaced hleft (List.forall_mem_cons.1 hurl).2
  exact ⟨_, shown, close, congrArg (_ :: ·) hshown, hkind, hall, hclose,
    hsolid (List.cons_ne_nil _ _)⟩

/-- A text on one line without blanks at its ends is read back, without its backslashes, from the
comment in which everything in it is escaped that would mean something. It is one description, if no
address in the comment has a backslash. -/
theorem parseComment_escaped (hne : s ≠ "") (hline : ∀ c ∈ s.toList, Text.isLineEnd c = false)
    (htrim : Text.trim s = s)
    (hurl : ∀ t ∈ (lexDoc (escapedComment s) start).1, t.kind = .url → '\\' ∉ t.text.toList) :
    (parseComment (escapedComment s) start).error = none ∧
      ∃ t, (parseComment (escapedComment s) start).tags = [t] ∧ t.marker = "" ∧
        t.isDescription = true ∧
        t.text = Text.trim (String.ofList (withoutBackslashes s.toList)) ∧
        ('\\' ∉ s.toList → t.text = s) := by
  have hchars : Text.trimChars s.toList = s.toList :=
    String.toList_ofList.symm.trans (congrArg String.toList htrim)
  have hlast := Text.isBlank_last_of_trimChars_eq hchars
  obtain ⟨first, shown, close, htokens, hfirst, hall, hclose, hsolid⟩ :=
    lexDoc_escapedComment hne ⟨hline, hlast⟩ hurl
  have hfilter : (lexDoc (escapedComment s) start).1.filter (fun t => !t.isTrivia) = shown := by
    rw [htokens]
    exact filter_comment hfirst hall.isTrivia hclose
  have hfeed : '\n' ∉ ' ' :: withoutBackslashes s.toList ++ [' '] := by
    simp only [List.cons_append, List.mem_cons, List.mem_append, List.not_mem_nil, or_false, not_or]
    refine ⟨by decide, fun hmem => ?_, by decide⟩
    exact absurd (hline _ (List.mem_filter.1 hmem).1) (by decide)
  obtain ⟨t, htags, hmarker, hdescription, ht⟩ := TagReader.tagsUpTo_of_showAll
    (s := { rest := shown, stop := start }) hall (le_refl _) hsolid hfeed
  have htext : t.text = Text.trim (String.ofList (withoutBackslashes s.toList)) := by
    have hspace (text : List Char) : Text.trimChars (' ' :: text) = Text.trimChars text :=
      Text.trimChars_append (List.forall_mem_singleton.2 (by decide : Text.isBlank ' ' = true))
    rw [ht, Text.trimChars_concat rfl, hspace, Text.trim, String.toList_ofList]
  refine ⟨lexDoc_error _ start, t, ?_, hmarker, hdescription, htext, fun hback => ?_⟩
  · show readTags (lexDoc (escapedComment s) start).1 start = [t]
    rw [readTags, hfilter]
    exact htags
  · rw [htext, withoutBackslashes_eq_self hback, String.ofList_toList, htrim]

theorem forall_of_any {p : Char → Bool} {text : List Char} (h : text.any p = false) :
    ∀ c ∈ text, p c = false :=
  fun c hc => Bool.eq_false_iff.2 (List.any_eq_false.1 h c hc)

/-- Whatever means something is escaped. The address has nothing that is. -/
theorem parseComment_escaped_words :
    let s := "a@b, \x7bc\x7d [d] #e */ http://f"
    s ≠ "" ∧ (∀ c ∈ s.toList, Text.isLineEnd c = false) ∧ Text.trim s = s ∧
      (∀ t ∈ (lexDoc (escapedComment s)).1, t.kind = .url → '\\' ∉ t.text.toList) ∧
      '\\' ∉ s.toList ∧ (parseComment (escapedComment s)).error = none ∧
      ∃ t, (parseComment (escapedComment s)).tags = [t] ∧ t.marker = "" ∧
        t.isDescription = true ∧ t.text = s := by
  intro s
  have hne : s ≠ "" := by decide
  have hline : ∀ c ∈ s.toList, Text.isLineEnd c = false :=
    forall_of_any (by decide)
  have htrim : Text.trim s = s := by decide
  have hurl : ∀ t ∈ (lexDoc (escapedComment s)).1, t.kind = .url → '\\' ∉ t.text.toList := by
    decide +kernel
  have hback : '\\' ∉ s.toList := by decide
  obtain ⟨herror, t, htags, hmarker, hdescription, -, htext⟩ :=
    parseComment_escaped hne hline htrim hurl
  exact ⟨hne, hline, htrim, hurl, hback, herror, t, htags, hmarker, hdescription, htext hback⟩

/-- An escaped backslash is not read back. -/
theorem parseComment_escaped_backslash :
    let s := "\\"
    s ≠ "" ∧ (∀ c ∈ s.toList, Text.isLineEnd c = false) ∧ Text.trim s = s ∧
      escapedComment s = "/** \\\\ */" ∧
      (parseComment (escapedComment s)).tags.map Tag.text = [""] ∧
      ¬ ∃ t, (parseComment (escapedComment s)).tags = [t] ∧ t.isDescription = true ∧
        t.text = s := by
  intro s
  have htext : (parseComment (escapedComment s)).tags.map Tag.text = [""] := by
    decide +kernel
  have hline : ∀ c ∈ s.toList, Text.isLineEnd c = false :=
    forall_of_any (by decide)
  refine ⟨by decide, hline, by decide, by decide, htext, fun ⟨t, htags, _, hsame⟩ => ?_⟩
  rw [htags, List.map_singleton, hsame] at htext
  exact absurd htext (by decide)

/-- An address is taken as it is written, with the backslash in it. -/
example : (parseComment (escapedComment "http://a@b")).tags.map Tag.text = ["http://a\\@b"] := by
  decide +kernel

end

end SqlDoc

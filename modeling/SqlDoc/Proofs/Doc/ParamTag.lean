/-
# A comment that says what a parameter is for

In front of a character that no name has, and that is no colon, a name is read as a name: nothing
that is read before names begins like it, and an address has a colon behind its first letters
(`Doc.readPiece_name`). A word of a script is a name in a comment, as its letters and digits are
characters of names there (`Doc.describes_identifier`). So the comment `/** @param word text */` has
one tag, which is about the parameter that the word names and says the text of it
(`parseComment_paramComment`).

Key definitions: `Text.Ranges.within`, `Doc.nameChar`, `paramComment`.
Key theorems: `Doc.readPiece_letterMarker`, `Doc.readPiece_name`, `TagReader.tag_of_tagBody`,
`TagReader.param_run`, `parseComment_paramComment`.
-/
import SqlDoc.Proofs.Doc.Description
import SqlDoc.Proofs.Doc.Moving
import SqlDoc.Sql.Grammar

namespace SqlDoc

/-! ### Ranges of characters -/

namespace Text.Ranges

/-- Each of the first ranges lies in one of the second. -/
def within : Ranges → Ranges → Bool
  | r, [] => r.isEmpty
  | r, (first, last) :: s =>
    let more := r.dropWhile fun x => first ≤ x.1 && x.2 ≤ last
    (more.head?.all fun x => first ≤ x.1) && within more s

theorem covers_dropWhile {r : Ranges} (first last : Nat) {n : Nat} (h : r.covers n = true) :
    first ≤ n ∧ n ≤ last ∨
      Ranges.covers (r.dropWhile fun x => first ≤ x.1 && x.2 ≤ last) n = true := by
  induction r with
  | nil => cases h
  | cons range r ih =>
    rw [List.dropWhile_cons]
    split
    · rename_i hrange
      simp only [Bool.and_eq_true, decide_eq_true_eq] at hrange
      rw [covers] at h
      split at h
      · cases h
      · rcases (Bool.or_eq_true _ _).mp h with hlast | hmore
        · have := of_decide_eq_true hlast
          exact .inl (by omega)
        · exact ih hmore
    · exact .inr h

/-- What lies in ranges within others lies in the others. -/
theorem covers_of_within {r s : Ranges} (h : r.within s = true) {n : Nat}
    (hn : r.covers n = true) : s.covers n = true := by
  induction s generalizing r with
  | nil =>
    obtain rfl : r = [] := List.isEmpty_iff.1 h
    cases hn
  | cons range s ih =>
    obtain ⟨first, last⟩ := range
    rw [within, Bool.and_eq_true] at h
    rw [covers]
    rcases covers_dropWhile first last hn with ⟨hfirst, hlast⟩ | hmore
    · rw [if_neg (by omega), decide_eq_true hlast, Bool.true_or]
    · have hin := ih h.2 hmore
      have hfirst : first ≤ n := by
        generalize r.dropWhile _ = more at h hmore
        cases more with
        | nil => cases hmore
        | cons range more =>
          have hle : first ≤ range.1 := of_decide_eq_true h.1
          rw [covers] at hmore
          split at hmore
          · cases hmore
          · omega
      rw [if_neg (by omega), hin, Bool.or_true]

end Text.Ranges

namespace Doc

open Pattern (opt many concat choice literal)

/-! ### Names -/

/-- The characters that names begin with. -/
def nameStart : CharSet :=
  .union (.property .alphabetic) (.single '_')

/-- The characters of names. -/
def nameChar : CharSet :=
  .union wordChar (.ofList ['$', '#'])

/-- What names begin with may stand further on in them. -/
theorem mem_nameChar_of_first {c : Char} (hc : nameStart.mem c = true) :
    nameChar.mem c = true := by
  rw [nameStart, CharSet.mem_union, Bool.or_eq_true] at hc
  rw [nameChar, CharSet.mem_union, Bool.or_eq_true]
  rcases hc with halphabetic | hmark
  · exact .inl (Text.Ranges.covers_of_within
      (by decide +kernel : Text.alphabeticRanges.within Text.wordRanges = true) halphabetic)
  · rw [CharSet.mem_single, beq_iff_eq] at hmark
    exact .inl (hmark ▸ by decide)

theorem describes_identifier_iff {w : List Char} : identifier.Describes w ↔
    w.head?.any nameStart.mem = true ∧ ∀ c ∈ w.tail, nameChar.mem c = true := by
  refine Pattern.describes_word_iff.trans ⟨?_, ?_⟩
  · rintro ⟨c, tail, rfl, hc, htail⟩
    exact ⟨hc, htail⟩
  · rintro ⟨hfirst, htail⟩
    cases w with
    | nil => cases hfirst
    | cons c tail => exact ⟨c, tail, rfl, hfirst, htail⟩

instance (w : List Char) : Decidable (identifier.Describes w) :=
  decidable_of_iff (w.head?.any nameStart.mem = true ∧ w.tail.all nameChar.mem = true) <| by
    rw [describes_identifier_iff, List.all_eq_true]

theorem nameChar_of_describes {w : List Char} (hw : identifier.Describes w) :
    w ≠ [] ∧ ∀ c ∈ w, nameChar.mem c = true := by
  obtain ⟨c, tail, rfl, hc, htail⟩ := Pattern.describes_word_iff.1 hw
  exact ⟨List.cons_ne_nil c tail, List.forall_mem_cons.2 ⟨mem_nameChar_of_first hc, htail⟩⟩

theorem ne_of_nameChar {c : Char} (hc : nameChar.mem c = true) {marks : List Char}
    (h : (marks.all fun d => !nameChar.mem d) = true) : ∀ d ∈ marks, d ≠ c := by
  rintro d hd rfl
  have hnot := List.all_eq_true.1 h d hd
  rw [hc] at hnot
  cases hnot

theorem not_isBlank_of_nameChar {c : Char} (hc : nameChar.mem c = true) :
    Text.isBlank c = false := by
  refine Bool.eq_false_iff.2 fun hblank => ?_
  exact ne_of_nameChar hc (by decide +kernel) c (Text.mem_blankChars hblank) rfl

/-- In an address a colon stands behind letters. -/
theorem exists_of_describes_url {piece : List Char} (h : url.Describes piece) :
    ∃ scheme more, piece = scheme ++ ':' :: more ∧ ∀ c ∈ scheme, nameChar.mem c = true := by
  cases h with
  | @seq _ _ scheme more hscheme hmore =>
    have hletters : ∀ c ∈ scheme, nameChar.mem c = true := by
      intro c hc
      have hmay := hscheme.mayContain hc
      simp only [choice, literal, concat, opt, Pattern.mayContain, String.reduceToList,
        List.map_cons, List.map_nil, if_true, Bool.or_eq_true, CharSet.mem_single, beq_iff_eq,
        Bool.false_eq_true, or_false] at hmay
      have hmem : c ∈ "htpsfile".toList := by
        simp only [String.reduceToList, List.mem_cons, List.not_mem_nil, or_false]
        tauto
      exact List.all_eq_true.1 (by decide : ("htpsfile".toList.all nameChar.mem) = true) c hmem
    cases more with
    | nil => exact absurd (hmore.mayBeEmpty rfl) (by decide)
    | cons c more =>
      have hcolon := hmore.mayBeginWith (c := c) rfl
      have hcolon : c = ':' := by
        simpa [literal, concat, Pattern.mayBeginWith, Pattern.mayBeEmpty] using hcolon
      exact ⟨scheme, more, by rw [hcolon], hletters⟩

/-- What may stand in a word of a script may stand in a name of a comment. -/
theorem mem_of_wordRest {d : Char} (hd : Sql.wordRest.mem d = true) :
    nameChar.mem d = true := by
  have hchar (ranges : Text.Ranges) (hwithin : ranges.within Text.wordRanges = true)
      (h : ranges.contains d = true) : wordChar.mem d = true :=
    Text.Ranges.covers_of_within hwithin h
  rw [Sql.wordRest, CharSet.mem_union, CharSet.mem_union, Bool.or_eq_true, Bool.or_eq_true] at hd
  rw [nameChar, CharSet.mem_union, Bool.or_eq_true]
  rcases hd with halphabetic | hdecimal | hmark
  · exact .inl (hchar Text.alphabeticRanges (by decide +kernel) halphabetic)
  · exact .inl (hchar Text.decimalRanges (by decide +kernel) hdecimal)
  · rw [CharSet.mem_ofList, List.contains_iff_mem] at hmark
    rcases List.mem_cons.1 hmark with rfl | hmark
    · exact .inl (by decide)
    · rw [CharSet.mem_ofList, List.contains_iff_mem]
      exact .inr hmark

/-- A word of a script is a name of a comment. -/
theorem describes_identifier {w : List Char} (hw : Sql.word.Describes w) :
    identifier.Describes w := by
  obtain ⟨c, tail, rfl, hc, hall⟩ := Sql.exists_of_describes_word hw
  refine Pattern.describes_word_iff.2 ⟨c, tail, rfl, ?_, fun d hd =>
    mem_of_wordRest (hall d (List.mem_cons_of_mem c hd))⟩
  rw [CharSet.mem_union, Bool.or_eq_true]
  exact .inl hc

/-! ### What is read in front of a blank -/

/-- What a rule reads if the match of its pattern ends in front of `rest`. -/
theorem pieceOf?_of_pattern {r : Rule DocKind Matcher (Fin 4)} {p : Pattern}
    (piece : List Char) {rest : List Char} (hp : r.matcher = .pattern p)
    (hempty : p.mayBeEmpty = false)
    {stop : Cursor (piece ++ rest)} (hstop : p.matchAt? (.start (piece ++ rest)) = some stop)
    (hrest : stop.rest = rest) :
    pieceOf? (piece ++ rest) r = some ⟨r.kind, piece.length, r.value (String.ofList piece)⟩ := by
  have hseen : stop.seen = piece.length := by
    have hlength := stop.rest_length
    rw [hrest, List.length_append] at hlength
    omega
  have hpiece : Piece.ofMatch r stop = ⟨r.kind, piece.length, r.value (String.ofList piece)⟩ := by
    rw [Piece.ofMatch, hseen, List.take_left]
  rw [pieceOf?, hp, Matcher.tokenEnd?_of_matchAt? hempty hstop, Option.map_some, hpiece]

variable {rest : List Char} {enclosing : List Delimiter}

/-- One blank. -/
theorem readPiece_blank {c : Char} (hc : Text.isBlank c = false) (lineStart : Bool) :
    readPiece lineStart enclosing (' ' :: c :: rest) = (⟨.whitespace, 1, " "⟩, lineStart) := by
  have hrest : (Cursor.start (' ' :: c :: rest)).rest = ' ' :: c :: rest := rfl
  obtain ⟨stop, hstop⟩ := Pattern.matchAt?_many_isSome (s := Pattern.innerBlank) hrest (by decide)
  have hleft : stop.rest = c :: rest := by
    have hinner : Pattern.innerBlank.mem c = false := by rw [innerBlank_mem, hc, Bool.false_and]
    rw [Pattern.rest_of_matchAt?_many hstop, hrest, List.dropWhile_cons_of_pos (by decide),
      List.dropWhile_cons_of_neg (by rw [hinner]; exact Bool.false_ne_true)]
  have hblank (transition : Transition (Fin 4)) :
      pieceOf? (' ' :: c :: rest) (rule .whitespace .blanks transition) =
        some ⟨.whitespace, 1, " "⟩ :=
    pieceOf?_of_pattern [' '] rfl rfl hstop hleft
  cases lineStart with
  | true =>
    have hfront : pieceOf? (' ' :: c :: rest) (rule .commentEnd commentEnd .pop) = none :=
      pieceOf?_eq_none (by decide)
    have hpiece : pieceIn? 1 (' ' :: c :: rest) = some ⟨.whitespace, 1, " "⟩ := by
      show [rule .commentEnd commentEnd .pop, rule .whitespace .blanks, _].findSome? _ = _
      rw [List.findSome?_cons, hfront, List.findSome?_cons, hblank]
    rw [readPiece_of_some hpiece]
    rfl
  | false =>
    let front := spelling .commentStart "/**" (.push 1) :: wordRules.take 2
    have hfront : front.findSome? (pieceOf? (' ' :: c :: rest)) = none :=
      findSome?_pieceOf?_eq_none (by decide)
    have hpiece : pieceIn? (contentState []) (' ' :: c :: rest) = some ⟨.whitespace, 1, " "⟩ := by
      show (front ++ rule .whitespace .blanks :: _).findSome? _ = _
      rw [List.findSome?_append, hfront, List.findSome?_cons, hblank]
      rfl
    have hread : contentPiece enclosing (' ' :: c :: rest) = ⟨.whitespace, 1, " "⟩ := by
      rw [contentPiece_of_notMem (by decide), contentPiece, hpiece]
      rfl
    rw [readPiece, if_neg Bool.false_ne_true]
    dsimp only
    rw [hread]
    rfl

/-- One blank in front of a word. -/
theorem readPiece_blankWord {word : String} (h : Sql.word.Describes word.toList)
    (rest : List Char) :
    readPiece false [] ([' '] ++ (word.toList ++ rest)) = (⟨.whitespace, 1, " "⟩, false) := by
  obtain ⟨c, tail, hcons, -, hall⟩ := Sql.exists_of_describes_word h
  rw [hcons] at hall ⊢
  exact readPiece_blank (Sql.not_isBlank_of_wordRest (hall c List.mem_cons_self)) false

/-- A marker of letters. -/
theorem readPiece_letterMarker (name : List Char) (hne : name ≠ [])
    (hletters : name.all Char.isAlpha = true) (lineStart : Bool) :
    readPiece lineStart enclosing ('@' :: name ++ ' ' :: rest) =
      (⟨.tag, name.length + 1, Text.lower (withoutLeading '@' (String.ofList ('@' :: name)))⟩,
        false) := by
  let text := '@' :: name ++ ' ' :: rest
  obtain ⟨first, others, rfl⟩ := List.exists_cons_of_ne_nil hne
  have hrest : (Cursor.start text).rest = '@' :: first :: (others ++ ' ' :: rest) := rfl
  obtain ⟨mid, hmid⟩ := Cursor.next?_isSome (s := .single '@') hrest rfl
  obtain ⟨_, -, hcons⟩ := Cursor.rest_of_next? hmid
  have hname : mid.rest = first :: (others ++ ' ' :: rest) :=
    (List.cons.inj (hrest.symm.trans hcons)).2.symm
  rw [List.all_cons, Bool.and_eq_true] at hletters
  obtain ⟨stop, hstop, hleft⟩ := Pattern.rest_of_run_word (s := .union wordChar (.single '-')) hname
    (show (CharSet.property .alphabetic).mem first = true from
      Text.isAlphabetic_of_isAlpha hletters.1)
  have hrun : tag.matchAt? (.start text) = ((Cursor.start text).next? (.single '@')).bind fun mid =>
      (Pattern.seq (.set (.property .alphabetic))
        (.star (.set (.union wordChar (.single '-'))))).run mid some :=
    rfl
  have htag : tag.matchAt? (.start text) = some stop := by
    rw [hrun, hmid, Option.bind_some, hstop]
  have hothers : ∀ c ∈ others, (CharSet.union wordChar (.single '-')).mem c = true := by
    intro c hc
    have halphanum : c.isAlphanum = true := by
      rw [Char.isAlphanum, List.all_eq_true.1 hletters.2 c hc, Bool.true_or]
    have hword : wordChar.mem c = true := Text.isWordChar_of_isAlphanum halphanum
    rw [CharSet.mem_union, hword, Bool.true_or]
  rw [List.dropWhile_append_of_pos hothers, List.dropWhile_cons_of_neg (by decide)] at hleft
  let marker := rule .tag tag .stay fun text => Text.lower (withoutLeading '@' text)
  have hmarker : pieceOf? text marker = some _ :=
    pieceOf?_of_pattern (r := marker) ('@' :: first :: others) rfl rfl htag hleft
  let front := spelling .commentStart "/**" (.push 1) :: wordRules.take 3
  have hfront : front.findSome? (pieceOf? text) = none :=
    findSome?_pieceOf?_eq_none
      (by decide : (front.all fun r => !r.matcher.mayBeginWith '@') = true)
  have hpiece : pieceIn? (contentState []) text = pieceOf? text marker := by
    show (front ++ marker :: _).findSome? _ = _
    rw [List.findSome?_append, hfront, List.findSome?_cons, hmarker]
    rfl
  have hline : pieceIn? 1 text = none :=
    findSome?_pieceOf?_eq_none
      (by decide : (lineStartState.rules.all fun r => !r.matcher.mayBeginWith '@') = true)
  have hread : contentPiece enclosing text =
      (pieceOf? text marker).getD ⟨.text, 1, String.ofList (text.take 1)⟩ := by
    have hmain : contentPiece enclosing text = contentPiece [] text :=
      contentPiece_of_notMem (by decide : '@' ∉ _) _
    rw [hmain, contentPiece, hpiece]
  rw [readPiece_of_none hline, hread, hmarker]
  rfl

/-- A name is no scheme, if no colon follows it. -/
theorem pieceOf?_url_name {w : List Char} (hw : ∀ c ∈ w, nameChar.mem c = true) {c : Char}
    (hc : nameChar.mem c = false) (hcolon : c ≠ ':') :
    pieceOf? (w ++ c :: rest) (rule .url url) = none := by
  rw [pieceOf?, Option.map_eq_none_iff]
  cases hread : (rule .url url).matcher.tokenEnd? (w ++ c :: rest) with
  | none => rfl
  | some stop =>
    obtain ⟨scheme, more, hpiece, hscheme⟩ :=
      exists_of_describes_url (Matcher.describes_of_pattern hread)
    have hsplit := List.take_append_drop stop.seen (w ++ c :: rest)
    rw [hpiece, List.append_assoc, List.cons_append] at hsplit
    -- both sides begin with a run of characters of names, and go on alike behind it
    have hdrop := congrArg (List.dropWhile nameChar.mem) hsplit
    rw [List.dropWhile_append_of_pos hscheme, List.dropWhile_append_of_pos hw,
      List.dropWhile_cons_of_neg (by decide), List.dropWhile_cons_of_neg (Bool.not_eq_true _ ▸ hc)]
      at hdrop
    exact absurd (List.cons.inj hdrop).1.symm hcolon

/-- A name up to a character that no name has is read as such, if the character is no colon. -/
theorem readPiece_name {w : List Char} (hw : identifier.Describes w) {c : Char}
    (hc : nameChar.mem c = false) (hcolon : c ≠ ':') :
    readPiece false enclosing (w ++ c :: rest) =
      (⟨.identifier, w.length, String.ofList w⟩, false) := by
  obtain ⟨-, hall⟩ := nameChar_of_describes hw
  obtain ⟨first, tail, rfl, hfirst, htail⟩ := Pattern.describes_word_iff.1 hw
  have hmem : nameChar.mem first = true := hall first List.mem_cons_self
  have htail : ∀ d ∈ tail, nameChar.mem d = true := htail
  obtain ⟨stop, hstop, hleft⟩ := Pattern.rest_of_run_word (s := nameChar)
    (show (Cursor.start (first :: tail ++ c :: rest)).rest = first :: (tail ++ c :: rest) from rfl)
    hfirst
  rw [List.dropWhile_append_of_pos htail, List.dropWhile_cons_of_neg (Bool.not_eq_true _ ▸ hc)]
    at hleft
  have hname : pieceOf? (first :: tail ++ c :: rest) (rule .identifier identifier) = some _ :=
    pieceOf?_of_pattern _ rfl rfl hstop hleft
  have hne : ∀ d ∈ "/*\r\n@\\\"'".toList, d ≠ first := ne_of_nameChar hmem (by decide)
  have hurl : pieceOf? (first :: tail ++ c :: rest) (rule .url url) = none :=
    pieceOf?_url_name hall hc hcolon
  let front := spelling .commentStart "/**" (.push 1) :: wordRules.take 4
  have hblank : Pattern.innerBlank.mem first = false := by
    rw [innerBlank_mem, not_isBlank_of_nameChar hmem, Bool.false_and]
  have hmarks := hne
  simp only [String.reduceToList, List.forall_mem_cons] at hmarks
  have hfront : front.findSome? (pieceOf? (first :: tail ++ c :: rest)) = none := by
    refine findSome?_pieceOf?_eq_none ?_
    simp [front, wordRules, rule, spelling, Matcher.mayBeginWith, Pattern.mayBeginWith,
      Pattern.mayBeEmpty, commentEnd, tag, Pattern.blanks, Pattern.lineEnd, concat, literal,
      choice, Pattern.star, many, opt, hmarks, hblank, Ne.symm]
  have hescape : pieceOf? (first :: tail ++ c :: rest)
      (rule .escape escape .stay (withoutLeading '\\')) = none := by
    refine pieceOf?_eq_none ?_
    simp [rule, Matcher.mayBeginWith, Pattern.mayBeginWith, Pattern.mayBeEmpty, escape, literal,
      concat, Ne.symm hmarks.2.2.2.2.2.1]
  have hread : contentPiece enclosing (first :: tail ++ c :: rest) =
      ⟨.identifier, (first :: tail).length, String.ofList (first :: tail)⟩ := by
    have hpiece : pieceIn? (contentState []) (first :: tail ++ c :: rest) = some
        ⟨.identifier, (first :: tail).length, String.ofList (first :: tail)⟩ := by
      show (front ++ rule .url url :: rule .escape escape .stay (withoutLeading '\\') ::
        rule .identifier identifier :: _).findSome? _ = _
      rw [List.findSome?_append, hfront, List.findSome?_cons, hurl, List.findSome?_cons, hescape,
        List.findSome?_cons, hname]
      rfl
    have hmain : contentPiece enclosing (first :: tail ++ c :: rest) =
        contentPiece [] (first :: tail ++ c :: rest) := by
      refine contentPiece_of_notMem (fun hin => hne first ?_ rfl) _
      simp only [List.mem_cons, List.not_mem_nil, or_false] at hin
      simp only [String.reduceToList, List.mem_cons, List.not_mem_nil, or_false]
      tauto
    rw [hmain, contentPiece, hpiece]
    rfl
  rw [readPiece, if_neg Bool.false_ne_true]
  dsimp only
  rw [hread]
  rfl

/-- A word of a script in front of a blank is read as a name. -/
theorem readPiece_word {w : List Char} (hw : Sql.word.Describes w) :
    readPiece false [] (w ++ ' ' :: rest) = (⟨.identifier, w.length, String.ofList w⟩, false) :=
  readPiece_name (describes_identifier hw) (by decide) (by decide)

/-! ### The tokens of the comment -/

/-- The token has the kind and the text. -/
def IsToken (kind : DocKind) (text : String) (t : DocToken) : Prop :=
  t.kind = kind ∧ t.text = text

/-- A piece is read to a token. -/
theorem Stands.run_piece {lineStart after : Bool} {lx : Lexer docGrammar}
    (h : Stands lineStart enclosing lx) (piece : List Char) (hrest : lx.rest = piece ++ rest)
    (hne : piece ≠ []) {p : Piece}
    (hread : readPiece lineStart enclosing (piece ++ rest) = (p, after))
    (hlength : p.length = piece.length) {inner : List Delimiter}
    (hopen : openAfter enclosing p.kind = inner) :
    ∃ t next, lx.run.1 = t :: next.run.1 ∧ IsToken p.kind (String.ofList piece) t ∧
      t.value = p.value ∧ next.rest = rest ∧ Stands after inner next := by
  obtain ⟨next, hrun, hleft, hnext⟩ :=
    h.run_cons hrest (List.append_ne_nil_of_left_ne_nil hne rest)
  rw [hread] at hrun hleft hnext
  rw [hopen] at hnext
  refine ⟨_, next, hrun, ⟨rfl, ?_⟩, rfl, ?_, hnext⟩
  · show String.ofList ((piece ++ rest).take p.length) = _
    rw [hlength, List.take_left]
  · rw [hleft, hlength, List.drop_left]

/-- A comment is read from its opener and the blank behind that, and stands at the start of a line
then. -/
theorem run_opening {source : List Char} {c : Char} (hc : Text.isBlank c = false)
    (hsource : source = "/**".toList ++ ' ' :: c :: rest) (start : Position) :
    ∃ opened blank next, (Lexer.start docGrammar source start).run.1 =
        opened :: blank :: next.run.1 ∧
      IsToken .commentStart "/**" opened ∧ IsToken .whitespace " " blank ∧
      next.rest = c :: rest ∧ Stands true [] next := by
  have hstart := stands_start source start
  obtain ⟨opened, lx, hfirst, hopened, -, hrest, hlx⟩ := hstart.run_piece _ hsource
    (List.cons_ne_nil _ _)
    (show readPiece false [] _ = (⟨.commentStart, 3, "/**"⟩, true) from rfl) rfl rfl
  obtain ⟨blank, next, hsecond, hblank, -, hleft, hnext⟩ := hlx.run_piece [' '] hrest
    (List.cons_ne_nil _ _) (readPiece_blank hc true) rfl rfl
  exact ⟨opened, blank, next, by rw [hfirst, hsecond], hopened, hblank, hleft, hnext⟩

end Doc

/-- The comment that says what the parameter `word` is for. -/
def paramComment (word text : String) : String :=
  "/** @param " ++ word ++ " " ++ text ++ " */"

open Doc (IsToken) in
/-- The comment is read as a marker and two names, with a blank in front of each. -/
theorem lexDoc_paramComment {word text : String} (hword : Sql.word.Describes word.toList)
    (htext : Sql.word.Describes text.toList) (start : Position) :
    ∃ opened blank₁ marker blank₂ name blank₃ said blank₄ closed,
      (lexDoc (paramComment word text) start).1 =
        [opened, blank₁, marker, blank₂, name, blank₃, said, blank₄, closed] ∧
      IsToken .commentStart "/**" opened ∧ IsToken .whitespace " " blank₁ ∧
      IsToken .tag "@param" marker ∧ marker.value = "param" ∧ IsToken .whitespace " " blank₂ ∧
      IsToken .identifier word name ∧ IsToken .whitespace " " blank₃ ∧
      IsToken .identifier text said ∧ Doc.Shows blank₄ [' '] ∧ closed.kind = .commentEnd := by
  let after₆ := ' ' :: (text.toList ++ [' ', '*', '/'])
  let after₄ := ' ' :: (word.toList ++ after₆)
  let after₂ := ' ' :: ("@param".toList ++ after₄)
  have hsource : (paramComment word text).toList = "/**".toList ++ after₂ := by
    simp [paramComment, after₂, after₄, after₆]
  obtain ⟨opened, blank₁, lx₂, hrun₁, hopened, hblank₁, hrest₂, hlx₂⟩ :=
    Doc.run_opening (by decide) hsource start
  obtain ⟨marker, lx₃, hrun₃, hmarker, hvalue, hrest₃, hlx₃⟩ := hlx₂.run_piece _ hrest₂
    (List.cons_ne_nil _ _)
    (Doc.readPiece_letterMarker "param".toList (by decide) (by decide) true) rfl rfl
  obtain ⟨blank₂, lx₄, hrun₄, hblank₂, -, hrest₄, hlx₄⟩ := hlx₃.run_piece [' '] hrest₃
    (List.cons_ne_nil _ _) (Doc.readPiece_blankWord hword after₆) rfl rfl
  obtain ⟨name, lx₅, hrun₅, hname, -, hrest₅, hlx₅⟩ := hlx₄.run_piece _ hrest₄
    (Sql.ne_nil_of_describes_word hword) (Doc.readPiece_word hword) rfl rfl
  obtain ⟨blank₃, lx₆, hrun₆, hblank₃, -, hrest₆, hlx₆⟩ := hlx₅.run_piece [' '] hrest₅
    (List.cons_ne_nil _ _) (Doc.readPiece_blankWord htext [' ', '*', '/']) rfl rfl
  obtain ⟨said, lx₇, hrun₇, hsaidToken, -, hrest₇, hlx₇⟩ := hlx₆.run_piece _ hrest₆
    (Sql.ne_nil_of_describes_word htext) (Doc.readPiece_word htext) rfl rfl
  obtain ⟨blank₄, closed, hrun₈, hblank₄, hclosed⟩ := Doc.run_end hlx₇ hrest₇
  rw [String.ofList_toList] at hname hsaidToken
  refine ⟨opened, blank₁, marker, blank₂, name, blank₃, said, blank₄, closed, ?_, hopened, hblank₁,
    hmarker, hvalue, hblank₂, hname, hblank₃, hsaidToken, hblank₄, hclosed⟩
  show (Lexer.start docGrammar (paramComment word text).toList start).run.1 = _
  rw [hrun₁, hrun₃, hrun₄, hrun₅, hrun₆, hrun₇, hrun₈]

/-! ### The tag -/

namespace TagReader

variable {s : TagState} {t u : DocToken} {rest : List DocToken}

theorem takeWhile_one {p : TagState → Bool} (hrest : s.rest = t :: u :: rest) (hp : p s = true)
    (hq : p (s.pass t (u :: rest)) = false) :
    s.takeWhile p = ([t], s.pass t (u :: rest)) := by
  rw [TagState.takeWhile_cons p hrest, if_pos hp, TagState.takeWhile_cons p rfl, hq]
  rfl

theorem skipBlanks_one (hrest : s.rest = t :: u :: rest) (ht : t.kind = .whitespace)
    (hu : u.kind ≠ .whitespace) : skipBlanks.run s = ((), s.pass t (u :: rest)) := by
  have hp : (s.kind? == some .whitespace) = true := by
    rw [TagState.kind?_eq hrest, ht]
    rfl
  have hq : ((s.pass t (u :: rest)).kind? == some .whitespace) = false := by
    rw [TagState.kind?_eq rfl]
    simpa using hu
  exact congrArg (Prod.mk ())
    (congrArg Prod.snd (takeWhile_one (p := fun s => s.kind? == some .whitespace) hrest hp hq))

theorem skipBlanks_none (hrest : s.rest = t :: rest) (ht : t.kind = .identifier) :
    skipBlanks.run s = ((), s) := by
  have hp : (s.kind? == some .whitespace) = false := by
    rw [TagState.kind?_eq hrest, ht]
    rfl
  have hnone : s.takeWhile (fun s => s.kind? == some .whitespace) = ([], s) := by
    rw [TagState.takeWhile_cons _ hrest, hp]
    rfl
  exact congrArg (Prod.mk ()) (congrArg Prod.snd hnone)

/-- A name without a dot behind it. -/
theorem dottedName_run (hrest : s.rest = t :: u :: rest) (ht : t.kind = .identifier)
    (hu : u.kind = .whitespace) :
    dottedName.run s = (some (.parse t.text), s.pass t (u :: rest)) := by
  have hnone : qualifiers (s.pass t (u :: rest)) = ([], s.pass t (u :: rest)) := by
    rw [qualifiers.eq_def]
    split
    · rename_i dot _ _ heq
      obtain rfl : u = dot := (List.cons.inj heq).1
      rw [if_neg fun h => DocKind.noConfusion (hu.symm.trans h.1)]
    · rfl
  have hrun : dottedName.run s =
      (some (.parse (docText (t :: (qualifiers (s.pass t (u :: rest))).1))),
        (qualifiers (s.pass t (u :: rest))).2) := by
    rw [dottedName, run_get, hrest]
    dsimp only
    rw [if_neg (not_not.2 ht), run_bind, take_run hrest]
    rfl
  have htext : docText [t] = t.text := by
    rw [docText, tokensText_cons]
    exact String.append_empty
  rw [hrun, hnone, htext]

/-- A name is no type. -/
theorem typeConstraint_run (expression : TagReader DocExpr)
    (hrest : s.rest = t :: u :: rest) (ht : t.kind = .whitespace) (hu : u.kind = .identifier) :
    (typeConstraint expression).run s = (none, s.pass t (u :: rest)) := by
  let s₁ := s.pass t (u :: rest)
  have hkind : s₁.kind? = some .identifier := (TagState.kind?_eq rfl).trans (congrArg _ hu)
  have hrun : (typeConstraint expression).run s =
      (if (s₁.kind? == some .lbrace) && !(s₁.secondKind? == some .tag) then some <$> expression
        else pure none : TagReader (Option DocExpr)).run s₁ := by
    rw [typeConstraint, run_bind, skipBlanks_one hrest ht (hu ▸ nofun)]
    rfl
  rw [hrun, hkind]
  rfl

variable {name blank said : DocToken}

/-- A word behind a name is no default. -/
theorem plainParam_run (hrest : s.rest = name :: blank :: said :: rest)
    (hname : name.kind = .identifier) (hblank : blank.kind = .whitespace)
    (hsaid : said.kind = .identifier) :
    plainParam.run s = ((some (.parse name.text), none), s.pass name (blank :: said :: rest)) := by
  let s₁ := s.pass name (blank :: said :: rest)
  have hkind : s₁.kind? = some .whitespace := (TagState.kind?_eq rfl).trans (congrArg _ hblank)
  have hsecond : s₁.secondKind? = some .identifier := congrArg some hsaid
  have hrun : plainParam.run s = ((do
      if (s₁.kind? == some .whitespace) && (s₁.secondKind? == some .equals) then take
      if ← at? .equals then
        take
        skipBlanks
        return (some (.parse name.text), some (← word))
      else return (some (.parse name.text), none) :
        TagReader (Option Name × Option String))).run s₁ := by
    rw [plainParam, run_bind, dottedName_run hrest hname hblank]
    rfl
  have hequals : (s₁.kind? == some .equals) = false := by
    rw [hkind]
    rfl
  rw [hrun, hsecond, hkind]
  show (if (s₁.kind? == some .equals) then _ else _ :
    TagReader (Option Name × Option String)).run s₁ = _
  rw [hequals]
  rfl

/-- A word is no dash. -/
theorem skipDash_run (hrest : s.rest = blank :: said :: rest) (hblank : blank.kind = .whitespace)
    (hsaid : said.kind = .identifier) : skipDash.run s = ((), s.pass blank (said :: rest)) := by
  let s₁ := s.pass blank (said :: rest)
  have hnone : (s₁.rest.head?.any fun t => t.kind = .text && t.text.toList.all (· = '-')) =
      false := by
    show (decide (said.kind = .text) && _) = false
    rw [hsaid]
    rfl
  rw [skipDash, run_bind, skipBlanks_one hrest hblank (hsaid ▸ nofun), run_get, hnone]
  rfl

/-- The fields of a tag that names a parameter and goes on with a word. -/
theorem param_run (expression : TagReader DocExpr) {blank' : DocToken}
    (hrest : s.rest = blank :: name :: blank' :: said :: rest) (hblank : blank.kind = .whitespace)
    (hname : name.kind = .identifier) (hblank' : blank'.kind = .whitespace)
    (hsaid : said.kind = .identifier) :
    ∃ s', (param expression).run s = (.param (some (.parse name.text)) none none false, s') ∧
      s'.rest = said :: rest := by
  let s₁ := s.pass blank (name :: blank' :: said :: rest)
  let s₂ := s₁.pass name (blank' :: said :: rest)
  let s₃ := s₂.pass blank' (said :: rest)
  have hkind : s₁.kind? = some .identifier := (TagState.kind?_eq rfl).trans (congrArg _ hname)
  have hplain : plainParam.run s₁ = ((some (.parse name.text), none), s₂) :=
    plainParam_run rfl hname hblank' hsaid
  have hdash : skipDash.run s₂ = ((), s₃) := skipDash_run rfl hblank' hsaid
  have hrun : (param expression).run s = ((do
      skipDash
      return .param (plainParam.run s₁).1.1 none (plainParam.run s₁).1.2 false :
        TagReader TagBody)).run (plainParam.run s₁).2 := by
    rw [param, run_bind, typeConstraint_run expression hrest hblank hname, run_bind,
      skipBlanks_none rfl hname]
    show (if (s₁.kind? == some .lbracket) then _ else _ : TagReader TagBody).run s₁ = _
    rw [hkind]
    rfl
  refine ⟨s₃, ?_, rfl⟩
  rw [hrun, hplain, run_bind, hdash]
  rfl

/-- A tag is its marker, the fields that this calls for, and what follows them as its content. -/
theorem tag_of_tagBody {n : Nat} {scope : Scope} {marker : DocToken}
    (hrest : s.rest = marker :: rest) {body : TagBody} {s' : TagState}
    (hbody : (tagBody (expression n) marker.value).run (s.after 1) = (body, s')) :
    let result := (tag (n + 1) scope).run s
    result.1.body = body ∧ result.1.content = ((content n scope).run s').1 ∧
      result.2 = ((content n scope).run s').2 := by
  have hvalue : s.rest.head?.elim "" (·.value) = marker.value := by
    rw [hrest]
    rfl
  have htag : (tag (n + 1) scope).run s =
      let fields := (tagBody (expression n) marker.value).run (s.after 1)
      let more := (content n scope).run fields.2
      ({ marker := marker.value, body := fields.1, content := more.1,
         span := .between s.place more.2.stop }, more.2) := by
    rw [tag, run_get, hvalue]
    rfl
  rw [htag, hbody]
  exact ⟨rfl, rfl, rfl⟩

/-- A tag that names a parameter and goes on with a word. What follows the name is its content. -/
theorem tag_run {n : Nat} {marker blank' : DocToken}
    (hrest : s.rest = marker :: blank :: name :: blank' :: said :: rest)
    (hmarker : marker.value = "param") (hblank : blank.kind = .whitespace)
    (hname : name.kind = .identifier) (hblank' : blank'.kind = .whitespace)
    (hsaid : said.kind = .identifier) :
    ∃ s', s'.rest = said :: rest ∧
      let r := (tag (n + 1) .block).run s
      r.1.body = .param (some (.parse name.text)) none none false ∧
        r.1.content = ((content n .block).run s').1 ∧ r.2 = ((content n .block).run s').2 := by
  obtain ⟨s', hrun, hleft⟩ := param_run (expression n) (s := s.after 1)
    (by rw [s.rest_after, hrest]; rfl) hblank hname hblank' hsaid
  exact ⟨s', hleft, tag_of_tagBody hrest (by rw [hmarker]; exact hrun)⟩

theorem skipLayout_one (hrest : s.rest = t :: u :: rest)
    (ht : t.kind.isLayout = true) (hu : u.kind.isLayout = false) :
    skipLayout.run s = ((), s.after 1) := by
  have hp : (s.kind?.any DocKind.isLayout) = true := by
    rw [TagState.kind?_eq hrest]
    exact ht
  have hq : ((s.pass t (u :: rest)).kind?.any DocKind.isLayout) = false := by
    rw [TagState.kind?_eq rfl]
    exact hu
  rw [TagState.after_one hrest]
  exact congrArg (Prod.mk ())
    (congrArg Prod.snd (takeWhile_one (p := fun s => s.kind?.any DocKind.isLayout) hrest hp hq))

/-- After a blank the tag is the only one, if it takes all that is left. -/
theorem tagsUpTo_marker {n : Nat} {marker : DocToken} (hrest : s.rest = blank :: marker :: rest)
    (hblank : blank.kind = .whitespace) (hmarker : marker.kind = .tag) :
    let bound := 2 * ((s.after 1).rest.length + 1)
    let result := (tag bound .block).run (s.after 1)
    result.2.rest = [] → ((tagsUpTo (n + 1)).run s).1 = [result.1] := by
  intro bound result hend
  have hskip := skipLayout_one hrest (by rw [hblank]; rfl) (by rw [hmarker]; rfl)
  have hkind : (s.after 1).kind? = some .tag := by
    rw [TagState.kind?_eq (by rw [s.rest_after, hrest]; rfl), hmarker]
  have hnext : nextTag.run s = (some result.1, result.2) := by
    rw [nextTag, run_bind, hskip, run_get]
    dsimp only
    rw [hkind]
    rfl
  rw [tagsUpTo, run_bind, hnext]
  exact congrArg (_ :: ·) (tagsUpTo_of_rest_eq_nil hend n)

/-- After a blank the tag is the only one. -/
theorem tagsUpTo_param {n : Nat} {blank₁ marker blank₂ blank₃ blank₄ : DocToken}
    (hrest : s.rest = [blank₁, marker, blank₂, name, blank₃, said, blank₄])
    (hblank₁ : blank₁.kind = .whitespace) (hmarker : marker.kind = .tag)
    (hvalue : marker.value = "param") (hblank₂ : blank₂.kind = .whitespace)
    (hname : name.kind = .identifier) (hblank₃ : blank₃.kind = .whitespace)
    (hsaid : said.kind = .identifier) (hblank₄ : Doc.Shows blank₄ [' ']) :
    ∃ t, ((tagsUpTo (n + 1)).run s).1 = [t] ∧
      t.body = .param (some (.parse name.text)) none none false ∧
      contentText t.content = String.ofList (Text.tidyLines (said.text.toList ++ [' '])) := by
  have hnext : (s.after 1).rest = [marker, blank₂, name, blank₃, said, blank₄] := by
    rw [s.rest_after, hrest]
    rfl
  let bound := 2 * ((s.after 1).rest.length + 1)
  obtain ⟨m, hm, hle⟩ : ∃ m, bound = m + 1 ∧ 2 ≤ m := ⟨bound - 1, by omega, by
    have : 6 ≤ (s.after 1).rest.length := by rw [hnext]; exact Nat.le_refl 6
    omega⟩
  obtain ⟨s', hleft, hbody, hcontent, hend⟩ := tag_run (n := m) hnext hvalue hblank₂ hname hblank₃
    hsaid
  have hshown : Doc.ShowAll s'.rest (said.text.toList ++ [' ']) := by
    rw [hleft]
    have hplain : Doc.isPlain said.kind = true := by
      rw [hsaid]
      rfl
    have hlayout : said.kind.isLayout = true → ∀ c ∈ said.text.toList, Text.isBlank c = true := by
      rw [hsaid]
      exact nofun
    exact .cons (.plain hplain hlayout) (.cons hblank₄ .nil)
  obtain ⟨hwritten, hnone⟩ := writtenContent_of_showAll (n := m) hshown (by rw [hleft]; exact hle)
  rw [← hm] at hbody hcontent hend
  refine ⟨_, tagsUpTo_marker hrest hblank₁ hmarker (hend ▸ hnone), hbody, ?_⟩
  show String.ofList (Text.tidyLines (writtenContent _).toList) = _
  rw [hcontent, hwritten, String.toList_ofList]

end TagReader

/-- The text of a word is trimmed as it is. -/
theorem Text.tidyLines_word {w : List Char} (hw : ∀ d ∈ w, Sql.wordRest.mem d = true) :
    Text.tidyLines (w ++ [' ']) = w := by
  have hline : '\n' ∉ w ++ [' '] := by
    intro hmem
    rcases List.mem_append.1 hmem with hmem | hmem
    · exact absurd (hw _ hmem) (by decide)
    · exact absurd (List.mem_singleton.1 hmem) (by decide)
  rw [tidyLines_of_not_mem hline, trimChars_concat (by decide),
    trimChars_eq_self fun d hd => Sql.not_isBlank_of_wordRest (hw d hd)]

/-- The comment is one tag. It names the parameter, says the text of it and nothing else. -/
theorem parseComment_paramComment {word text : String} (hword : Sql.word.Describes word.toList)
    (htext : Sql.word.Describes text.toList) (start : Position) :
    ∃ t, (parseComment (paramComment word text) start).tags = [t] ∧
      t.body = .param (some (.parse word)) none none false ∧ t.text = text := by
  obtain ⟨opened, blank₁, marker, blank₂, name, blank₃, said, blank₄, closed, hlex, hopened,
    hblank₁, hmarker, hvalue, hblank₂, hname, hblank₃, hsaid, hblank₄, hclosed⟩ :=
    lexDoc_paramComment hword htext start
  let shown := [blank₁, marker, blank₂, name, blank₃, said, blank₄]
  have htokens : (lexDoc (paramComment word text) start).1.filter (fun t => !t.isTrivia) =
      shown := by
    have hkept : ∀ t ∈ shown, t.isTrivia = false := by
      simp only [shown, List.forall_mem_cons, Doc.isTrivia_of_kind hblank₁.1,
        Doc.isTrivia_of_kind hmarker.1, Doc.isTrivia_of_kind hblank₂.1,
        Doc.isTrivia_of_kind hname.1, Doc.isTrivia_of_kind hblank₃.1,
        Doc.isTrivia_of_kind hsaid.1, hblank₄.isTrivia]
      exact ⟨rfl, rfl, rfl, rfl, rfl, rfl, trivial, fun _ h => nomatch h⟩
    have hsplit : (lexDoc (paramComment word text) start).1 = opened :: (shown ++ [closed]) := hlex
    rw [hsplit, Doc.filter_comment hopened.1 hkept hclosed]
  obtain ⟨t, htags, hbody, hshown⟩ := TagReader.tagsUpTo_param (n := 6)
    (s := { rest := shown, stop := start }) rfl hblank₁.1 hmarker.1 hvalue hblank₂.1 hname.1
    hblank₃.1 hsaid.1 hblank₄
  refine ⟨t, ?_, ?_, ?_⟩
  · show readTags (lexDoc (paramComment word text) start).1 start = _
    rw [readTags, htokens]
    exact htags
  · rw [hbody, hname.2]
  · obtain ⟨_, _, -, -, hall⟩ := Sql.exists_of_describes_word htext
    show contentText t.content = _
    rw [hshown, hsaid.2, Text.tidyLines_word hall, String.ofList_toList]

end SqlDoc

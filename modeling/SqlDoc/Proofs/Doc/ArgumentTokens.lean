/-
# The pieces of arguments

The arguments of a reference are read piece by piece up to the parenthesis that closes them. In
running text what is read does not depend on what stands behind that parenthesis, which no rule reads
behind other characters (`Doc.contentPiece_cut`). A piece is blank or has no blank in it, and a comma
or a parenthesis is a piece of its own, unless the comma is part of an address
(`Doc.argumentPiece_spec`). Inside delimiters the same is read, or a text in quotes
(`Doc.contentPiece_enclosed`).

Key definitions: `Doc.argumentPiece`, `Doc.InArguments`, `Doc.Signs`, `Doc.ArgumentPiece`.
Key theorems: `Doc.contentPiece_enclosed`, `Doc.contentPiece_cut`, `Doc.argumentPiece_spec`.
-/
import SqlDoc.Proofs.Doc.References
import SqlDoc.Proofs.Lexer.Cutting

namespace SqlDoc
namespace Doc

open Pattern (set seq star alt)
open Text (isBlank isLineEnd)

/-! ### Texts in quotes -/

/-- One character between two quotes, or a backslash and the character behind it. -/
def quotedChar (quote : Char) : Pattern :=
  .alt (.set (.compl (.ofList [quote, '\\', '\r', '\n'])))
    (.seq (.set (.single '\\')) (.set (.compl (.single '\n'))))

theorem not_mem_of_describes_quotedChar {quote : Char} {piece : List Char}
    (h : (quotedChar quote).Describes piece) (hback : '\\' ∉ piece) : quote ∉ piece := by
  rw [quotedChar] at h
  cases h with
  | left h =>
    cases h with
    | set hc =>
      intro hmem
      rw [← List.mem_singleton.1 hmem] at hc
      simp at hc
  | right h =>
    cases h with
    | seq hfirst _ =>
      rw [hfirst.eq_of_single] at hback
      exact absurd List.mem_cons_self hback

/-- What stands between two quotes is no quote, if it has no backslash. -/
theorem eq_of_describes_quoted {quote : Char} {piece : List Char}
    (h : (quoted quote).Describes piece) (hback : '\\' ∉ piece) :
    ∃ inner, piece = quote :: (inner ++ [quote]) ∧ quote ∉ inner := by
  change (seq (.set (.single quote)) (seq (star (quotedChar quote))
    (.set (.single quote)))).Describes piece at h
  cases h with
  | seq hfirst hrest =>
    obtain rfl := hfirst.eq_of_single
    cases hrest with
    | @seq _ _ inner _ hinner hlast =>
      obtain rfl := hlast.eq_of_single
      refine ⟨inner, rfl, ?_⟩
      have hback : '\\' ∉ inner := fun hmem =>
        hback (List.mem_append_right [quote] (List.mem_append_left [quote] hmem))
      have hinner : inner = [] ∨ (Pattern.plus true (quotedChar quote)).Describes inner := by
        change (alt (.plus true (quotedChar quote)) .empty).Describes inner at hinner
        cases hinner with
        | left h => exact .inr h
        | right h =>
          cases h
          exact .inl rfl
      rcases hinner with rfl | hinner
      · exact List.not_mem_nil
      · refine hinner.of_plus (P := fun piece => '\\' ∉ piece → quote ∉ piece)
          (fun _ => not_mem_of_describes_quotedChar)
          (fun first second hfirst hsecond hback hmem => ?_) hback
        rw [List.mem_append, not_or] at hback
        exact (List.mem_append.1 hmem).elim (hfirst hback.1) (hsecond hback.2)

/-- A text in quotes without a backslash has the quote at its ends and nowhere else. -/
theorem eq_of_describes_quotedText {piece : List Char} (h : quotedText.Describes piece)
    (hback : '\\' ∉ piece) :
    ∃ quote inner, (quote = '"' ∨ quote = '\'') ∧ piece = quote :: (inner ++ [quote]) ∧
      quote ∉ inner := by
  cases h with
  | left h =>
    obtain ⟨inner, hpiece, hinner⟩ := eq_of_describes_quoted h hback
    exact ⟨'"', inner, .inl rfl, hpiece, hinner⟩
  | right h =>
    obtain ⟨inner, hpiece, hinner⟩ := eq_of_describes_quoted h hback
    exact ⟨'\'', inner, .inr rfl, hpiece, hinner⟩

/-- Inside delimiters texts in quotes are read, and all else as in running text. -/
theorem contentPiece_enclosed {c : Char} {rest : List Char} (enclosing : List Delimiter)
    (hstart : ¬ "/**".toList <+: c :: rest) :
    let p := contentPiece enclosing (c :: rest)
    p = contentPiece [] (c :: rest) ∨
      p.kind = .string ∧ enclosing ≠ [] ∧ quotedText.Describes ((c :: rest).take p.length) := by
  intro p
  cases enclosing with
  | nil => exact .inl rfl
  | cons d outer =>
    cases hstring : pieceOf? (c :: rest) (rule .string quotedText) with
    | none =>
      refine .inl ?_
      show contentPiece (d :: outer) (c :: rest) = _
      rw [contentPiece, contentPiece, pieceIn?_enclosed_of_none hstring]
      exact congrArg (fun p => Option.getD p _) (pieceIn?_main hstart).symm
    | some found =>
      obtain ⟨stop, hstop, hfound⟩ := Option.map_eq_some_iff.1 hstring
      have hquote : c = '"' ∨ c = '\'' := by
        have hbegin := Matcher.mayBeginWith_of_tokenEnd? hstop
        simpa [rule, Matcher.mayBeginWith, quotedText, quoted, Pattern.concat,
          Pattern.mayBeginWith, Pattern.mayBeEmpty] using hbegin
      have hfront (rules : List (Rule DocKind Matcher (Fin 4)))
          (hdouble : (rules.all fun r => !r.matcher.mayBeginWith '"') = true)
          (hsingle : (rules.all fun r => !r.matcher.mayBeginWith '\'') = true) :
          rules.findSome? (pieceOf? (c :: rest)) = none := by
        rcases hquote with rfl | rfl
        · exact findSome?_pieceOf?_eq_none hdouble
        · exact findSome?_pieceOf?_eq_none hsingle
      have hpiece : pieceIn? (contentState (d :: outer)) (c :: rest) = some found := by
        cases d with
        | brace =>
          show ((spelling .rbrace "\x7d" .pop :: spelling .rbracket "]" :: wordRules) ++
            rule .string quotedText :: punctuationRules).findSome? _ = _
          rw [List.findSome?_append, hfront _ (by decide) (by decide), List.findSome?_cons,
            hstring]
          rfl
        | bracket =>
          show ((spelling .rbracket "]" .pop :: spelling .rbrace "\x7d" :: wordRules) ++
            rule .string quotedText :: punctuationRules).findSome? _ = _
          rw [List.findSome?_append, hfront _ (by decide) (by decide), List.findSome?_cons,
            hstring]
          rfl
      have hp : p = found := by
        show (pieceIn? (contentState (d :: outer)) (c :: rest)).getD _ = _
        rw [hpiece]
        rfl
      rw [hp, ← hfound]
      exact .inr ⟨rfl, List.cons_ne_nil d outer, Matcher.describes_of_pattern hstop⟩

/-! ### Pieces in front of a parenthesis -/

variable {text rest : List Char}

/-- The rule stops at a parenthesis that closes a list, or reads nothing else. -/
def checksClose (r : Rule DocKind Matcher (Fin 4)) : Bool :=
  r.matcher.avoids ')' || r.matcher.isLiteral [')']

theorem checksClose_main : (mainState.rules.all checksClose) = true := by
  decide

/-- What a rule reads in front of a parenthesis does not depend on what stands behind it. -/
theorem pieceOf?_cut {r : Rule DocKind Matcher (Fin 4)} (hr : checksClose r = true)
    (hne : text ≠ []) (rest rest' : List Char) :
    pieceOf? (text ++ ')' :: rest) r = pieceOf? (text ++ ')' :: rest') r := by
  have hpart : ∀ c ∈ (')' :: rest').head?, c = ')' := fun c hc => (Option.some.inj hc).symm
  have hpos : 0 < text.length := List.length_pos_iff.2 hne
  have hle (stop : Cursor (text ++ ')' :: rest))
      (hstop : r.matcher.tokenEnd? (text ++ ')' :: rest) = some stop) :
      stop.seen ≤ text.length := by
    rcases (Bool.or_eq_true _ _).mp hr with havoids | hliteral
    · refine Nat.le_of_not_lt fun hlt => Matcher.not_mem_of_avoids havoids hstop ?_
      rw [List.take_append, List.mem_append]
      obtain ⟨k, hk⟩ := Nat.exists_eq_add_of_lt hlt
      rw [show stop.seen - text.length = k + 1 by omega, List.take_succ_cons]
      exact .inr List.mem_cons_self
    · rw [Matcher.eq_of_isLiteral hliteral] at hstop
      rw [Matcher.seen_of_literal hstop]
      exact hpos
  have hagrees : r.matcher.Agrees text (')' :: rest) (')' :: rest') := by
    cases hm : r.matcher with
    | literal chars =>
      refine Matcher.agrees_literal hne ?_ hpart
      rcases (Bool.or_eq_true _ _).mp hr with havoids | hliteral
      · rw [hm] at havoids
        have havoids : ')' ∉ chars := by simpa [Matcher.avoids] using havoids
        exact fun hmem => havoids (List.mem_of_mem_tail hmem)
      · have heq := Matcher.eq_of_isLiteral hliteral
        rw [hm] at heq
        rw [Matcher.literal.inj heq]
        exact List.not_mem_nil
    | pattern p =>
      have hp : p.mayContain ')' = false := by
        rcases (Bool.or_eq_true _ _).mp hr with havoids | hliteral
        · rw [hm] at havoids
          simpa [Matcher.avoids] using havoids
        · rw [hm] at hliteral
          cases hliteral
      exact Matcher.agrees_of_cuts (Pattern.Cuts.stop.run hp hpart)
    | regex =>
      rw [checksClose, hm] at hr
      cases hr
  have hseen := hagrees.map_seen hle
  rw [pieceOf?, pieceOf?]
  cases hstop : r.matcher.tokenEnd? (text ++ ')' :: rest) with
  | none =>
    rw [hstop, Option.map_none, Option.map_eq_none_iff] at hseen
    rw [hseen]
    rfl
  | some stop =>
    rw [hstop, Option.map_some] at hseen
    obtain ⟨stop', hstop', heq⟩ := Option.map_eq_some_iff.1 hseen
    have htake (rest : List Char) : (text ++ ')' :: rest).take stop.seen = text.take stop.seen :=
      List.take_append_of_le_length (hle stop hstop)
    rw [hstop', Option.map_some, Option.map_some, Piece.ofMatch, Piece.ofMatch, heq, htake, htake]

/-- What is read of running text in front of a parenthesis. -/
def argumentPiece (text : List Char) : Piece :=
  contentPiece [] (text ++ ")*/".toList)

theorem contentPiece_cut (hne : text ≠ []) (rest : List Char) :
    contentPiece [] (text ++ ')' :: rest) = argumentPiece text := by
  have hrules (rules : List (Rule DocKind Matcher (Fin 4))) (h : (rules.all checksClose) = true) :
      rules.findSome? (pieceOf? (text ++ ')' :: rest)) =
        rules.findSome? (pieceOf? (text ++ ")*/".toList)) := by
    induction rules with
    | nil => rfl
    | cons r rules ih =>
      rw [List.all_cons, Bool.and_eq_true] at h
      rw [List.findSome?_cons, List.findSome?_cons, ih h.2, pieceOf?_cut h.1 hne rest ['*', '/']]
      rfl
  have hpiece : pieceIn? (contentState []) (text ++ ')' :: rest) =
      pieceIn? (contentState []) (text ++ ")*/".toList) :=
    hrules mainState.rules checksClose_main
  have htake : (text ++ ')' :: rest).take 1 = (text ++ ")*/".toList).take 1 := by
    obtain ⟨c, more, rfl⟩ := List.exists_cons_of_ne_nil hne
    rfl
  rw [argumentPiece, contentPiece, contentPiece, hpiece, htake]

/-! ### Running text in arguments -/

/-- The text may stand in arguments. It is on one line, no character of it opens anything or begins a
marker, and no comment begins or ends in it. -/
structure InArguments (text : List Char) : Prop where
  special : ∀ c ∈ text, isSpecial c = false
  line : ∀ c ∈ text, isLineEnd c = false
  close : ¬ "*/".toList <:+: text
  start : ¬ "/**".toList <:+: text

theorem InArguments.right {piece more : List Char} (h : InArguments (piece ++ more)) :
    InArguments more where
  special c hc := h.special c (List.mem_append_right piece hc)
  line c hc := h.line c (List.mem_append_right piece hc)
  close hin := h.close (hin.trans (List.suffix_append piece more).isInfix)
  start hin := h.start (hin.trans (List.suffix_append piece more).isInfix)

theorem infix_of_infix_concat {word : List Char} (h : word <:+: text ++ [')'])
    (hlast : word.getLast? ≠ some ')') (hne : word ≠ []) : word <:+: text := by
  rcases List.infix_concat_iff.1 h with hsuffix | hin
  · obtain ⟨front, hfront⟩ := hsuffix
    have hend := congrArg List.getLast? hfront
    rw [List.getLast?_append, List.getLast?_concat, List.getLast?_eq_some_getLast hne,
      Option.some_or] at hend
    exact absurd (List.getLast?_eq_some_getLast hne ▸ hend) hlast
  · exact hin

/-- In front of a parenthesis it is prose. -/
theorem InArguments.prose (h : InArguments text) : Prose (text ++ [')']) where
  special := by
    intro c hc
    rcases List.mem_append.1 hc with hc | hc
    · exact h.special c hc
    · rw [List.mem_singleton.1 hc]
      rfl
  close hin := h.close (infix_of_infix_concat hin (by decide) (by decide))
  start hin := h.start (infix_of_infix_concat hin (by decide) (by decide))
  last := by
    rw [List.getLast?_concat]
    decide

/-- The rule is for a comma or a parenthesis, or reads none of them. Only an address may have a
comma in it. -/
def checksSigns (r : Rule DocKind Matcher (Fin 4)) : Bool :=
  match r.kind with
  | .comma => r.matcher.isLiteral [',']
  | .lparen => r.matcher.isLiteral ['(']
  | .rparen => r.matcher.isLiteral [')']
  | kind => r.matcher.avoids '(' && r.matcher.avoids ')' && (kind = .url || r.matcher.avoids ',')

theorem checksSigns_main : (mainState.rules.all checksSigns) = true := by
  decide

/-- The piece is a comma or a parenthesis, or has none of them in it. Only an address may have a
comma in it. -/
inductive Signs : DocKind → List Char → Prop where
  | comma : Signs .comma [',']
  | lparen : Signs .lparen ['(']
  | rparen : Signs .rparen [')']
  | other {kind : DocKind} {piece : List Char} (hkind : kind ∉ [.comma, .lparen, .rparen])
      (hopen : '(' ∉ piece) (hclose : ')' ∉ piece) (hcomma : kind = .url ∨ ',' ∉ piece) :
      Signs kind piece

/-- A parenthesis that closes a list is a piece of its own. -/
theorem Signs.eq_of_close_mem {kind : DocKind} {piece : List Char} (h : Signs kind piece)
    (hmem : ')' ∈ piece) : piece = [')'] := by
  cases h with
  | comma | lparen => exact absurd hmem (by decide)
  | rparen => rfl
  | other _ _ hclose => exact absurd hmem hclose

theorem signs_of_checksSigns {r : Rule DocKind Matcher (Fin 4)} (h : checksSigns r = true)
    {stop : Cursor text} (hstop : r.matcher.tokenEnd? text = some stop) :
    Signs r.kind (text.take stop.seen) := by
  have hliteral {c : Char} (h : r.matcher.isLiteral [c] = true) : text.take stop.seen = [c] := by
    rw [Matcher.eq_of_isLiteral h] at hstop
    exact Matcher.take_of_literal hstop
  unfold checksSigns at h
  split at h
  · rename_i hkind
    rw [hkind, hliteral h]
    exact .comma
  · rename_i hkind
    rw [hkind, hliteral h]
    exact .lparen
  · rename_i hkind
    rw [hkind, hliteral h]
    exact .rparen
  · rename_i hcomma hopen hclose
    simp only [Bool.and_eq_true, Bool.or_eq_true, decide_eq_true_eq] at h
    obtain ⟨⟨havoidsOpen, havoidsClose⟩, havoids⟩ := h
    exact .other (by simpa using ⟨hcomma, hopen, hclose⟩)
      (Matcher.not_mem_of_avoids havoidsOpen hstop) (Matcher.not_mem_of_avoids havoidsClose hstop)
      (havoids.imp_right fun havoids => Matcher.not_mem_of_avoids havoids hstop)

/-- A character that no rule reads is no comma and no parenthesis. -/
theorem not_sign_of_pieceIn?_none {c : Char} (h : pieceIn? (contentState []) (c :: rest) = none) :
    c ≠ '(' ∧ c ≠ ')' ∧ c ≠ ',' := by
  have hread {d : Char} (hd : (mainState.rules.any fun r => r.matcher.isLiteral [d]) = true) :
      c ≠ d := by
    rintro rfl
    obtain ⟨r, hr, hliteral⟩ := List.any_eq_true.1 hd
    have hno := List.findSome?_eq_none_iff.1 h r hr
    rw [pieceOf?, Option.map_eq_none_iff, Matcher.eq_of_isLiteral hliteral] at hno
    obtain ⟨stop, hstop⟩ := Matcher.tokenEnd?_of_prefix (List.cons_ne_nil c [])
      (List.prefix_append [c] rest)
    cases hno.symm.trans hstop
  exact ⟨hread (by decide), hread (by decide), hread (by decide)⟩

/-- A comma or a parenthesis is a piece of its own, unless the comma is part of an address. -/
theorem signs_contentPiece {source : List Char} (hne : source ≠ []) :
    Signs (contentPiece [] source).kind (source.take (contentPiece [] source).length) := by
  cases hp : pieceIn? (contentState []) source with
  | none =>
    obtain ⟨c, more, rfl⟩ := List.exists_cons_of_ne_nil hne
    have hone : contentPiece [] (c :: more) = ⟨.text, 1, String.ofList [c]⟩ := by
      rw [contentPiece, hp]
      rfl
    obtain ⟨hopen, hclose, hcomma⟩ := not_sign_of_pieceIn?_none hp
    rw [hone]
    exact .other (show DocKind.text ∉ _ by decide) (by simpa using hopen.symm)
      (by simpa using hclose.symm) (.inr (by simpa using hcomma.symm))
  | some found =>
    obtain ⟨r, hr, hread⟩ := List.exists_of_findSome?_eq_some hp
    obtain ⟨stop, hstop, hfrom⟩ := Option.map_eq_some_iff.1 hread
    have hfound : contentPiece [] source = .ofMatch r stop := by
      rw [contentPiece, hp, ← hfrom]
      rfl
    rw [hfound]
    exact signs_of_checksSigns (List.all_eq_true.1 checksSigns_main r hr) hstop

/-- What a piece of running text in arguments is. -/
structure ArgumentPiece (text : List Char) (p : Piece) : Prop where
  pos : 0 < p.length
  le : p.length ≤ text.length
  kind : p.kind = .whitespace ∨ isWordy p.kind = true
  blank : p.kind = .whitespace → ∀ c ∈ text.take p.length, isBlank c = true
  solid : p.kind ≠ .whitespace → ∀ c ∈ text.take p.length, isBlank c = false
  signs : Signs p.kind (text.take p.length)

/-- In front of a parenthesis a piece is blank or has no blank in it, and ends in time. -/
theorem argumentPiece_spec (h : InArguments text) (hne : text ≠ []) :
    ArgumentPiece text (argumentPiece text) := by
  let source := text ++ ")*/".toList
  let p := argumentPiece text
  let piece := source.take p.length
  have hsource : (text ++ [')']) ++ ['*', '/'] = source := List.append_assoc ..
  have hprose := contentPiece_prose h.prose (List.append_ne_nil_of_left_ne_nil hne _)
  rw [hsource] at hprose
  change InProse (text ++ [')']) p.kind piece (source.drop p.length) at hprose
  have hsigns : Signs p.kind piece := signs_contentPiece (List.append_ne_nil_of_left_ne_nil hne _)
  have hpos : 0 < p.length := by
    refine Nat.pos_of_ne_zero fun hzero => hprose.ne_nil ?_
    show source.take p.length = []
    rw [hzero]
    rfl
  have hle : p.length ≤ text.length := by
    have htext : 0 < text.length := List.length_pos_iff.2 hne
    refine Nat.le_of_not_lt fun hlt => ?_
    have hclose : ')' ∈ piece := by
      show ')' ∈ source.take p.length
      obtain ⟨k, hk⟩ := Nat.exists_eq_add_of_lt hlt
      rw [List.take_append, List.mem_append, show p.length - text.length = k + 1 by omega]
      exact .inr List.mem_cons_self
    have hlength : 2 ≤ piece.length := by
      show 2 ≤ (source.take p.length).length
      have hsource : source.length = text.length + 3 := List.length_append
      rw [List.length_take]
      omega
    rw [hsigns.eq_of_close_mem hclose] at hlength
    exact absurd hlength (by decide)
  have hpiece : piece = text.take p.length := List.take_append_of_le_length hle
  have hspells := hprose.spells
  have hbegun := hprose.begun
  rw [hpiece] at hsigns hspells
  have hall : (p.kind = .whitespace ∨ isWordy p.kind = true) ∧
      (p.kind = .whitespace → ∀ c ∈ text.take p.length, isBlank c = true) ∧
      (p.kind ≠ .whitespace → ∀ c ∈ text.take p.length, isBlank c = false) := by
    have hline : ∀ c ∈ text.take p.length, isLineEnd c = false := fun c hc =>
      h.line c (List.mem_of_mem_take hc)
    generalize hkind : p.kind = kind at hspells hbegun
    cases hspells with
    | lineEnd hend =>
      rcases hend with hend | hend | hend <;>
      · rw [hend] at hline
        exact absurd (hline _ List.mem_cons_self) (by decide)
    | blanks hblank => exact ⟨.inl rfl, fun _ => hblank, fun hno => absurd rfl hno⟩
    | stars => exact absurd rfl hbegun
    | word hword _ hblank =>
      refine ⟨.inr hword, fun hspace => ?_, fun _ => hblank⟩
      rw [hspace] at hword
      cases hword
  exact ⟨hpos, hle, hall.1, hall.2.1, hall.2.2, hsigns⟩

end Doc
end SqlDoc

/-
# What a comment reads at a place

What is read at a place of a comment depends on the text ahead and on what is open. Braces and
brackets change little: inside them texts in quotes are read and the start of a comment is not. So a
text with neither is read alike wherever it stands (`contentPiece_of_isQuiet`). A line end is read
as one, unless it is a carriage return in a text in quotes (`readPiece_lineEnd`).

Key definitions: `Doc.IsQuiet`.
Key theorems: `Doc.pieceOf?_eq_none`, `Doc.contentPiece_of_isQuiet`, `Doc.readPiece_lineEnd`.
-/
import SqlDoc.Proofs.Doc.Stack

namespace SqlDoc
namespace Doc

open Pattern (alt)

variable {text : List Char} {enclosing : List Delimiter}

/-! ### Rules and the first character -/

/-- A rule reads nothing where its pieces may not begin. -/
theorem pieceOf?_eq_none {c : Char} {rest : List Char} {r : Rule DocKind Matcher (Fin 4)}
    (h : r.matcher.mayBeginWith c = false) : pieceOf? (c :: rest) r = none := by
  rw [pieceOf?, Option.map_eq_none_iff]
  cases hstop : r.matcher.tokenEnd? (c :: rest) with
  | none => rfl
  | some stop =>
    rw [Matcher.mayBeginWith_of_tokenEnd? hstop] at h
    cases h

theorem findSome?_pieceOf?_eq_none {c : Char} {rest : List Char}
    {rules : List (Rule DocKind Matcher (Fin 4))}
    (h : (rules.all fun r => !r.matcher.mayBeginWith c) = true) :
    rules.findSome? (pieceOf? (c :: rest)) = none := by
  refine List.findSome?_eq_none_iff.2 fun r hr => pieceOf?_eq_none ?_
  simpa using List.all_eq_true.1 h r hr

/-- The rules for what closes braces and brackets, where they close nothing. -/
def closingRules : List (Rule DocKind Matcher (Fin 4)) :=
  [spelling .rbrace "\x7d", spelling .rbracket "]"]

/-- The rules that there are in running text and inside delimiters. -/
def sharedRules : List (Rule DocKind Matcher (Fin 4)) :=
  wordRules ++ punctuationRules ++ closingRules

theorem pieceIn?_main {c : Char} {rest : List Char} (h : ¬ "/**".toList <+: c :: rest) :
    pieceIn? 0 (c :: rest) = sharedRules.findSome? (pieceOf? (c :: rest)) := by
  have hstart : pieceOf? (c :: rest) (spelling .commentStart "/**" (.push 1)) = none := by
    rw [pieceOf?, Option.map_eq_none_iff]
    exact Matcher.tokenEnd?_of_not_prefix h
  show (spelling .commentStart "/**" (.push 1) :: sharedRules).findSome? (pieceOf? (c :: rest)) = _
  rw [List.findSome?_cons, hstart]

/-- Of the rules for what closes a delimiter no more than one reads anything. -/
theorem findSome?_closingRules (c : Char) (rest : List Char) :
    [spelling .rbracket "]", spelling .rbrace "\x7d"].findSome? (pieceOf? (c :: rest)) =
      closingRules.findSome? (pieceOf? (c :: rest)) := by
  by_cases hc : c = ']'
  · have hnone : pieceOf? (c :: rest) (spelling .rbrace "\x7d") = none :=
      pieceOf?_eq_none (hc ▸ rfl)
    simp only [closingRules, List.findSome?_cons, List.findSome?_nil, hnone]
  · have hnone : pieceOf? (c :: rest) (spelling .rbracket "]") = none :=
      pieceOf?_eq_none (by simpa [spelling, Matcher.mayBeginWith] using Ne.symm hc)
    simp only [closingRules, List.findSome?_cons, List.findSome?_nil, hnone]

/-- What stands between quotes, with the quotes. -/
def quotedText : Pattern :=
  alt (quoted '"') (quoted '\'')

/-- Inside delimiters what closes them is looked for first. No other rule reads it, so where there is
no text in quotes this makes no difference. -/
theorem pieceIn?_enclosed_of_none {d : Delimiter} {outer : List Delimiter} {c : Char}
    {rest : List Char} (hstring : pieceOf? (c :: rest) (rule .string quotedText) = none) :
    pieceIn? (contentState (d :: outer)) (c :: rest) =
      sharedRules.findSome? (pieceOf? (c :: rest)) := by
  have henclosed : enclosedRules.findSome? (pieceOf? (c :: rest)) =
      (wordRules ++ punctuationRules).findSome? (pieceOf? (c :: rest)) := by
    show (wordRules ++ rule .string quotedText :: punctuationRules).findSome? _ = _
    rw [List.findSome?_append, List.findSome?_append, List.findSome?_cons, hstring]
  have hstate : pieceIn? (contentState (d :: outer)) (c :: rest) =
      (closingRules.findSome? (pieceOf? (c :: rest))).or
        ((wordRules ++ punctuationRules).findSome? (pieceOf? (c :: rest))) := by
    rw [← henclosed, ← List.findSome?_append]
    cases d with
    | brace => rfl
    | bracket =>
      rw [List.findSome?_append, ← findSome?_closingRules, ← List.findSome?_append]
      rfl
  have hshared : sharedRules.findSome? (pieceOf? (c :: rest)) =
      ((wordRules ++ punctuationRules).findSome? (pieceOf? (c :: rest))).or
        (closingRules.findSome? (pieceOf? (c :: rest))) :=
    List.findSome?_append
  rw [hstate, hshared]
  by_cases hclose : c = '\x7d' ∨ c = ']'
  · have hwords : (wordRules ++ punctuationRules).findSome? (pieceOf? (c :: rest)) = none := by
      refine findSome?_pieceOf?_eq_none ?_
      rcases hclose with rfl | rfl
      · decide
      · decide
    rw [hwords, Option.or_none, Option.none_or]
  · rw [not_or] at hclose
    have hclosing : closingRules.findSome? (pieceOf? (c :: rest)) = none := by
      refine findSome?_pieceOf?_eq_none ?_
      simp [closingRules, spelling, Matcher.mayBeginWith, Ne.symm hclose.1, Ne.symm hclose.2]
    rw [hclosing, Option.or_none, Option.none_or]

theorem pieceIn?_enclosed {d : Delimiter} {outer : List Delimiter} {c : Char} {rest : List Char}
    (hdouble : c ≠ '"') (hsingle : c ≠ '\'') :
    pieceIn? (contentState (d :: outer)) (c :: rest) =
      sharedRules.findSome? (pieceOf? (c :: rest)) := by
  refine pieceIn?_enclosed_of_none (pieceOf?_eq_none ?_)
  simp [rule, Matcher.mayBeginWith, quotedText, quoted, Pattern.concat, Pattern.mayBeginWith,
    Pattern.mayBeEmpty, hdouble, hsingle]

/-! ### Texts that are read alike everywhere -/

/-- Nothing in the text is read differently inside delimiters: no quote and no start of a
comment. -/
def IsQuiet (text : List Char) : Prop :=
  '"' ∉ text ∧ '\'' ∉ text ∧ ¬ "/**".toList <:+: text

instance (text : List Char) : Decidable (IsQuiet text) :=
  inferInstanceAs (Decidable (_ ∧ _ ∧ _))

theorem IsQuiet.left {first second : List Char} (h : IsQuiet (first ++ second)) :
    IsQuiet first :=
  ⟨fun hmem => h.1 (List.mem_append_left second hmem),
    fun hmem => h.2.1 (List.mem_append_left second hmem),
    fun hstart => h.2.2 (hstart.trans (List.prefix_append first second).isInfix)⟩

theorem IsQuiet.right {first second : List Char} (h : IsQuiet (first ++ second)) :
    IsQuiet second :=
  ⟨fun hmem => h.1 (List.mem_append_right first hmem),
    fun hmem => h.2.1 (List.mem_append_right first hmem),
    fun hstart => h.2.2 (hstart.trans (List.suffix_append first second).isInfix)⟩

/-- What begins with no quote and no start of a comment is read in running text as it is inside
delimiters. -/
theorem contentPiece_of_head {c : Char} {rest : List Char} (hdouble : c ≠ '"') (hsingle : c ≠ '\'')
    (hstart : ¬ "/**".toList <+: c :: rest) :
    contentPiece enclosing (c :: rest) = contentPiece [] (c :: rest) := by
  cases enclosing with
  | nil => rfl
  | cons d outer =>
    rw [contentPiece, contentPiece, pieceIn?_enclosed hdouble hsingle]
    exact congrArg (fun p => Option.getD p _) (pieceIn?_main hstart).symm

theorem contentPiece_of_notMem {c : Char} (hc : c ∉ ['"', '\'', '/']) (rest : List Char) :
    contentPiece enclosing (c :: rest) = contentPiece [] (c :: rest) := by
  simp only [List.mem_cons, List.not_mem_nil, or_false, not_or] at hc
  exact contentPiece_of_head hc.1 hc.2.1 fun h => hc.2.2 (List.cons_prefix_cons.1 h).1.symm

/-- A quiet text is read in running text as it is inside delimiters. -/
theorem contentPiece_of_isQuiet (h : IsQuiet text) (hne : text ≠ []) :
    contentPiece enclosing text = contentPiece [] text := by
  obtain ⟨c, rest, rfl⟩ := List.exists_cons_of_ne_nil hne
  exact contentPiece_of_head (fun hc => h.1 (hc ▸ List.mem_cons_self))
    (fun hc => h.2.1 (hc ▸ List.mem_cons_self)) fun hstart => h.2.2 hstart.isInfix

variable {lineStart : Bool}

theorem readPiece_of_isQuiet (h : IsQuiet text) (hne : text ≠ []) (other : List Delimiter) :
    readPiece lineStart enclosing text = readPiece lineStart other text := by
  rw [readPiece, readPiece, contentPiece_of_isQuiet h hne, ← contentPiece_of_isQuiet h hne]

/-- Two lexers at the same place that read the same there read the same to the end, if the same is
open for both or nothing that is ahead depends on it. -/
theorem run_eq {lineStart' : Bool} {other : List Delimiter} {lx lx' : Lexer docGrammar}
    (h : Stands lineStart enclosing lx) (h' : Stands lineStart' other lx')
    (hrest : lx.rest = lx'.rest) (hposition : lx.position = lx'.position)
    (hread : lx.rest ≠ [] →
      readPiece lineStart enclosing lx.rest = readPiece lineStart' other lx.rest)
    (hsame : enclosing = other ∨ IsQuiet lx.rest) : lx.run.1 = lx'.run.1 := by
  induction hn : lx.rest.length using Nat.strongRecOn generalizing lineStart enclosing lineStart'
    other lx lx' with
  | ind n ih =>
    cases htext : lx.rest with
    | nil =>
      have hend := Lexer.step_of_endError?_none htext (endError?_eq_none lx)
      have hend' := Lexer.step_of_endError?_none (hrest ▸ htext) (endError?_eq_none lx')
      rw [Lexer.run_of_finished hend, Lexer.run_of_finished hend']
    | cons found rest =>
      obtain ⟨next, hstep, -, hnext⟩ := h.step htext
      obtain ⟨next', hstep', -, hnext'⟩ := h'.step (hrest ▸ htext)
      rw [← hrest, ← hposition, ← hread (htext ▸ List.cons_ne_nil found rest)] at hstep'
      rw [← hrest, ← hread (htext ▸ List.cons_ne_nil found rest)] at hnext'
      have hleft := Lexer.step_text hstep
      have hrest' : next.rest = next'.rest :=
        List.append_cancel_left (hleft.trans (hrest.trans (Lexer.step_text hstep').symm))
      have hposition' : next.position = next'.position :=
        ((Lexer.span_of_step hstep).2.trans (congrArg (Position.advance · _) hposition)).trans
          (Lexer.span_of_step hstep').2.symm
      rw [Lexer.run_of_token hstep, Lexer.run_of_token hstep']
      refine congrArg (_ :: ·) (ih _ (hn ▸ Lexer.step_shorter hstep) hnext hnext' hrest' hposition'
        (fun hne => ?_) ?_ rfl)
      · rcases hsame with rfl | hquiet
        · rfl
        · rw [← hleft] at hquiet
          exact readPiece_of_isQuiet hquiet.right hne _
      · exact hsame.imp (congrArg (openAfter · _)) fun hquiet => (hleft ▸ hquiet).right

/-! ### Line ends -/

/-- What is read is what a rule reads, or the one character that no rule reads. -/
theorem readPiece_cases (lineStart : Bool) (enclosing : List Delimiter) (text : List Char) :
    (∃ id : Fin 4, (id = 1 ∨ id = contentState enclosing) ∧ ∃ r ∈ (docGrammar.state id).rules,
      ∃ stop, r.matcher.tokenEnd? text = some stop ∧
        (readPiece lineStart enclosing text).1 = .ofMatch r stop) ∨
      pieceIn? (contentState enclosing) text = none ∧
        (readPiece lineStart enclosing text).1 = ⟨.text, 1, String.ofList (text.take 1)⟩ := by
  have hrule {id : Fin 4} {p : Piece} (hp : pieceIn? id text = some p) :
      ∃ r ∈ (docGrammar.state id).rules, ∃ stop, r.matcher.tokenEnd? text = some stop ∧
        p = .ofMatch r stop := by
    obtain ⟨r, hr, hp⟩ := List.exists_of_findSome?_eq_some hp
    obtain ⟨stop, hstop, rfl⟩ := Option.map_eq_some_iff.1 hp
    exact ⟨r, hr, stop, hstop, rfl⟩
  unfold readPiece
  split
  · rename_i p hp
    split at hp
    · exact Or.inl ⟨1, Or.inl rfl, hrule hp⟩
    · cases hp
  · dsimp only [contentPiece]
    cases hp : pieceIn? (contentState enclosing) text with
    | none => exact Or.inr ⟨rfl, rfl⟩
    | some p => exact Or.inl ⟨_, Or.inr rfl, hrule hp⟩

/-- What the rule reads is a line end, or has none in it but perhaps a return between quotes. -/
def checksBreaks (r : Rule DocKind Matcher (Fin 4)) : Bool :=
  if r.kind = .newline then r.matcher.isPattern .lineEnd
  else r.matcher.avoids '\n' && (r.kind = .string || r.matcher.avoids '\r')

theorem checksBreaks_rules (id : docGrammar.StateId) :
    ((docGrammar.state id).rules.all checksBreaks) = true := by
  rcases stateId_cases id with rfl | rfl | rfl | rfl
  · exact (by decide : (mainState.rules.all checksBreaks) = true)
  · exact (by decide : (lineStartState.rules.all checksBreaks) = true)
  · exact (by decide : (braceState.rules.all checksBreaks) = true)
  · exact (by decide : (bracketState.rules.all checksBreaks) = true)

/-- A line feed or a return is read as a line end. -/
theorem lineEnd_reads {c : Char} (hc : c = '\n' ∨ c = '\r') (rest : List Char) :
    (Matcher.pattern .lineEnd).tokenEnd? (c :: rest) ≠ none := by
  rcases hc with rfl | rfl
  · have hmatch : ∃ stop, Pattern.lineEnd.matchAt? (.start ('\n' :: rest)) = some stop := ⟨_, rfl⟩
    obtain ⟨stop, hstop⟩ := hmatch
    rw [Matcher.tokenEnd?_of_matchAt? rfl hstop]
    exact Option.some_ne_none stop
  · exact Matcher.lineEnd_reads_return rest

/-- A piece with a line feed or a return in it is a line end, or a text in quotes with a return. -/
theorem readPiece_lineEnd {c : Char} (hc : c = '\n' ∨ c = '\r')
    (hmem : c ∈ text.take (readPiece lineStart enclosing text).1.length) :
    (readPiece lineStart enclosing text).1.kind = .newline ∧
        text.take (readPiece lineStart enclosing text).1.length ∈
          [['\r', '\n'], ['\r'], ['\n']] ∨
      (readPiece lineStart enclosing text).1.kind = .string ∧ c = '\r' := by
  rcases readPiece_cases lineStart enclosing text with
    ⟨id, -, r, hr, stop, hstop, hpiece⟩ | ⟨hnone, hpiece⟩
  · rw [hpiece] at hmem ⊢
    have hmem : c ∈ text.take stop.seen := hmem
    show r.kind = .newline ∧ text.take stop.seen ∈ _ ∨ r.kind = .string ∧ c = '\r'
    have hcheck := List.all_eq_true.1 (checksBreaks_rules id) r hr
    unfold checksBreaks at hcheck
    split at hcheck
    · rename_i hkind
      refine Or.inl ⟨hkind, ?_⟩
      rw [Matcher.eq_of_isPattern hcheck] at hstop
      simpa using Pattern.eq_of_describes_lineEnd (Matcher.describes_of_pattern hstop)
    · simp only [Bool.and_eq_true, Bool.or_eq_true, decide_eq_true_eq] at hcheck
      obtain ⟨hfeed, hreturn⟩ := hcheck
      rcases hc with rfl | rfl
      · exact absurd hmem (Matcher.not_mem_of_avoids hfeed hstop)
      · rcases hreturn with hkind | hreturn
        · exact Or.inr ⟨hkind, rfl⟩
        · exact absurd hmem (Matcher.not_mem_of_avoids hreturn hstop)
  · -- the character would be the first, but then a rule would read it
    rw [hpiece] at hmem
    obtain ⟨rest, htext⟩ : ∃ rest, text = c :: rest := by
      cases text with
      | nil => cases hmem
      | cons d rest => exact ⟨rest, by rw [List.mem_singleton.1 hmem]⟩
    have hmem := newline_mem (fallback_contentState enclosing)
    have hno := List.findSome?_eq_none_iff.1 hnone _ hmem
    rw [htext, pieceOf?, Option.map_eq_none_iff] at hno
    exact absurd hno (lineEnd_reads hc rest)

theorem quote_of_describes {piece : List Char} (h : quotedText.Describes piece) :
    ∃ quote, (quote = '"' ∨ quote = '\'') ∧ piece.getLast? = some quote := by
  cases hlast : piece.getLast? with
  | none => exact absurd (h.mayBeEmpty (List.getLast?_eq_none_iff.1 hlast)) Bool.noConfusion
  | some quote =>
    have hmay := h.mayEndWith hlast
    have hmay : quote = '"' ∨ quote = '\'' := by
      simpa [quotedText, quoted, Pattern.concat, Pattern.mayEndWith, Pattern.mayBeEmpty] using hmay
    exact ⟨quote, hmay, rfl⟩

/-- If the rule is for texts in quotes, it reads those. -/
def checksQuotes (r : Rule DocKind Matcher (Fin 4)) : Bool :=
  r.kind ≠ .string || r.matcher.isPattern quotedText

theorem checksQuotes_contentState (enclosing : List Delimiter) :
    ((docGrammar.state (contentState enclosing)).rules.all fun r =>
      checksQuotes r && (r.kind ≠ .string || enclosing ≠ [])) = true := by
  match enclosing with
  | [] => exact (by decide : (mainState.rules.all fun r =>
      checksQuotes r && (r.kind ≠ .string || false)) = true)
  | .brace :: _ => exact (by decide : (braceState.rules.all fun r =>
      checksQuotes r && (r.kind ≠ .string || true)) = true)
  | .bracket :: _ => exact (by decide : (bracketState.rules.all fun r =>
      checksQuotes r && (r.kind ≠ .string || true)) = true)

/-- A text in quotes is read inside delimiters only, and ends with a quote. -/
theorem readPiece_string (h : (readPiece lineStart enclosing text).1.kind = .string) :
    enclosing ≠ [] ∧ ∃ quote, (quote = '"' ∨ quote = '\'') ∧
      (text.take (readPiece lineStart enclosing text).1.length).getLast? = some quote := by
  rcases readPiece_cases lineStart enclosing text with
    ⟨id, hid, r, hr, stop, hstop, hpiece⟩ | ⟨-, hpiece⟩
  · rw [hpiece] at h ⊢
    have hkind : r.kind = .string := h
    rcases hid with rfl | rfl
    · rcases mem_lineStart hr with rfl | ⟨hkind' | hkind', -⟩
      · cases hkind
      · rw [hkind] at hkind'
        cases hkind'
      · rw [hkind] at hkind'
        cases hkind'
    · have hcheck := List.all_eq_true.1 (checksQuotes_contentState enclosing) r hr
      obtain ⟨hquotes, hopen⟩ := Bool.and_eq_true_iff.1 hcheck
      refine ⟨by simpa [hkind] using hopen, ?_⟩
      have hquotes : r.matcher.isPattern quotedText = true := by
        simpa [checksQuotes, hkind] using hquotes
      rw [Matcher.eq_of_isPattern hquotes] at hstop
      exact quote_of_describes (Matcher.describes_of_pattern hstop)
  · rw [hpiece] at h
    cases h

end Doc
end SqlDoc

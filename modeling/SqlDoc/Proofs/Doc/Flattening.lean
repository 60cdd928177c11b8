/-
# The text of recorded tokens

A recording is fed one token at a time. Layout adds one blank to it, unless the recording is empty
or ends with a blank; any other token adds its text. So the recording has one blank for every
longest run of layout (`recordTokens_eq`), because no other token of a comment is empty or ends with
a blank (`lexDoc_isSolid`). A blank at the start is lost, but so it is when the text is trimmed.

Key definitions: `flatLayout`, `flatDocText`, `DocToken.IsSolid`, `recordTokens`.
Key theorems: `recordTokens_eq`, `trim_recordTokens`, `lexDoc_isSolid`.
-/
import SqlDoc.Proofs.Doc.Prose

namespace SqlDoc

/-- The texts of tokens, one after the other, with one blank for each longest run of layout. If
layout came before them, the run they begin with has its blank already. -/
def flatLayout : Bool → List DocToken → List Char
  | _, [] => []
  | afterLayout, t :: rest =>
    if t.kind.isLayout then
      if afterLayout then flatLayout true rest else ' ' :: flatLayout true rest
    else t.text.toList ++ flatLayout false rest

/-- The text of tokens with one blank for each longest run of layout, trimmed. -/
def flatDocText (tokens : List DocToken) : String :=
  String.ofList (Text.trimChars (flatLayout false tokens))

/-- A token that is no layout has a text, which does not end with a blank. -/
def DocToken.IsSolid (t : DocToken) : Prop :=
  t.kind.isLayout = false → ∃ c, t.text.toList.getLast? = some c ∧ c ≠ ' '

variable {tokens : List DocToken}

/-- Tokens that are fed to a recording, one after the other. -/
def recordTokens (tokens : List DocToken) (text : List Char) : List Char :=
  tokens.foldl (fun text t => recordToken t text) text

/-- A recording gets one blank for each longest run of layout, but none at its start. -/
theorem recordTokens_eq (h : ∀ t ∈ tokens, DocToken.IsSolid t) (text : List Char) :
    recordTokens tokens text =
      text ++ flatLayout (text = [] ∨ text.getLast? = some ' ') tokens := by
  induction tokens generalizing text with
  | nil => exact (List.append_nil text).symm
  | cons t rest ih =>
    obtain ⟨ht, hrest⟩ := List.forall_mem_cons.1 h
    show recordTokens rest (recordToken t text) = _
    rw [ih hrest, flatLayout]
    cases hlayout : t.kind.isLayout with
    | false =>
      obtain ⟨c, hlast, hc⟩ := ht hlayout
      have hlast : (text ++ t.text.toList).getLast? = some c := by
        rw [List.getLast?_append, hlast]
        rfl
      have hends : ¬ (text ++ t.text.toList = [] ∨
          (text ++ t.text.toList).getLast? = some ' ') := by
        rintro (hnil | hblank)
        · rw [hnil] at hlast
          cases hlast
        · rw [hlast] at hblank
          exact hc (Option.some.inj hblank)
      rw [recordToken, if_neg (by rw [hlayout]; decide), if_neg Bool.false_ne_true,
        decide_eq_false hends, List.append_assoc]
    | true =>
      rw [recordToken, if_pos hlayout, if_pos rfl]
      by_cases hends : text = [] ∨ text.getLast? = some ' '
      · rw [if_pos hends, decide_eq_true hends, if_pos rfl]
      · have hblank : text ++ [' '] = [] ∨ (text ++ [' ']).getLast? = some ' ' :=
          Or.inr List.getLast?_concat
        rw [if_neg hends, decide_eq_true hblank, decide_eq_false hends,
          if_neg Bool.false_ne_true, List.append_assoc]
        rfl

theorem trimChars_flatLayout (tokens : List DocToken) :
    Text.trimChars (flatLayout true tokens) = Text.trimChars (flatLayout false tokens) := by
  cases tokens with
  | nil => rfl
  | cons t rest =>
    rw [flatLayout, flatLayout]
    cases t.kind.isLayout with
    | false => rfl
    | true =>
      have hblank : ∀ c ∈ [' '], Text.isBlank c = true := List.forall_mem_singleton.2 (by decide)
      exact (Text.trimChars_append hblank).symm

theorem trim_recordTokens (h : ∀ t ∈ tokens, DocToken.IsSolid t) :
    String.ofList (Text.trimChars (recordTokens tokens [])) = flatDocText tokens := by
  rw [recordTokens_eq h, List.nil_append, decide_eq_true (Or.inl rfl), trimChars_flatLayout]
  rfl

/-! ### Tokens of a comment -/

namespace Doc

/-- What the rule reads is layout, a text in quotes, or has no blank in it. -/
def checksBlank (r : Rule DocKind Matcher (Fin 4)) : Bool :=
  r.kind.isLayout || r.kind = .string || r.matcher.avoids ' '

theorem checksBlank_rules (id : docGrammar.StateId) :
    ((docGrammar.state id).rules.all checksBlank) = true := by
  rcases stateId_cases id with rfl | rfl | rfl | rfl
  · exact (by decide : (mainState.rules.all checksBlank) = true)
  · exact (by decide : (lineStartState.rules.all checksBlank) = true)
  · exact (by decide : (braceState.rules.all checksBlank) = true)
  · exact (by decide : (bracketState.rules.all checksBlank) = true)

/-- What is read that is no layout does not end with a blank. -/
theorem readPiece_isSolid {lineStart : Bool} {enclosing : List Delimiter} {text : List Char}
    (hne : text ≠ []) (hlayout : (readPiece lineStart enclosing text).1.kind.isLayout = false) :
    ∃ c, (text.take (readPiece lineStart enclosing text).1.length).getLast? = some c ∧ c ≠ ' ' := by
  by_cases hstring : (readPiece lineStart enclosing text).1.kind = .string
  · obtain ⟨-, quote, hquote, hlast⟩ := readPiece_string hstring
    refine ⟨quote, hlast, ?_⟩
    rcases hquote with rfl | rfl <;> decide
  rcases readPiece_cases lineStart enclosing text with
    ⟨id, -, r, hr, stop, hstop, hpiece⟩ | ⟨hnone, hpiece⟩
  · rw [hpiece] at hlayout hstring ⊢
    have hlayout : r.kind.isLayout = false := hlayout
    have hstring : r.kind ≠ .string := hstring
    have hcheck := List.all_eq_true.1 (checksBlank_rules id) r hr
    have havoids : r.matcher.avoids ' ' = true := by
      simpa [checksBlank, hlayout, hstring] using hcheck
    have hspace := Matcher.not_mem_of_avoids havoids hstop
    obtain ⟨c, hlast⟩ : ∃ c, (text.take stop.seen).getLast? = some c :=
      ⟨_, List.getLast?_eq_some_getLast (Matcher.take_seen_ne_nil hstop)⟩
    exact ⟨c, hlast, fun hc => hspace (hc ▸ List.mem_of_getLast? hlast)⟩
  · -- a rule would read a blank
    obtain ⟨c, rest, rfl⟩ := List.exists_cons_of_ne_nil hne
    rw [hpiece]
    refine ⟨c, rfl, ?_⟩
    rintro rfl
    cases not_isBlank_of_pieceIn?_none hnone

end Doc

/-- Every token of a comment that is no layout has a text, which does not end with a blank. -/
theorem lexDoc_isSolid {text : String} {start : Position} :
    ∀ t ∈ (lexDoc text start).1, DocToken.IsSolid t := by
  intro t ht hlayout
  obtain ⟨before, after, hsplit⟩ := List.append_of_mem ht
  obtain ⟨cut, hreads, hcut, -⟩ := Lexer.Reads.of_run hsplit
  obtain ⟨lineStart, hstands, -⟩ := (Doc.stands_start text.toList start).of_reads hreads
  obtain ⟨next, hstep, -, -⟩ := Lexer.step_of_run_cons hcut
  obtain ⟨found, rest, hrest⟩ := List.exists_cons_of_length_pos
    (Nat.zero_lt_of_lt (Lexer.step_shorter hstep))
  obtain ⟨next', hstep', -⟩ := hstands.step hrest
  cases hstep.symm.trans hstep'
  have hne : cut.rest ≠ [] := hrest ▸ List.cons_ne_nil found rest
  have hsolid := Doc.readPiece_isSolid hne hlayout
  rwa [Doc.Piece.token, String.toList_ofList]

end SqlDoc

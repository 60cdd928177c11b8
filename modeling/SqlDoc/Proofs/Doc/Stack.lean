/-
# The states of the lexer of a comment

Under everything lies the state of running text. On it lies a state for each brace and bracket that
is open, and on top, where a line begins, one that takes indentation and stars. What the lexer
stands on is told by the kinds of the tokens that it has read (`Doc.Stands.step`). A state of
running text, of braces or of brackets reads every character, and the one for the start of a line is
left for one of those, so a step gives a token after at most one change of the state, and a comment
is read to its end (`lexDoc_reads`). What is read at a place (`Doc.readPiece`) is told by the text
ahead, what is open and whether a line begins.

Key definitions: `Doc.openAfter`, `Doc.unclosed`, `Doc.readPiece`, `Doc.Stands`.
Key theorems: `Doc.Stands.step`, `Doc.Stands.of_reads`, `lexDoc_error`, `lexDoc_text`.
-/
import Mathlib.Algebra.GroupWithZero.Nat
import SqlDoc.Doc.Tag
import SqlDoc.Proofs.Doc.Places
import SqlDoc.Proofs.Lexer.Alike

namespace SqlDoc

namespace Lexer

variable {κ : Type} {g : Grammar κ}

theorem states_push (lx : Lexer g) (state : g.StateId) (entered : Position) :
    (lx.apply (.push state) entered).states = state :: lx.states :=
  rfl

theorem states_pop {lx : Lexer g} {top next : g.StateId} {below : List g.StateId}
    (h : lx.states = top :: next :: below) : lx.pop.states = next :: below := by
  obtain ⟨-, hbelow⟩ := List.cons.inj h
  obtain ⟨frame, frames, hframes, rfl, rfl⟩ := List.map_eq_cons_iff.1 hbelow
  rw [pop, hframes]
  rfl

end Lexer

namespace Doc

/-! ### What is open -/

/-- The four states can be given by their numbers. -/
instance neZero_four : NeZero 4 :=
  ⟨by decide⟩

/-- The state in which text is read where delimiters are open, the innermost first. -/
def contentState : List Delimiter → Fin 4
  | [] => 0
  | .brace :: _ => 2
  | .bracket :: _ => 3

/-- The states on the stack where delimiters are open, the innermost first. -/
def contentStack : List Delimiter → List (Fin 4)
  | [] => [contentState []]
  | d :: outer => contentState (d :: outer) :: contentStack outer

/-- The delimiters that are open after a token of the kind. One that closes another delimiter than
the innermost closes nothing. -/
def openAfter (enclosing : List Delimiter) (kind : DocKind) : List Delimiter :=
  match kind, enclosing with
  | .lbrace, _ => .brace :: enclosing
  | .lbracket, _ => .bracket :: enclosing
  | .rbrace, .brace :: outer => outer
  | .rbracket, .bracket :: outer => outer
  | _, _ => enclosing

/-- The delimiters that are open after tokens, the innermost first. -/
def openAfterAll (enclosing : List Delimiter) (tokens : List DocToken) : List Delimiter :=
  tokens.foldl (fun enclosing t => openAfter enclosing t.kind) enclosing

/-- The delimiters that the tokens at the start of a comment leave open, the innermost first. -/
def unclosed (tokens : List DocToken) : List Delimiter :=
  openAfterAll [] tokens

theorem unclosed_snoc (tokens : List DocToken) (t : DocToken) :
    unclosed (tokens ++ [t]) = openAfter (unclosed tokens) t.kind :=
  List.foldl_append

/-- A line begins after a token of the kind. -/
def startsLine : DocKind → Bool
  | .commentStart | .newline => true
  | _ => false

theorem contentStack_eq (enclosing : List Delimiter) :
    ∃ below, contentStack enclosing = contentState enclosing :: below := by
  cases enclosing with
  | nil => exact ⟨[], rfl⟩
  | cons d outer => exact ⟨contentStack outer, rfl⟩

/-! ### Rules -/

/-- How a token of the kind changes the state, if it is not read at the start of a line. -/
def transitionOf (state : Fin 4) : DocKind → Transition (Fin 4)
  | .commentStart | .newline => .push 1
  | .lbrace => .push 2
  | .lbracket => .push 3
  | .rbrace => if state = 2 then .pop else .stay
  | .rbracket => if state = 3 then .pop else .stay
  | _ => .stay

theorem transition_of_mem {enclosing : List Delimiter} {r : Rule DocKind Matcher (Fin 4)}
    (h : r ∈ (docGrammar.state (contentState enclosing)).rules) :
    r.transition = transitionOf (contentState enclosing) r.kind := by
  have hmain : (mainState.rules.all fun r => r.transition = transitionOf 0 r.kind) = true := by
    decide
  have hbrace : (braceState.rules.all fun r => r.transition = transitionOf 2 r.kind) = true := by
    decide
  have hbracket :
      (bracketState.rules.all fun r => r.transition = transitionOf 3 r.kind) = true := by
    decide
  match enclosing with
  | [] => exact of_decide_eq_true (List.all_eq_true.1 hmain r h)
  | .brace :: _ => exact of_decide_eq_true (List.all_eq_true.1 hbrace r h)
  | .bracket :: _ => exact of_decide_eq_true (List.all_eq_true.1 hbracket r h)

theorem fallback_contentState (enclosing : List Delimiter) :
    (docGrammar.state (contentState enclosing)).fallback = .token .text := by
  match enclosing with
  | [] => rfl
  | .brace :: _ => rfl
  | .bracket :: _ => rfl

theorem mem_lineStart {r : Rule DocKind Matcher (Fin 4)}
    (h : r ∈ (docGrammar.state (1 : Fin 4)).rules) :
    r = rule .whitespace .blanks ∨
      (r.kind = .commentEnd ∨ r.kind = .decoration) ∧ r.transition = .pop := by
  have h : r ∈ [rule .commentEnd commentEnd .pop, rule .whitespace .blanks,
    rule .decoration (.many (.literal "*")) .pop] := h
  rcases List.mem_cons.1 h with rfl | h
  · exact Or.inr ⟨Or.inl rfl, rfl⟩
  · rcases List.mem_cons.1 h with rfl | h
    · exact Or.inl rfl
    · exact Or.inr ⟨Or.inr (by rw [List.mem_singleton.1 h]; rfl), by
        rw [List.mem_singleton.1 h]; rfl⟩

/-! ### What is read -/

/-- All of a token but its place: its kind, the number of its characters and its normal form. -/
structure Piece where
  kind : DocKind
  length : Nat
  value : String

/-- The token that the piece is at the start of a text, if the text begins at the position. -/
def Piece.token (p : Piece) (text : List Char) (start : Position) : DocToken where
  kind := p.kind
  text := String.ofList (text.take p.length)
  value := p.value
  span := .between start (start.advance (text.take p.length))

/-- What a rule reads up to a place in a text. -/
def Piece.ofMatch {text : List Char} (r : Rule DocKind Matcher (Fin 4)) (stop : Cursor text) :
    Piece where
  kind := r.kind
  length := stop.seen
  value := r.value (String.ofList (text.take stop.seen))

/-- What a rule reads at the start of a text. -/
def pieceOf? (text : List Char) (r : Rule DocKind Matcher (Fin 4)) : Option Piece :=
  (r.matcher.tokenEnd? text).map (Piece.ofMatch r)

/-- What the first rule of a state that reads anything reads at the start of a text. -/
def pieceIn? (id : Fin 4) (text : List Char) : Option Piece :=
  (docGrammar.state id).rules.findSome? (pieceOf? text)

/-- What is read where delimiters are open, the innermost first. What no rule reads is text, one
character at a time. -/
def contentPiece (enclosing : List Delimiter) (text : List Char) : Piece :=
  (pieceIn? (contentState enclosing) text).getD ⟨.text, 1, String.ofList (text.take 1)⟩

/-- What is read at the start of a line or further on in it, and whether what follows is again at
the start of a line. -/
def readPiece (lineStart : Bool) (enclosing : List Delimiter) (text : List Char) : Piece × Bool :=
  match if lineStart then pieceIn? 1 text else none with
  | some p => (p, p.kind = .whitespace)
  | none => (contentPiece enclosing text, startsLine (contentPiece enclosing text).kind)

theorem readPiece_of_some {enclosing : List Delimiter} {text : List Char} {p : Piece}
    (h : pieceIn? 1 text = some p) :
    readPiece true enclosing text = (p, decide (p.kind = .whitespace)) := by
  rw [readPiece, if_pos rfl, h]

/-- Where nothing is read that only stands at the start of a line, the line has begun. -/
theorem readPiece_of_none {enclosing : List Delimiter} {text : List Char}
    (h : pieceIn? 1 text = none) (lineStart : Bool) :
    readPiece lineStart enclosing text =
      (contentPiece enclosing text, startsLine (contentPiece enclosing text).kind) := by
  rw [readPiece, h, ite_self]

/-- After a line end a line begins. -/
theorem startsLine_readPiece {lineStart : Bool} {enclosing : List Delimiter} {text : List Char}
    (h : startsLine (readPiece lineStart enclosing text).1.kind = true) :
    (readPiece lineStart enclosing text).2 = true := by
  unfold readPiece at h ⊢
  split at h
  · rename_i p hp
    split at hp
    · obtain ⟨r, hr, hp⟩ := List.exists_of_findSome?_eq_some hp
      obtain ⟨stop, -, rfl⟩ := Option.map_eq_some_iff.1 hp
      have h : startsLine r.kind = true := h
      rcases mem_lineStart hr with rfl | ⟨hkind | hkind, -⟩
      · cases h
      · rw [hkind] at h
        cases h
      · rw [hkind] at h
        cases h
    · cases hp
  · exact h

/-- The rules of the current state read what the lexer does. -/
theorem map_matchRule? (lx : Lexer docGrammar) :
    lx.matchRule?.map (fun m => Piece.ofMatch m.1 m.2) = pieceIn? lx.top.state lx.rest := by
  rw [Lexer.matchRule?, List.map_findSome?]
  refine congrArg (fun f => List.findSome? f _) (funext fun r => ?_)
  exact Option.map_map ..

/-! ### Where the lexer stands -/

variable {lineStart : Bool} {enclosing : List Delimiter} {lx next : Lexer docGrammar}

/-- Delimiters are open, the innermost first, and the lexer is at the start of a line or further on
in it. -/
def Stands (lineStart : Bool) (enclosing : List Delimiter) (lx : Lexer docGrammar) : Prop :=
  lx.states = if lineStart then (1 : Fin 4) :: contentStack enclosing else contentStack enclosing

theorem stands_start (text : List Char) (start : Position) :
    Stands false [] (.start docGrammar text start) :=
  rfl

theorem Stands.state_eq (h : Stands false enclosing lx) :
    lx.top.state = contentState enclosing := by
  obtain ⟨below, hbelow⟩ := contentStack_eq enclosing
  exact (List.cons.inj (h.trans hbelow)).1

theorem Stands.state_eq_lineStart (h : Stands true enclosing lx) : lx.top.state = (1 : Fin 4) :=
  (List.cons.inj h).1

theorem Stands.pop (h : Stands true enclosing lx) : Stands false enclosing lx.pop := by
  obtain ⟨below, hbelow⟩ := contentStack_eq enclosing
  have h : lx.states = (1 : Fin 4) :: contentState enclosing :: below := hbelow ▸ h
  exact (Lexer.states_pop h).trans hbelow.symm

/-- Leaving the innermost delimiter. -/
theorem Stands.pop_delimiter {d : Delimiter} (h : Stands false (d :: enclosing) lx) :
    Stands false enclosing lx.pop := by
  obtain ⟨below, hbelow⟩ := contentStack_eq enclosing
  have h : lx.states = contentState (d :: enclosing) :: contentState enclosing :: below :=
    hbelow ▸ h
  exact (Lexer.states_pop h).trans hbelow.symm

theorem Stands.apply (h : Stands false enclosing lx) (kind : DocKind) (entered : Position) :
    Stands (startsLine kind) (openAfter enclosing kind)
      (lx.apply (transitionOf (contentState enclosing) kind) entered) := by
  have hpush (state : Fin 4) : (lx.apply (.push state) entered).states =
      state :: contentStack enclosing :=
    (lx.states_push state entered).trans (congrArg (state :: ·) h)
  cases kind with
  | commentStart | newline => exact hpush 1
  | lbrace => exact hpush 2
  | lbracket => exact hpush 3
  | rbrace =>
    match enclosing, h with
    | [], h => exact h
    | .brace :: _, h => exact h.pop_delimiter
    | .bracket :: _, h => exact h
  | rbracket =>
    match enclosing, h with
    | [], h => exact h
    | .brace :: _, h => exact h
    | .bracket :: _, h => exact h.pop_delimiter
  | _ => exact h

/-- Away from the start of a line every character begins a token. -/
theorem Stands.act (h : Stands false enclosing lx) (found : Char) :
    ∃ next, lx.act found = .read ((contentPiece enclosing lx.rest).token lx.rest lx.position) next ∧
      Stands (startsLine (contentPiece enclosing lx.rest).kind)
        (openAfter enclosing (contentPiece enclosing lx.rest).kind) next := by
  cases hm : lx.matchRule? with
  | none =>
    have htext : lx.state.fallback = .token .text := by
      rw [Lexer.state, h.state_eq]
      exact fallback_contentState enclosing
    have hnone : pieceIn? (contentState enclosing) lx.rest = none := by
      rw [← h.state_eq, ← map_matchRule?, hm]
      rfl
    rw [contentPiece, hnone]
    exact ⟨_, Lexer.act_of_fallback_token hm htext found, h⟩
  | some pair =>
    obtain ⟨r, stop⟩ := pair
    have hsome : pieceIn? (contentState enclosing) lx.rest = some (.ofMatch r stop) := by
      rw [← h.state_eq, ← map_matchRule?, hm]
      rfl
    rw [contentPiece, hsome]
    refine ⟨_, Lexer.act_of_matchRule? hm found, ?_⟩
    obtain ⟨hr, -⟩ := Lexer.of_matchRule?_eq_some hm
    rw [Lexer.state, h.state_eq] at hr
    rw [transition_of_mem hr]
    have hskip : Stands false enclosing (lx.skip stop.seen stop.rest) := h
    exact hskip.apply _ _

/-- At the start of a line blanks are read, or stars and what ends the comment, or else the line has
begun. -/
theorem Stands.act_lineStart (h : Stands true enclosing lx) (found : Char) :
    (∃ p next, pieceIn? 1 lx.rest = some p ∧
      lx.act found = .read (p.token lx.rest lx.position) next ∧
      (p.kind = .whitespace ∧ Stands true enclosing next ∨
        (p.kind = .commentEnd ∨ p.kind = .decoration) ∧ Stands false enclosing next)) ∨
      pieceIn? 1 lx.rest = none ∧ lx.act found = .move lx.pop := by
  have hstate : lx.state = docGrammar.state (1 : Fin 4) := by
    rw [Lexer.state, h.state_eq_lineStart]
  have hpiece := map_matchRule? lx
  rw [h.state_eq_lineStart] at hpiece
  cases hm : lx.matchRule? with
  | none =>
    have hpop : lx.state.fallback = .pop := by
      rw [hstate]
      rfl
    refine Or.inr ⟨?_, Lexer.act_of_fallback_pop hm hpop found⟩
    rw [← hpiece, hm]
    rfl
  | some pair =>
    obtain ⟨r, stop⟩ := pair
    have hsome : pieceIn? 1 lx.rest = some (.ofMatch r stop) := by
      rw [← hpiece, hm]
      rfl
    refine Or.inl ⟨_, _, hsome, Lexer.act_of_matchRule? hm found, ?_⟩
    obtain ⟨hr, -⟩ := Lexer.of_matchRule?_eq_some hm
    rw [hstate] at hr
    have hskip : Stands true enclosing (lx.skip stop.seen stop.rest) := h
    rcases mem_lineStart hr with rfl | ⟨hkind, hpop⟩
    · exact Or.inl ⟨rfl, hskip⟩
    · refine Or.inr ⟨hkind, ?_⟩
      rw [hpop]
      exact hskip.pop

/-- Where characters are left a step gives the token that is read there, after at most one change of
the state that reads nothing. The token's kind says what is open after it. -/
theorem Stands.step (h : Stands lineStart enclosing lx) {found : Char} {rest : List Char}
    (hrest : lx.rest = found :: rest) :
    let p := (readPiece lineStart enclosing lx.rest).1
    ∃ next, lx.step = .token (p.token lx.rest lx.position) next ∧
      Lexer.stepAt found 1 lx = .token (p.token lx.rest lx.position) next ∧
      Stands (readPiece lineStart enclosing lx.rest).2 (openAfter enclosing p.kind) next := by
  have hread {t : DocToken} {next : Lexer docGrammar} (hact : lx.act found = .read t next) :
      lx.step = .token t next ∧ Lexer.stepAt found 1 lx = .token t next := by
    refine ⟨Lexer.step_of_act_read hrest hact, ?_⟩
    rw [Lexer.stepAt, hact]
  cases lineStart with
  | false =>
    obtain ⟨next, hact, hnext⟩ := h.act found
    exact ⟨next, (hread hact).1, (hread hact).2, hnext⟩
  | true =>
    rcases h.act_lineStart found with ⟨p, next, hp, hact, hnext⟩ | ⟨hnone, hact⟩
    · rw [readPiece_of_some hp]
      refine ⟨next, (hread hact).1, (hread hact).2, ?_⟩
      rcases hnext with ⟨hkind, hnext⟩ | ⟨hkind | hkind, hnext⟩ <;> rw [hkind] <;> exact hnext
    · rw [readPiece_of_none hnone]
      obtain ⟨next, hpop, hnext⟩ := h.pop.act found
      rw [lx.rest_pop, lx.position_pop] at hpop
      rw [lx.rest_pop] at hnext
      refine ⟨next, Lexer.step_of_act_move hrest hact hpop, ?_, hnext⟩
      rw [Lexer.stepAt, hact]
      show Lexer.stepAt found 0 lx.pop = _
      rw [Lexer.stepAt, hpop]

/-! ### Whole comments -/

/-- The tokens of a text that is not empty begin with the one that is read first. -/
theorem Stands.run_cons (h : Stands lineStart enclosing lx) {source : List Char}
    (hsource : lx.rest = source) (hne : source ≠ []) :
    let p := (readPiece lineStart enclosing source).1
    ∃ next, lx.run.1 = p.token source lx.position :: next.run.1 ∧ next.rest = source.drop p.length ∧
      Stands (readPiece lineStart enclosing source).2 (openAfter enclosing p.kind) next := by
  subst hsource
  obtain ⟨found, rest, hrest⟩ := List.exists_cons_of_ne_nil hne
  obtain ⟨next, hstep, -, hnext⟩ := h.step hrest
  refine ⟨next, congrArg Prod.fst (Lexer.run_of_token hstep), ?_, hnext⟩
  have htext := Lexer.step_text hstep
  rw [Piece.token, String.toList_ofList] at htext
  exact List.append_cancel_left (htext.trans (List.take_append_drop _ lx.rest).symm)

/-- After tokens those delimiters are open that the tokens leave open, and after a line end a line
begins. -/
theorem Stands.of_reads (h : Stands lineStart enclosing lx) {tokens : List DocToken}
    (hreads : lx.Reads tokens next) :
    ∃ lineStart', Stands lineStart' (openAfterAll enclosing tokens) next ∧
      ((tokens.getLast?.any fun t => startsLine t.kind) = true → lineStart' = true) := by
  induction hreads generalizing lineStart enclosing with
  | nil => exact ⟨lineStart, h, fun hlast => Bool.noConfusion hlast⟩
  | @cons lx mid next t tokens hstep hreads ih =>
    cases hrest : lx.rest with
    | nil =>
      have := Lexer.step_shorter hstep
      rw [hrest] at this
      exact absurd this (Nat.not_lt_zero _)
    | cons found rest =>
      obtain ⟨mid', hstep', -, hmid⟩ := h.step hrest
      rw [hstep] at hstep'
      cases hstep'
      obtain ⟨last, hnext, hlast⟩ := ih hmid
      cases tokens with
      | nil =>
        cases hreads
        exact ⟨_, hmid, startsLine_readPiece⟩
      | cons u tokens =>
        refine ⟨last, hnext, fun h => hlast ?_⟩
        rwa [List.getLast?_cons_cons] at h

theorem mustClose_eq_none (id : docGrammar.StateId) : (docGrammar.state id).mustClose = none := by
  rcases stateId_cases id with rfl | rfl | rfl | rfl <;> rfl

/-- Nothing has to be closed at the end of a comment. -/
theorem endError?_eq_none (lx : Lexer docGrammar) : lx.endError? = none := by
  rw [Lexer.endError?, List.findSome?_eq_none_iff]
  intro frame _
  rw [mustClose_eq_none]
  rfl

end Doc

open Doc (Stands)

/-- A comment is read to its end. -/
theorem lexDoc_reads (text : String) (start : Position) :
    ∃ lx, (Lexer.start docGrammar text.toList start).Reads (lexDoc text start).1 lx ∧
      lx.rest = [] ∧ (lexDoc text start).2 = none := by
  obtain ⟨lx, hreads, htokens, herror⟩ := Lexer.Reads.of_run
    (List.append_nil (Lexer.start docGrammar text.toList start).run.1).symm
  obtain ⟨lineStart, hstands, -⟩ := (Doc.stands_start text.toList start).of_reads hreads
  have hrest : lx.rest = [] := by
    cases hrest : lx.rest with
    | nil => rfl
    | cons found rest =>
      obtain ⟨next, hstep, -⟩ := hstands.step hrest
      rw [Lexer.run_of_token hstep] at htokens
      cases htokens
  refine ⟨lx, hreads, hrest, ?_⟩
  have hfinished := Lexer.run_of_finished (Lexer.step_of_endError?_none hrest
    (Doc.endError?_eq_none lx))
  rw [hfinished] at herror
  exact herror.symm

/-- Every comment can be split into tokens. -/
theorem lexDoc_error (text : String) (start : Position) : (lexDoc text start).2 = none :=
  let ⟨_, _, _, herror⟩ := lexDoc_reads text start
  herror

/-- The tokens of a comment begin with the one that is read first. -/
theorem lexDoc_cons {text : String} {source : List Char} (htext : text.toList = source)
    (hne : source ≠ []) (start : Position) :
    let p := (Doc.readPiece false [] source).1
    ∃ next, (lexDoc text start).1 = p.token source start :: next.run.1 ∧
      next.rest = source.drop p.length ∧
      Stands (Doc.readPiece false [] source).2 (Doc.openAfter [] p.kind) next :=
  (Doc.stands_start text.toList start).run_cons htext hne

/-- The tokens of a comment are the comment. -/
theorem lexDoc_text (text : String) (start : Position) :
    tokensText (lexDoc text start).1 = text := by
  obtain ⟨lx, hreads, hrest, -⟩ := lexDoc_reads text start
  have htext : text.toList = (tokensText (lexDoc text start).1).toList ++ lx.rest :=
    (hreads.passes Doc.keepsLineEnds).text
  rw [hrest, List.append_nil] at htext
  exact (String.toList_inj.1 htext).symm

end SqlDoc

/-
# Positions do not decide what is read

A lexer counts positions but never looks at them. Two lexers that have the same text ahead and the
same states on their stacks read the same tokens and fail for the same cause, wherever they are
(`Lexer.Alike.run`).

Key definitions: `Token.content`, `Token.unplaced`, `LexError.cause`, `Lexer.Alike`.
Key theorems: `Lexer.Alike.step`, `Lexer.Alike.run`.
-/
import SqlDoc.Proofs.Lexer.Passage

namespace SqlDoc

/-- All of a token but its place. -/
def Token.content {κ : Type} (t : Token κ) : κ × String × String :=
  (t.kind, t.text, t.value)

/-- The token without its place. -/
def Token.unplaced {κ : Type} (t : Token κ) : Token κ :=
  { t with span := .point .start }

/-- Tokens with the same content differ in their places only. -/
theorem Token.unplaced_eq {κ : Type} {t u : Token κ} (h : t.content = u.content) :
    t.unplaced = u.unplaced := by
  obtain ⟨kind, text, value, span⟩ := t
  obtain ⟨kind', text', value', span'⟩ := u
  cases h
  rfl

theorem map_unplaced_eq {κ : Type} {tokens others : List (Token κ)}
    (h : tokens.map Token.content = others.map Token.content) :
    tokens.map Token.unplaced = others.map Token.unplaced := by
  induction tokens generalizing others with
  | nil => rw [List.map_eq_nil_iff.1 h.symm]
  | cons t tokens ih =>
    obtain ⟨u, others, rfl, hu, hrest⟩ := List.map_eq_cons_iff.1 h.symm
    rw [List.map_cons, List.map_cons, ih hrest.symm, Token.unplaced_eq hu]

/-- All of an error but its place. -/
def LexError.cause (e : LexError) : Code × String :=
  (e.code, e.message)

namespace Lexer

variable {κ : Type} {g : Grammar κ}

/-- The states on the stack, the current one first. -/
def states (lx : Lexer g) : List g.StateId :=
  (lx.top :: lx.below).map (·.state)

/-- The lexers have the same text ahead and the same states on their stacks. -/
structure Alike (lx other : Lexer g) : Prop where
  rest : lx.rest = other.rest
  states : lx.states = other.states

/-- Both do the same, but for positions. -/
inductive SameAction : Action g → Action g → Prop where
  | read {token token' : Token κ} {next next' : Lexer g} (htoken : token.content = token'.content)
      (hnext : next.Alike next') : SameAction (.read token next) (.read token' next')
  | move {next next' : Lexer g} (hnext : next.Alike next') : SameAction (.move next) (.move next')
  | fail {e e' : LexError} (he : e.cause = e'.cause) : SameAction (.fail e) (.fail e')

/-- Both come to the same, but for positions. -/
inductive SameOutcome : Outcome g → Outcome g → Prop where
  | token {token token' : Token κ} {next next' : Lexer g} (htoken : token.content = token'.content)
      (hnext : next.Alike next') : SameOutcome (.token token next) (.token token' next')
  | failed {e e' : LexError} (he : e.cause = e'.cause) : SameOutcome (.failed e) (.failed e')
  | finished : SameOutcome .finished .finished

namespace Alike

variable {lx other : Lexer g}

theorem top (h : lx.Alike other) : lx.top.state = other.top.state :=
  (List.cons.inj h.states).1

theorem below (h : lx.Alike other) : lx.below.map (·.state) = other.below.map (·.state) :=
  (List.cons.inj h.states).2

theorem state (h : lx.Alike other) : lx.state = other.state :=
  congrArg g.state h.top

theorem pop (h : lx.Alike other) : lx.pop.Alike other.pop := by
  have hbelow := h.below
  unfold Lexer.pop
  cases hl : lx.below with
  | nil =>
    rw [hl, List.map_nil] at hbelow
    rw [List.map_eq_nil_iff.1 hbelow.symm]
    exact h
  | cons frame frames =>
    rw [hl, List.map_cons] at hbelow
    obtain ⟨frame', frames', ho, hframe, hframes⟩ := List.map_eq_cons_iff.1 hbelow.symm
    rw [ho]
    refine ⟨h.rest, ?_⟩
    show frame.state :: frames.map (·.state) = frame'.state :: frames'.map (·.state)
    rw [hframe, hframes]

theorem apply (h : lx.Alike other) (transition : Transition g.StateId) (p q : Position) :
    (lx.apply transition p).Alike (other.apply transition q) := by
  cases transition with
  | stay => exact h
  | push state => exact ⟨h.rest, congrArg (state :: ·) h.states⟩
  | pop => exact h.pop
  | next state => exact ⟨h.rest, congrArg (state :: ·) h.below⟩

theorem skip (h : lx.Alike other) (length : Nat) (rest : List Char) :
    (lx.skip length rest).Alike (other.skip length rest) :=
  ⟨rfl, h.states⟩

theorem token (h : lx.Alike other) (kind : κ) (length : Nat) (value : String → String) :
    (lx.token kind length value).content = (other.token kind length value).content := by
  simp only [Token.content, Lexer.token, h.rest]

/-- The same rule reads the same token in both. -/
theorem matchRule? (h : lx.Alike other) {rule : Rule κ Matcher g.StateId} {stop : Cursor lx.rest}
    (hm : lx.matchRule? = some (rule, stop)) :
    ∃ stop' : Cursor other.rest, other.matchRule? = some (rule, stop') ∧ stop'.seen = stop.seen ∧
      stop'.rest = stop.rest := by
  obtain ⟨rest, p, top, below⟩ := lx
  obtain ⟨rest', q, top', below'⟩ := other
  obtain rfl : rest = rest' := h.rest
  have htop : top.state = top'.state := h.top
  refine ⟨stop, ?_, rfl, rfl⟩
  rw [← hm]
  simp only [Lexer.matchRule?, Lexer.state, htop]

theorem symm (h : lx.Alike other) : other.Alike lx :=
  ⟨h.rest.symm, h.states.symm⟩

theorem matchRule?_eq_none (h : lx.Alike other) (hm : lx.matchRule? = none) :
    other.matchRule? = none := by
  cases ho : other.matchRule? with
  | none => rfl
  | some pair =>
    obtain ⟨stop, hstop, -⟩ := h.symm.matchRule? ho
    rw [hm] at hstop
    cases hstop

theorem act (h : lx.Alike other) (found : Char) :
    SameAction (lx.act found) (other.act found) := by
  unfold Lexer.act
  cases hm : lx.matchRule? with
  | none =>
    simp only [h.matchRule?_eq_none hm, h.state]
    cases other.state.fallback with
    | error => exact .fail rfl
    | token kind =>
      refine .read (h.token kind 1 id) ?_
      rw [h.rest]
      exact h.skip 1 _
    | pop => exact .move h.pop
    | next state => exact .move (h.apply (.next state) _ _)
  | some pair =>
    obtain ⟨rule, stop⟩ := pair
    obtain ⟨stop', hstop, hseen, hrest⟩ := h.matchRule? hm
    simp only [hstop, hseen, hrest]
    exact .read (h.token ..) ((h.skip ..).apply _ _ _)

theorem stepAt (h : lx.Alike other) (found : Char) (budget : Nat) :
    SameOutcome (Lexer.stepAt found budget lx) (Lexer.stepAt found budget other) := by
  induction budget generalizing lx other with
  | zero =>
    unfold Lexer.stepAt
    have hact := h.act found
    generalize lx.act found = action at hact ⊢
    generalize other.act found = action' at hact ⊢
    cases hact with
    | read htoken hnext => exact .token htoken hnext
    | move hnext =>
      refine .failed ?_
      rw [hnext.state]
      rfl
    | fail he => exact .failed he
  | succ budget ih =>
    unfold Lexer.stepAt
    have hact := h.act found
    generalize lx.act found = action at hact ⊢
    generalize other.act found = action' at hact ⊢
    cases hact with
    | read htoken hnext => exact .token htoken hnext
    | move hnext => exact ih hnext
    | fail he => exact .failed he

/-- At the end of the text both have to close the same state, or none. -/
theorem endError? (h : lx.Alike other) :
    lx.endError?.map LexError.cause = other.endError?.map LexError.cause := by
  have hcause : ∀ frames : List (Frame g),
      (frames.findSome? fun frame => (g.state frame.state).mustClose.map fun label =>
        LexError.unterminated label frame.entered).map LexError.cause =
      (frames.map (·.state)).findSome? fun id => (g.state id).mustClose.map fun label =>
        (LexError.unterminated label .start).cause := by
    intro frames
    induction frames with
    | nil => rfl
    | cons frame frames ih =>
      rw [List.findSome?_cons, List.map_cons, List.findSome?_cons]
      cases (g.state frame.state).mustClose with
      | none => exact ih
      | some label => rfl
  rw [Lexer.endError?, Lexer.endError?, hcause, hcause]
  exact congrArg _ h.states

/-- Both take the same step. -/
theorem step (h : lx.Alike other) : SameOutcome lx.step other.step := by
  cases hrest : lx.rest with
  | nil =>
    have hend := h.endError?
    have hother : other.rest = [] := h.rest ▸ hrest
    cases hl : lx.endError? with
    | none =>
      rw [hl] at hend
      have ho : other.endError? = none := Option.map_eq_none_iff.1 hend.symm
      rw [step_of_endError?_none hrest hl, step_of_endError?_none hother ho]
      exact .finished
    | some e =>
      rw [hl] at hend
      obtain ⟨e', ho, he⟩ := Option.map_eq_some_iff.1 hend.symm
      rw [step_of_endError?_some hrest hl, step_of_endError?_some hother ho]
      exact .failed he.symm
  | cons found rest =>
    have hother : other.rest = found :: rest := h.rest ▸ hrest
    rw [step_eq_stepAt hrest, step_eq_stepAt hother]
    exact h.stepAt found g.size

/-- Both give the same tokens, and the same error if they give one. -/
theorem run (h : lx.Alike other) :
    lx.run.1.map Token.content = other.run.1.map Token.content ∧
      lx.run.2.map LexError.cause = other.run.2.map LexError.cause := by
  induction hn : lx.rest.length using Nat.strongRecOn generalizing lx other with
  | ind n ih =>
    have hstep := h.step
    generalize hl : lx.step = outcome at hstep
    generalize ho : other.step = outcome' at hstep
    cases hstep with
    | finished =>
      rw [run_of_finished hl, run_of_finished ho]
      exact ⟨rfl, rfl⟩
    | failed he =>
      rw [run_of_failed hl, run_of_failed ho]
      exact ⟨rfl, congrArg some he⟩
    | @token token token' next next' htoken hnext =>
      obtain ⟨htokens, herror⟩ := ih _ (hn ▸ step_shorter hl) hnext rfl
      rw [run_of_token hl, run_of_token ho]
      refine ⟨?_, herror⟩
      rw [List.map_cons, List.map_cons, htoken, htokens]

end Alike

/-- A text is read alike wherever it begins. -/
theorem start_alike {text : List Char} {p : Position} {lx : Lexer g}
    (hrest : lx.rest = text) (hstates : lx.states = [g.start]) :
    lx.Alike (.start g text p) :=
  ⟨hrest, hstates⟩

end Lexer
end SqlDoc

/-
# Asking a lexer for tokens

A feed on the states of a grammar goes along with the grammar's lexer (`LexerFeed.Models`): it is as
far in the text and has the same stack, written in plain numbers. So asking never breaks off, and
gives what the lexer's next step comes to (`LexerFeed.Models.pull?`). For that no literal may be
empty, which building sees to: a feed takes a literal as it is, and an empty one would be read again
and again. And the matches of an engine have to end on characters: a feed cuts its text where it is
told to.

Key definitions: `LexerFeed.Models`, `LexerFeed.SameAction`, `LexerFeed.SameOutcome`.
Key theorems: `LexerFeed.Models.actOn?`, `LexerFeed.Models.pull?`.
-/
import SqlDoc.Proofs.Lexer.Building
import SqlDoc.Proofs.Lexer.Stalling

namespace SqlDoc

/-- The number of bytes before a place in a text. -/
def Cursor.bytes {text : List Char} (stop : Cursor text) : Nat :=
  Text.byteLength (text.take stop.seen)

theorem Cursor.bytes_pos {text : List Char} (stop : Cursor text) : 0 < stop.bytes ↔ 0 < stop.seen := by
  have hle := stop.seen_le
  rw [Cursor.bytes, Nat.pos_iff_ne_zero, Nat.pos_iff_ne_zero, Ne, Text.byteLength_eq_zero,
    List.take_eq_nil_iff]
  constructor
  · exact fun h hseen => h (Or.inl hseen)
  · rintro hseen (hzero | rfl)
    · exact hseen hzero
    · exact hseen (Nat.le_zero.1 hle)

theorem Cursor.splitBytes?_bytes {text : List Char} (stop : Cursor text) :
    Text.splitBytes? stop.bytes text = some (text.take stop.seen, stop.rest) := by
  rw [Text.splitBytes?_eq_some_iff, ← stop.rest_eq]
  exact ⟨List.take_append_drop .., rfl⟩

/-- A frame with the plain number of its state. -/
def Frame.level {κ : Type} {g : Grammar κ} (frame : Frame g) : StackLevel where
  state := frame.state.val
  entered := frame.entered

/-- The first match of a rule is the same, whatever stands for states, where the matchers of all of
them give the same lengths. -/
theorem findSome?_map_rules {κ σ τ : Type} (f : σ → τ) {rules : List (Rule κ Matcher σ)}
    {text : List Char}
    (h : ∀ rule ∈ rules,
      rule.matcher.matchLength? text = (rule.matcher.tokenEnd? text).map (·.bytes)) :
    ((rules.map (Rule.map f)).findSome? fun rule =>
        (rule.matcher.matchLength? text).map fun length => (rule, length)) =
      (rules.findSome? fun rule => (rule.matcher.tokenEnd? text).map fun stop => (rule, stop)).map
        fun (rule, stop) => (rule.map f, stop.bytes) := by
  induction rules with
  | nil => rfl
  | cons rule rules ih =>
    have hrule : (rule.map f).matcher.matchLength? text = _ := h rule (List.mem_cons_self ..)
    rw [List.map_cons, List.findSome?_cons, List.findSome?_cons, hrule]
    cases rule.matcher.tokenEnd? text with
    | none => exact ih fun rule hrule => h rule (List.mem_cons_of_mem _ hrule)
    | some stop => rfl

/-- Where a character ends, there is a place with so many bytes before it. -/
theorem exists_byteEnd? {n : Nat} {text read rest : List Char}
    (h : Text.splitBytes? n text = some (read, rest)) :
    ∃ stop, byteEnd? n text = some stop ∧ stop.bytes = n := by
  obtain ⟨rfl, hread⟩ := Text.splitBytes?_eq_some_iff.1 h
  have hprefix : read.isPrefixOf (read ++ rest) :=
    List.isPrefixOf_iff_prefix.2 (List.prefix_append ..)
  have hend : byteEnd? n (read ++ rest) = literalEnd? read (read ++ rest) := by
    rw [byteEnd?, h]
    rfl
  refine ⟨_, hend.trans (dif_pos hprefix), ?_⟩
  rw [Cursor.bytes, List.take_left, hread]

/-- What reads characters reads as much for a feed as for a lexer. -/
theorem Matcher.matchLength?_eq {m : Matcher} (hm : m.ReadsCharacters) (text : List Char) :
    m.matchLength? text = (m.tokenEnd? text).map (·.bytes) := by
  have hfilter (stop? : Option (Cursor text)) :
      (stop?.map (·.bytes)).filter (0 < ·) =
        (stop?.filter fun stop => 0 < stop.seen).map (·.bytes) := by
    cases stop? with
    | none => rfl
    | some stop =>
      simp only [Option.map_some, Option.filter_some, stop.bytes_pos]
      split <;> rfl
  cases m with
  | literal chars =>
    have hpos : 0 < chars.length := List.length_pos_iff.2 hm
    unfold matchLength? tokenEnd? literalEnd?
    by_cases h : chars.isPrefixOf text
    · obtain ⟨rest, rfl⟩ := List.isPrefixOf_iff_prefix.1 h
      simp [h, hpos, Cursor.bytes]
    · simp [h]
  | pattern p => exact hfilter _
  | regex r =>
    show (r.matchEnd? text).filter (0 < ·) = _
    rw [tokenEnd?, ← hfilter]
    congr 1
    cases hend : r.matchEnd? text with
    | none => rfl
    | some n =>
      obtain ⟨read, rest, hsplit⟩ := hm text n hend
      obtain ⟨stop, hstop, hbytes⟩ := exists_byteEnd? hsplit
      rw [Option.bind_some, hstop, Option.map_some, hbytes]

namespace LexerFeed

variable {κ : Type} {g : Grammar κ} {source : List Char} {f : LexerFeed κ} {lx : Lexer g}

/-- The feed is in the text where the lexer is, with the same stack. -/
structure Models (source : List Char) (f : LexerFeed κ) (lx : Lexer g) : Prop where
  states : f.states = g.numbered
  text : f.source = source
  split : ∃ read, Text.splitBytes? f.offset source = some (read, lx.rest)
  position : f.position = lx.position
  stack : f.stack = (lx.top :: lx.below).map Frame.level

theorem models_start (g : Grammar κ) (source : List Char) (p : Position) :
    (LexerFeed.start g.numbered source p).Models source (Lexer.start g source p) where
  states := rfl
  text := rfl
  split := ⟨[], Text.splitBytes?_eq_some_iff.2 ⟨rfl, rfl⟩⟩
  position := rfl
  stack := rfl

theorem getElem?_numbered (id : g.StateId) :
    g.numbered[id.val]? = some ((g.state id).map Fin.val) := by
  simp [Grammar.numbered, Grammar.state]

@[simp] theorem length_numbered : g.numbered.length = g.size := by
  simp [Grammar.numbered]

@[simp] theorem finished_pop (f : LexerFeed κ) : f.pop.finished = f.finished := by
  unfold pop
  split <;> rfl

/-! ### One action -/

namespace Models

theorem rest? (h : f.Models source lx) : f.rest? = some lx.rest := by
  obtain ⟨read, hsplit⟩ := h.split
  rw [LexerFeed.rest?, h.text, hsplit]
  rfl

theorem state? (h : f.Models source lx) : f.state? = some (lx.state.map Fin.val) := by
  rw [LexerFeed.state?, h.stack, h.states]
  exact getElem?_numbered lx.top.state

theorem endError? (h : f.Models source lx) :
    LexerFeed.endError? f.states f.stack = some lx.endError? := by
  have hframes : ∀ frames : List (Frame g),
      LexerFeed.endError? g.numbered (frames.map Frame.level) =
        some (frames.findSome? fun frame => (g.state frame.state).mustClose.map fun label =>
          .unterminated label frame.entered) := by
    intro frames
    induction frames with
    | nil => rfl
    | cons frame frames ih =>
      have hstate : g.numbered[frame.level.state]? = some ((g.state frame.state).map Fin.val) :=
        getElem?_numbered frame.state
      rw [List.map_cons, LexerFeed.endError?, hstate, List.findSome?_cons]
      simp only [Option.bind_eq_bind, Option.bind_some, LexState.map]
      cases (g.state frame.state).mustClose with
      | none => exact ih
      | some label => rfl
  rw [h.states, h.stack, hframes]
  rfl

theorem pop (h : f.Models source lx) : f.pop.Models source lx.pop := by
  obtain ⟨states, _, offset, position, stack, finished⟩ := f
  obtain ⟨rest, place, top, below⟩ := lx
  obtain ⟨hstates, rfl, hsplit, hposition, rfl⟩ := h
  cases below with
  | nil => exact ⟨hstates, rfl, hsplit, hposition, rfl⟩
  | cons frame below => exact ⟨hstates, rfl, hsplit, hposition, rfl⟩

theorem change? (h : f.Models source lx) (transition : Transition g.StateId) (p : Position) :
    ∃ next, f.change? (transition.map Fin.val) p = some next ∧
      next.Models source (lx.apply transition p) ∧ next.finished = f.finished := by
  cases transition with
  | stay => exact ⟨f, rfl, h, rfl⟩
  | push state =>
    refine ⟨_, rfl, ?_, rfl⟩
    exact { h with stack := congrArg (_ :: ·) h.stack }
  | pop => exact ⟨f.pop, rfl, h.pop, finished_pop f⟩
  | next state =>
    refine ⟨{ f with stack := ⟨state.val, p⟩ :: lx.below.map Frame.level }, ?_, ?_, rfl⟩
    · rw [Transition.map, LexerFeed.change?, h.stack]
      rfl
    · exact { h with stack := rfl }

/-- The bytes before a place in what is left can be taken for a token. -/
theorem emit? (h : f.Models source lx) (stop : Cursor lx.rest) (kind : κ)
    (value : String → String) :
    ∃ next, f.emit? kind stop.bytes value = some (lx.token kind stop.seen value, next) ∧
      next.Models source (lx.skip stop.seen stop.rest) ∧ next.finished = f.finished := by
  refine ⟨{ f with
    offset := f.offset + stop.bytes
    position := lx.position.advance (lx.rest.take stop.seen) }, ?_, ?_, rfl⟩
  · rw [LexerFeed.emit?, h.rest?]
    simp only [Option.bind_eq_bind, Option.bind_some, stop.splitBytes?_bytes, h.position]
    rfl
  · obtain ⟨read, hsplit⟩ := h.split
    obtain ⟨htext, hread⟩ := Text.splitBytes?_eq_some_iff.1 hsplit
    refine { h with split := ⟨read ++ lx.rest.take stop.seen, ?_⟩, position := rfl }
    rw [Text.splitBytes?_eq_some_iff, Text.byteLength_append, hread]
    refine ⟨?_, rfl⟩
    show _ ++ stop.rest = source
    rw [← stop.rest_eq, List.append_assoc, List.take_append_drop, htext]

theorem matchRule? (hg : g.ReadsCharacters) (lx : Lexer g) :
    ((lx.state.map Fin.val).rules.findSome? fun rule =>
        (rule.matcher.matchLength? lx.rest).map fun length => (rule, length)) =
      lx.matchRule?.map fun (rule, stop) => (rule.map Fin.val, stop.bytes) :=
  findSome?_map_rules Fin.val fun rule hrule => Matcher.matchLength?_eq (hg _ rule hrule) lx.rest

end Models

/-- The feed does what the lexer does. -/
inductive SameAction (source : List Char) (lx : Lexer g) :
    Lexer.Action g → Option (Action κ) → Prop where
  | read {token : Token κ} {next : LexerFeed κ} {next' : Lexer g} (models : next.Models source next')
      (running : next.finished = false) :
      SameAction source lx (.read token next') (some (.give (some (.ok token)) next))
  | move {next : LexerFeed κ} {next' : Lexer g} (models : next.Models source next')
      (running : next.finished = false) :
      SameAction source lx (.move next') (some (.move next))
  | fail {error : LexError} {last : LexerFeed κ} (models : last.Models source lx)
      (finished : last.finished = true) :
      SameAction source lx (.fail error) (some (.give (some (.error error)) last))

/-- Where characters are left, the feed does what the lexer does. -/
theorem Models.actOn? (hg : g.ReadsCharacters) (h : f.Models source lx)
    (hrun : f.finished = false) {found : Char} {rest : List Char} (hrest : lx.rest = found :: rest) :
    SameAction source lx (lx.act found) (f.actOn? found lx.rest) := by
  unfold LexerFeed.actOn? Lexer.act
  rw [h.state?]
  simp only [Option.bind_eq_bind, Option.bind_some, matchRule? hg lx]
  cases hm : lx.matchRule? with
  | some pair =>
    obtain ⟨rule, stop⟩ := pair
    obtain ⟨read, hemit, hread, hreadrun⟩ := h.emit? stop rule.kind rule.value
    obtain ⟨next, hchange, hnext, hnextrun⟩ := hread.change? rule.transition lx.position
    simp only [Option.map_some, Rule.map, hemit, Option.bind_some, h.position, hchange]
    exact .read hnext (hnextrun.trans (hreadrun.trans hrun))
  | none =>
    let first : Cursor lx.rest := {
      seen := 1
      previous := some found
      rest := lx.rest.drop 1
      rest_eq := rfl
      seen_le := by
        rw [hrest]
        exact Nat.le_add_left .. }
    have hfirst : first.bytes = found.utf8Size := by
      simp [Cursor.bytes, first, hrest, Text.byteLength]
    simp only [Option.map_none, LexState.map]
    cases hf : lx.state.fallback with
    | error =>
      rw [h.position]
      exact .fail { h with position := rfl } rfl
    | token kind =>
      obtain ⟨next, hemit, hnext, hnextrun⟩ := h.emit? first kind id
      rw [hfirst] at hemit
      simp only [Fallback.map, hemit, Option.bind_some]
      exact .read hnext (hnextrun.trans hrun)
    | pop => exact .move h.pop ((finished_pop f).trans hrun)
    | next state =>
      obtain ⟨next, hchange, hnext, hnextrun⟩ := h.change? (.next state) lx.position
      rw [Transition.map] at hchange
      simp only [Fallback.map, h.position, hchange, Option.bind_some]
      exact .move hnext (hnextrun.trans hrun)

/-! ### One step -/

/-- What asking gives is what the lexer's step comes to. -/
inductive SameOutcome (source : List Char) :
    Lexer.Outcome g → Option (Item κ × LexerFeed κ) → Prop where
  | token {token : Token κ} {next : LexerFeed κ} {next' : Lexer g}
      (models : next.Models source next') (running : next.finished = false) :
      SameOutcome source (.token token next') (some (some (.ok token), next))
  | failed {error : LexError} {last : LexerFeed κ} {last' : Lexer g}
      (models : last.Models source last') (finished : last.finished = true) :
      SameOutcome source (.failed error) (some (some (.error error), last))
  | finished {last : LexerFeed κ} {last' : Lexer g} (models : last.Models source last')
      (finished : last.finished = true) : SameOutcome source .finished (some (none, last))

theorem Models.act? (hg : g.ReadsCharacters) (h : f.Models source lx) (hrun : f.finished = false)
    {found : Char} {rest : List Char} (hrest : lx.rest = found :: rest) :
    SameAction source lx (lx.act found) f.act? := by
  have hact : f.act? = f.actOn? found lx.rest := by
    rw [LexerFeed.act?, h.rest?, hrest]
    rfl
  rw [hact]
  exact h.actOn? hg hrun hrest

theorem Models.pullWithin? (hg : g.ReadsCharacters) (h : f.Models source lx)
    (hrun : f.finished = false) {found : Char} {rest : List Char} (hrest : lx.rest = found :: rest)
    (budget : Nat) : SameOutcome source (lx.stepAt found budget) (f.pullWithin? budget) := by
  induction budget generalizing f lx with
  | zero =>
    have hact := h.act? hg hrun hrest
    unfold LexerFeed.pullWithin? Lexer.stepAt
    generalize lx.act found = action at hact
    generalize f.act? = action' at hact
    cases hact with
    | read models running => exact .token models running
    | move models running =>
      simp only [Option.bind_eq_bind, Option.bind_some, models.state?, models.position]
      exact .failed { models with position := rfl } rfl
    | fail models finished => exact .failed models finished
  | succ budget ih =>
    have hact := h.act? hg hrun hrest
    unfold LexerFeed.pullWithin? Lexer.stepAt
    generalize hmove : lx.act found = action at hact
    generalize f.act? = action' at hact
    cases hact with
    | read models running => exact .token models running
    | move models running => exact ih models running ((Lexer.act_move_rest hmove).trans hrest)
    | fail models finished => exact .failed models finished

/-- Asking gives what the lexer's step comes to. -/
theorem Models.pull? (hg : g.ReadsCharacters) (h : f.Models source lx) (hrun : f.finished = false) :
    SameOutcome source lx.step f.pull? := by
  have hpull : f.pull? = f.pullWithin? g.size := by
    rw [LexerFeed.pull?, hrun, h.states, length_numbered]
    rfl
  rw [hpull]
  cases hrest : lx.rest with
  | cons found rest =>
    rw [Lexer.step_eq_stepAt hrest]
    exact h.pullWithin? hg hrun hrest g.size
  | nil =>
    have hact : f.act? = some (.give (lx.endError?.map .error) { f with finished := true }) := by
      rw [LexerFeed.act?, h.rest?, hrest]
      simp only [Option.bind_eq_bind, Option.bind_some, h.endError?]
      rfl
    have hend : f.pullWithin? g.size = some (lx.endError?.map .error, { f with finished := true }) := by
      unfold LexerFeed.pullWithin?
      rw [hact]
      rfl
    rw [hend]
    cases herror : lx.endError? with
    | none =>
      rw [Lexer.step_of_endError?_none hrest herror]
      exact .finished { h with } rfl
    | some error =>
      rw [Lexer.step_of_endError?_some hrest herror]
      exact .failed { h with } rfl

end LexerFeed
end SqlDoc

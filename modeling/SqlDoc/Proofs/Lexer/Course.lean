/-
# The course of a lexer over a text

Whatever the grammar says, asking for the tokens of a text goes the same way: tokens that are not
empty and lie one behind the other, then at most one error, then nothing (`LexerFeed.Course`). The
tokens are the text up to where the last of them ends. If that is the end of the text, an error names
the innermost level that has to be closed; else the error is reported right there. This holds for
every grammar that has been built with an engine whose matches end on characters
(`LexerFeed.course_of_build`).

Most of it is proved of the lexer, step by step (`Lexer.Reads`); by Proofs/Lexer/Feed a feed gives
what the lexer reads.

Key definitions: `Tiles`, `Lexer.frames`, `Lexer.Ends`, `LexerFeed.unclosed?`, `LexerFeed.Course`.
Key theorems: `Lexer.Reads.tiles`, `Lexer.exists_reads_ends`, `LexerFeed.Models.pullAt?`,
`LexerFeed.Models.ends`, `LexerFeed.course_of_build`.
-/
import SqlDoc.Proofs.Lexer.Feed

namespace SqlDoc

/-- The tokens lie one behind the other, the first at `p`, each as long as its text, and the last
ends at `q`. -/
inductive Tiles {κ : Type} : Position → List (Token κ) → Position → Prop where
  | nil (p : Position) : Tiles p [] p
  | cons {p q : Position} {t : Token κ} {tokens : List (Token κ)}
      (span : t.span = .between p (p.advance t.text.toList))
      (more : Tiles (p.advance t.text.toList) tokens q) : Tiles p (t :: tokens) q

namespace Lexer

variable {κ : Type} {g : Grammar κ}

/-! ### Tokens -/

namespace Reads

variable {lx next : Lexer g} {tokens : List (Token κ)}

theorem tiles (h : lx.Reads tokens next) : Tiles lx.position tokens next.position := by
  induction h with
  | nil lx => exact .nil _
  | cons hstep _ ih =>
    obtain ⟨hspan, hposition⟩ := span_of_step hstep
    rw [hposition] at hspan ih
    exact .cons hspan ih

theorem text (h : lx.Reads tokens next) : (tokensText tokens).toList ++ next.rest = lx.rest := by
  induction h with
  | nil lx => rfl
  | cons hstep _ ih =>
    rw [tokensText_cons, String.toList_append, List.append_assoc, ih, step_text hstep]

theorem text_ne (h : lx.Reads tokens next) {t : Token κ} (ht : t ∈ tokens) : t.text ≠ "" := by
  induction h with
  | nil => cases ht
  | cons hstep _ ih =>
    rcases List.mem_cons.1 ht with rfl | ht
    · intro hempty
      exact text_ne_nil_of_step hstep (by rw [hempty]; rfl)
    · exact ih ht

end Reads

/-! ### Levels of the stack -/

/-- The stack, the current state first. -/
def frames (lx : Lexer g) : List (Frame g) :=
  lx.top :: lx.below

theorem frames_pop_subset (lx : Lexer g) : lx.pop.frames ⊆ lx.frames := by
  unfold pop
  split
  · exact List.Subset.refl _
  · rename_i hbelow
    rw [frames, frames, hbelow]
    exact List.subset_cons_self _ _

/-- A transition enters a state at the position that it is told. -/
theorem mem_frames_apply {lx : Lexer g} {transition : Transition g.StateId} {p : Position}
    {frame : Frame g} (h : frame ∈ (lx.apply transition p).frames) :
    frame ∈ lx.frames ∨ frame.entered = p := by
  cases transition with
  | stay => exact Or.inl h
  | push state =>
    rcases List.mem_cons.1 h with rfl | h
    · exact Or.inr rfl
    · exact Or.inl h
  | pop => exact Or.inl (frames_pop_subset lx h)
  | next state =>
    rcases List.mem_cons.1 h with rfl | h
    · exact Or.inr rfl
    · exact Or.inl (List.mem_cons_of_mem _ h)

theorem mem_frames_of_act_read {lx next : Lexer g} {found : Char} {token : Token κ}
    (h : lx.act found = .read token next) {frame : Frame g} (hframe : frame ∈ next.frames) :
    frame ∈ lx.frames ∨ frame.entered = lx.position := by
  unfold act at h
  split at h
  · cases h
    have hskipped := mem_frames_apply hframe
    exact hskipped
  · split at h <;> cases h
    exact Or.inl hframe

theorem mem_frames_of_act_move {lx next : Lexer g} {found : Char} (h : lx.act found = .move next)
    {frame : Frame g} (hframe : frame ∈ next.frames) :
    frame ∈ lx.frames ∨ frame.entered = lx.position := by
  unfold act at h
  split at h
  · cases h
  · split at h <;> cases h
    · exact Or.inl (frames_pop_subset lx hframe)
    · exact mem_frames_apply hframe

/-- A step enters states at the place where it begins. -/
theorem mem_frames_of_stepAt {found : Char} {budget : Nat} {lx next : Lexer g} {token : Token κ}
    (h : lx.stepAt found budget = .token token next) {frame : Frame g}
    (hframe : frame ∈ next.frames) : frame ∈ lx.frames ∨ frame.entered = lx.position := by
  induction budget generalizing lx with
  | zero =>
    unfold stepAt at h
    split at h <;> cases h
    exact mem_frames_of_act_read ‹_› hframe
  | succ budget ih =>
    unfold stepAt at h
    split at h
    · cases h
      exact mem_frames_of_act_read ‹_› hframe
    · cases h
    · rename_i mid hmove
      rcases ih h with hmid | hentered
      · exact mem_frames_of_act_move hmove hmid
      · exact Or.inr (hentered.trans (position_of_act_move hmove))

theorem mem_frames_of_step {lx next : Lexer g} {token : Token κ} (h : lx.step = .token token next)
    {frame : Frame g} (hframe : frame ∈ next.frames) :
    frame ∈ lx.frames ∨ frame.entered = lx.position := by
  unfold step at h
  split at h
  · split at h <;> cases h
  · exact mem_frames_of_stepAt h hframe

/-- Every level of the stack was there before, or was entered where one of the tokens begins. -/
theorem Reads.mem_frames {lx next : Lexer g} {tokens : List (Token κ)} (h : lx.Reads tokens next)
    {frame : Frame g} (hframe : frame ∈ next.frames) :
    frame ∈ lx.frames ∨ ∃ t ∈ tokens, t.start = frame.entered := by
  induction h with
  | nil => exact Or.inl hframe
  | cons hstep _ ih =>
    rcases ih hframe with hmid | ⟨t, ht, hstart⟩
    · refine (mem_frames_of_step hstep hmid).imp_right fun hentered => ?_
      refine ⟨_, List.mem_cons_self .., ?_⟩
      rw [Token.start, (span_of_step hstep).1, hentered]
      rfl
    · exact Or.inr ⟨t, List.mem_cons_of_mem _ ht, hstart⟩

/-! ### Errors -/

theorem act_fail {lx : Lexer g} {found : Char} {e : LexError} (h : lx.act found = .fail e) :
    e = .unexpectedChar found lx.state.name lx.position := by
  unfold act at h
  split at h
  · cases h
  · split at h <;> cases h
    rfl

/-- Where characters are left, a step reads a token, finds the first character unexpected or
stalls. -/
theorem stepAt_cases (found : Char) (budget : Nat) (lx : Lexer g) :
    (∃ token next, lx.stepAt found budget = .token token next) ∨
      ∃ state, lx.stepAt found budget = .failed (.unexpectedChar found state lx.position) ∨
        lx.stepAt found budget = .failed (.stalled state lx.position) := by
  induction budget generalizing lx with
  | zero =>
    unfold stepAt
    cases hact : lx.act found with
    | read token next => exact Or.inl ⟨token, next, rfl⟩
    | fail e => exact Or.inr ⟨_, Or.inl (congrArg _ (act_fail hact))⟩
    | move next =>
      rw [← position_of_act_move hact]
      exact Or.inr ⟨_, Or.inr rfl⟩
  | succ budget ih =>
    unfold stepAt
    cases hact : lx.act found with
    | read token next => exact Or.inl ⟨token, next, rfl⟩
    | fail e => exact Or.inr ⟨_, Or.inl (congrArg _ (act_fail hact))⟩
    | move next =>
      rw [← position_of_act_move hact]
      exact ih next

/-- Nothing is read from here on: the text has ended, or its next character is not read. -/
inductive Ends (lx : Lexer g) : Option LexError → Prop where
  | atEnd (rest : lx.rest = []) : Ends lx lx.endError?
  | unexpected {found : Char} {more : List Char} (rest : lx.rest = found :: more)
      (state : String) : Ends lx (some (.unexpectedChar found state lx.position))
  | stalled (rest : lx.rest ≠ []) (state : String) : Ends lx (some (.stalled state lx.position))

/-- A run reads all its tokens and ends there. -/
theorem exists_reads_ends (lx : Lexer g) : ∃ last, lx.Reads lx.run.1 last ∧ last.Ends lx.run.2 := by
  obtain ⟨last, hreads, htokens, herror⟩ := Reads.of_run (List.append_nil lx.run.1).symm
  refine ⟨last, hreads, ?_⟩
  rw [← herror]
  cases hrest : last.rest with
  | nil =>
    cases hend : last.endError? with
    | none =>
      rw [run_of_finished (step_of_endError?_none hrest hend), ← hend]
      exact .atEnd hrest
    | some e =>
      rw [run_of_failed (step_of_endError?_some hrest hend), ← hend]
      exact .atEnd hrest
  | cons found rest =>
    have hne : last.rest ≠ [] := by
      rw [hrest]
      exact List.cons_ne_nil _ _
    have hstep := step_eq_stepAt hrest
    rcases stepAt_cases found g.size last with ⟨t, next, hat⟩ | ⟨state, hat | hat⟩
    · rw [run_of_token (hstep.trans hat)] at htokens
      cases htokens
    · rw [run_of_failed (hstep.trans hat)]
      exact .unexpected hrest state
    · rw [run_of_failed (hstep.trans hat)]
      exact .stalled hne state

end Lexer

namespace LexerFeed

variable {κ : Type} {g : Grammar κ} {source : List Char} {f : LexerFeed κ} {lx : Lexer g}

/-! ### Asking again and again -/

theorem pull?_of_finished (h : f.finished = true) : f.pull? = some (none, f) := by
  rw [pull?, if_pos h]

theorem after?_of_finished (h : f.finished = true) (n : Nat) : f.after? n = some f := by
  induction n with
  | zero => rfl
  | succ n ih =>
    rw [after?, pull?_of_finished h]
    exact ih

theorem pullAt?_of_finished (h : f.finished = true) (n : Nat) : f.pullAt? n = some none := by
  rw [pullAt?, after?_of_finished h]
  show (f.pull? >>= _) = _
  rw [pull?_of_finished h]
  rfl

theorem after?_succ {item : Item κ} {next : LexerFeed κ} (h : f.pull? = some (item, next)) (n : Nat) :
    f.after? (n + 1) = next.after? n := by
  rw [after?, h]
  rfl

theorem pullAt?_zero {item : Item κ} {next : LexerFeed κ} (h : f.pull? = some (item, next)) :
    f.pullAt? 0 = some item := by
  show (f.pull? >>= _) = _
  rw [h]
  rfl

theorem pullAt?_succ {item : Item κ} {next : LexerFeed κ} (h : f.pull? = some (item, next)) (n : Nat) :
    f.pullAt? (n + 1) = next.pullAt? n := by
  rw [pullAt?, pullAt?, after?_succ h]

/-- Tokens, and after them the error if there is one. -/
def items (tokens : List (Token κ)) (error : Option LexError) : List (Except LexError (Token κ)) :=
  tokens.map .ok ++ error.toList.map .error

namespace Models

/-- Asked again and again, a feed gives what the lexer reads in its run. -/
theorem pullAt? (hg : g.ReadsCharacters) (h : f.Models source lx) (hrun : f.finished = false)
    (n : Nat) : f.pullAt? n = some (items lx.run.1 lx.run.2)[n]? := by
  induction n generalizing f lx with
  | zero =>
    have hpull := h.pull? hg hrun
    generalize hstep : lx.step = outcome at hpull
    generalize hf : f.pull? = pulled at hpull
    cases hpull with
    | token models running =>
      rw [pullAt?_zero hf, Lexer.run_of_token hstep]
      rfl
    | failed models finished =>
      rw [pullAt?_zero hf, Lexer.run_of_failed hstep]
      rfl
    | finished models finished =>
      rw [pullAt?_zero hf, Lexer.run_of_finished hstep]
      rfl
  | succ n ih =>
    have hpull := h.pull? hg hrun
    generalize hstep : lx.step = outcome at hpull
    generalize hf : f.pull? = pulled at hpull
    cases hpull with
    | token models running =>
      rw [pullAt?_succ hf, Lexer.run_of_token hstep]
      exact ih models running
    | failed models finished =>
      rw [pullAt?_succ hf, pullAt?_of_finished finished, Lexer.run_of_failed hstep]
      rfl
    | finished models finished =>
      rw [pullAt?_succ hf, pullAt?_of_finished finished, Lexer.run_of_finished hstep]
      rfl

/-- However often it is asked, a feed models some lexer. -/
theorem exists_after? (hg : g.ReadsCharacters) (h : f.Models source lx) (n : Nat) :
    ∃ last, f.after? n = some last ∧ ∃ lx' : Lexer g, last.Models source lx' := by
  induction n generalizing f lx with
  | zero => exact ⟨f, rfl, lx, h⟩
  | succ n ih =>
    cases hrun : f.finished with
    | true => exact ⟨f, after?_of_finished hrun _, lx, h⟩
    | false =>
      have hpull := h.pull? hg hrun
      generalize lx.step = outcome at hpull
      generalize hf : f.pull? = pulled at hpull
      cases hpull with
      | token models =>
        rw [after?_succ hf]
        exact ih models
      | failed models =>
        rw [after?_succ hf]
        exact ih models
      | finished models =>
        rw [after?_succ hf]
        exact ih models

/-- Asked for as many tokens as the lexer reads, a feed comes to where the lexer comes to. -/
theorem after?_of_reads (hg : g.ReadsCharacters) (h : f.Models source lx) (hrun : f.finished = false)
    {next : Lexer g} {tokens : List (Token κ)} (hreads : lx.Reads tokens next) :
    ∃ last, f.after? tokens.length = some last ∧ last.Models source next := by
  induction hreads generalizing f with
  | nil => exact ⟨f, rfl, h⟩
  | cons hstep _ ih =>
    have hpull := h.pull? hg hrun
    rw [hstep] at hpull
    generalize hf : f.pull? = pulled at hpull
    cases hpull with
    | token models running =>
      rw [List.length_cons, after?_succ hf]
      exact ih models running

end Models

/-! ### The course -/

/-- The innermost level that has to be closed: what it is called and where it was entered. -/
def unclosed? (f : LexerFeed κ) : Option (String × Position) :=
  f.stack.findSome? fun level => do
    let state ← f.states[level.state]?
    let label ← state.mustClose
    return (label, level.entered)

/-- A feed at `p` goes through its text: it gives the tokens, and the error if there is one; `last` is
the feed after the tokens. -/
structure Course (p : Position) (feed : LexerFeed κ) (tokens : List (Token κ))
    (error : Option LexError) (last : LexerFeed κ) : Prop where
  /-- Asked again and again, it gives the tokens, then the error, and then nothing. -/
  items : ∀ n, feed.pullAt? n = some (items tokens error)[n]?
  /-- At any time there is a state on the stack, and the numbers there are numbers of states. -/
  stack : ∀ n, ∃ f, feed.after? n = some f ∧ f.stack ≠ [] ∧
    ∀ level ∈ f.stack, level.state < feed.states.length
  texts : ∀ t ∈ tokens, t.text ≠ ""
  tiles : Tiles p tokens last.position
  after : feed.after? tokens.length = some last
  /-- What has been read is the text up to the offset, which counts bytes. -/
  read : ∃ rest,
    Text.splitBytes? last.offset feed.source = some ((tokensText tokens).toList, rest)
  /-- That is all of it if there is no error, or one that says that it ends too early. -/
  atEnd : last.offset = Text.byteLength feed.source ↔
    error = none ∨ ∃ label place, error = some (.unterminated label place)
  unexpected : ∀ found state place, error = some (.unexpectedChar found state place) →
    place = last.position ∧ ∃ read rest,
      Text.splitBytes? last.offset feed.source = some (read, found :: rest)
  stalled : ∀ state place, error = some (.stalled state place) → place = last.position
  unterminated : ∀ label place, error = some (.unterminated label place) ↔
    last.offset = Text.byteLength feed.source ∧ last.unclosed? = some (label, place)
  /-- A level was entered where the text begins or where one of the tokens does. -/
  entered : ∀ level ∈ last.stack, level.entered = p ∨ ∃ t ∈ tokens, t.start = level.entered

namespace Models

theorem endError?_eq (h : f.Models source lx) :
    lx.endError? = f.unclosed?.map fun (label, place) => .unterminated label place := by
  rw [unclosed?, h.stack, h.states, List.map_findSome?, List.findSome?_map, Lexer.endError?]
  congr 1
  funext frame
  have hstate : g.numbered[frame.level.state]? = some ((g.state frame.state).map Fin.val) :=
    getElem?_numbered frame.state
  simp only [Function.comp_apply, hstate, Option.bind_eq_bind, Option.bind_some, LexState.map]
  cases (g.state frame.state).mustClose <;> rfl

theorem stack_ne_nil (h : f.Models source lx) : f.stack ≠ [] := by
  rw [h.stack]
  exact List.cons_ne_nil _ _

theorem state_lt (h : f.Models source lx) {level : StackLevel} (hlevel : level ∈ f.stack) :
    level.state < g.size := by
  rw [h.stack] at hlevel
  obtain ⟨frame, -, rfl⟩ := List.mem_map.1 hlevel
  exact frame.state.isLt

theorem offset_eq_iff (h : f.Models source lx) :
    f.offset = Text.byteLength source ↔ lx.rest = [] := by
  obtain ⟨read, hsplit⟩ := h.split
  obtain ⟨rfl, hread⟩ := Text.splitBytes?_eq_some_iff.1 hsplit
  rw [Text.byteLength_append, hread, ← Text.byteLength_eq_zero]
  omega

end Models

/-- What is reported where a lexer ends, in terms of a feed that is there. -/
theorem Models.ends (h : f.Models source lx) {error : Option LexError} (hends : lx.Ends error) :
    (f.offset = Text.byteLength source ↔
        error = none ∨ ∃ label place, error = some (.unterminated label place)) ∧
      (∀ found state place, error = some (.unexpectedChar found state place) →
        place = f.position ∧ ∃ read rest,
          Text.splitBytes? f.offset source = some (read, found :: rest)) ∧
      (∀ state place, error = some (.stalled state place) → place = f.position) ∧
      ∀ label place, error = some (.unterminated label place) ↔
        f.offset = Text.byteLength source ∧ f.unclosed? = some (label, place) := by
  rw [h.offset_eq_iff, h.position]
  cases hends with
  | atEnd hrest =>
    rw [h.endError?_eq]
    cases f.unclosed? with
    | none => simp [hrest]
    | some unclosed => simp [hrest, Prod.ext_iff]
  | @unexpected found more hrest state =>
    obtain ⟨read, hsplit⟩ := h.split
    rw [hrest] at hsplit
    simp [hrest, hsplit]
  | stalled hrest state => simp [hrest]

/-- The lexer of a grammar whose tokens are made of characters goes through any text from any
position. -/
theorem course_start (hg : g.ReadsCharacters) (source : List Char) (p : Position) :
    ∃ last, Course p (.start g.numbered source p) (Lexer.start g source p).run.1
      (Lexer.start g source p).run.2 last := by
  have hstart := models_start g source p
  obtain ⟨last', hreads, hends⟩ := (Lexer.start g source p).exists_reads_ends
  obtain ⟨last, hafter, hlast⟩ := hstart.after?_of_reads hg rfl hreads
  obtain ⟨hatEnd, hunexpected, hstalled, hunterminated⟩ := hlast.ends hends
  refine ⟨last, ?_⟩
  constructor
  case items => exact fun n => hstart.pullAt? hg rfl n
  case stack =>
    intro n
    obtain ⟨f, hf, lx, hmodels⟩ := hstart.exists_after? hg n
    refine ⟨f, hf, hmodels.stack_ne_nil, fun level hlevel => ?_⟩
    exact (hmodels.state_lt hlevel).trans_eq length_numbered.symm
  case texts => exact fun t ht => hreads.text_ne ht
  case tiles =>
    rw [hlast.position]
    exact hreads.tiles
  case after => exact hafter
  case read =>
    have htext : (tokensText (Lexer.start g source p).run.1).toList ++ last'.rest = source :=
      hreads.text
    obtain ⟨read, hsplit⟩ := hlast.split
    have hcut := (Text.splitBytes?_eq_some_iff.1 hsplit).1
    rw [← List.append_cancel_right (htext.trans hcut.symm)] at hsplit
    exact ⟨_, hsplit⟩
  case atEnd => exact hatEnd
  case unexpected => exact hunexpected
  case stalled => exact hstalled
  case unterminated => exact hunterminated
  case entered =>
    intro level hlevel
    rw [hlast.stack] at hlevel
    obtain ⟨frame, hframe, rfl⟩ := List.mem_map.1 hlevel
    refine (hreads.mem_frames hframe).imp_left fun hfirst => ?_
    rw [List.mem_singleton.1 hfirst]
    rfl

/-- With an engine whose matches end on characters, the lexer of every grammar that has been built goes
through any text from any position. Its states refer to each other by the numbers that they were
given. -/
theorem course_of_build {engine : RegexEngine} (hengine : engine.EndsOnCharacters)
    {table : List (LexState κ MatcherText String)} (h : Grammar.build engine table = .ok g)
    (source : List Char) (p : Position) :
    Grammar.buildStates engine table = .ok g.numbered ∧
      ∃ last, Course p (.start g.numbered source p) (Lexer.start g source p).run.1
        (Lexer.start g source p).run.2 last := by
  refine ⟨?_, course_start (Grammar.readsCharacters_of_build hengine h) source p⟩
  rw [Grammar.buildStates_eq, h]
  rfl

/-- A text in the middle of a file. Its last letter takes two bytes, and no state reads it. -/
theorem course_words :
    letterEngine.EndsOnCharacters ∧ Grammar.build letterEngine wordTable = .ok words ∧
      Grammar.buildStates letterEngine wordTable = .ok words.numbered ∧
      ∃ last, Course { line := 3, column := 5 }
        (.start words.numbered ['a', 'b', '(', 'é'] { line := 3, column := 5 })
        (Lexer.start words ['a', 'b', '(', 'é'] { line := 3, column := 5 }).run.1
        (Lexer.start words ['a', 'b', '(', 'é'] { line := 3, column := 5 }).run.2 last :=
  ⟨letterEngine_endsOnCharacters, build_words,
    course_of_build letterEngine_endsOnCharacters build_words ['a', 'b', '(', 'é'] _⟩

end LexerFeed
end SqlDoc

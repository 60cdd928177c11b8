/-
# Asking for tokens gives the tokens of the script

What a feed gives is what is ahead of it: first the tokens of the script, then the error if there is
one, and then nothing (`SqlFeed.pullAt_eq`). Asking once takes the first thing that is ahead
(`SqlFeed.pull_of_ahead`). For that no comment may be left open at the end without an error, which
the states of the lexer rule out (`Sql.closes_run`).

Key definitions: `SqlFeed.Ahead`, `Sql.Closes`.
Key theorems: `SqlFeed.pullRaw_of_ahead`, `SqlFeed.pull_of_ahead`, `SqlFeed.pullAt_eq`.
-/
import SqlDoc.Proofs.Sql.CookedStep
import SqlDoc.Sql.Feed

namespace SqlDoc

/-- Tokens, and after them the error if there is one. -/
def itemsOf (tokens : List SqlToken) (error : Option LexError) :
    List (Except LexError SqlToken) :=
  tokens.map .ok ++ error.toList.map .error

namespace SqlFeed

/-! ### Raw tokens -/

/-- The lexer of the feed is going to give these. -/
def Left (f : SqlFeed) (items : List (Except LexError SqlToken)) : Prop :=
  if f.finished then items = [] else itemsOf f.lexer.run.1 f.lexer.run.2 = items

/-- The feed is going to read these, first what has been put back. -/
def Ahead (f : SqlFeed) (items : List (Except LexError SqlToken)) : Prop :=
  match f.putBack with
  | none => f.Left items
  | some pulled => pulled = items.head? ∧ f.Left items.tail

variable {f : SqlFeed} {items : List (Except LexError SqlToken)}

theorem left_finished (h : f.finished = true) : f.Left [] := by
  rw [Left, if_pos h]

theorem left_running (h : ¬ f.finished = true) :
    f.Left (itemsOf f.lexer.run.1 f.lexer.run.2) := by
  rw [Left, if_neg h]

/-- Reading takes the first thing that is ahead, and nothing is put back then. -/
theorem pullRaw_of_ahead (h : f.Ahead items) :
    f.pullRaw.1 = items.head? ∧ f.pullRaw.2.Left items.tail ∧ f.pullRaw.2.putBack = none := by
  unfold Ahead at h
  unfold pullRaw
  split at h
  next hback =>
    rw [hback]
    unfold Left at h
    by_cases hfinished : f.finished = true
    · rw [if_pos hfinished] at h
      subst h
      rw [if_pos hfinished]
      exact ⟨rfl, left_finished hfinished, hback⟩
    · rw [if_neg hfinished] at h
      subst h
      rw [if_neg hfinished]
      cases hstep : f.lexer.step with
      | token t next =>
        rw [Lexer.run_of_token hstep]
        exact ⟨rfl, left_running hfinished, rfl⟩
      | failed e =>
        rw [Lexer.run_of_failed hstep]
        exact ⟨rfl, left_finished rfl, rfl⟩
      | finished =>
        rw [Lexer.run_of_finished hstep]
        exact ⟨rfl, left_finished rfl, rfl⟩
  next pulled hback =>
    rw [hback]
    exact ⟨h.1, h.2, rfl⟩

/-- What has been read is ahead again when it is put back. -/
theorem ahead_putBack (h : f.Left items.tail) :
    ({ f with putBack := some items.head? } : SqlFeed).Ahead items :=
  ⟨rfl, h⟩

theorem ahead_of_left (h : f.Left items) (hback : f.putBack = none) : f.Ahead items := by
  unfold Ahead
  rw [hback]
  exact h

/-! ### Comments -/

theorem pullLine_piece {next : SqlFeed} {t : SqlToken} (h : f.pullRaw = (some (.ok t), next))
    (ht : t.kind = .commentText) : f.pullLine = (t :: next.pullLine.1, next.pullLine.2) := by
  rw [pullLine]
  split
  · rename_i t' next' h'
    cases h.symm.trans h'
    rw [if_pos ht]
  · rename_i hother h'
    cases h.symm.trans h'
    exact (hother _ rfl).elim

theorem pullLine_other {next : SqlFeed} {pulled : Pulled} (h : f.pullRaw = (pulled, next))
    (hpulled : ∀ t, pulled = some (.ok t) → t.kind ≠ .commentText) :
    f.pullLine = ([], { next with putBack := some pulled }) := by
  rw [pullLine]
  split
  · rename_i t next' h'
    cases h.symm.trans h'
    rw [if_neg (hpulled t rfl)]
  · rename_i h'
    cases h.symm.trans h'
    rfl

variable {raw : List SqlToken} {error : Option LexError}

/-- Of a line comment the pieces are read, and what comes after them is ahead then. -/
theorem pullLine_of_ahead (h : f.Ahead (itemsOf raw error)) :
    f.pullLine.1 = raw.takeWhile (·.kind = .commentText) ∧
      f.pullLine.2.Ahead (itemsOf (raw.drop f.pullLine.1.length) error) := by
  induction raw generalizing f with
  | nil =>
    obtain ⟨hhead, hleft, -⟩ := pullRaw_of_ahead h
    have hline := pullLine_other (Prod.eta f.pullRaw).symm fun t ht => by
      rw [hhead] at ht
      cases error <;> cases ht
    rw [hline, hhead]
    exact ⟨rfl, ahead_putBack hleft⟩
  | cons t raw ih =>
    obtain ⟨hhead, hleft, hback⟩ := pullRaw_of_ahead h
    have hraw : f.pullRaw = (some (.ok t), f.pullRaw.2) := Prod.ext hhead rfl
    by_cases ht : t.kind = .commentText
    · obtain ⟨hpieces, hafter⟩ := ih (ahead_of_left hleft hback)
      rw [pullLine_piece hraw ht, List.takeWhile_cons, if_pos (decide_eq_true ht), ← hpieces]
      exact ⟨rfl, hafter⟩
    · have hline := pullLine_other hraw fun t' ht' => by
        cases ht'
        exact ht
      rw [hline, List.takeWhile_cons, if_neg (by simpa using ht)]
      exact ⟨rfl, ahead_putBack hleft⟩

theorem pullBlock_error {next : SqlFeed} {e : LexError} (h : f.pullRaw = (some (.error e), next)) :
    f.pullBlock = (.error e, next) := by
  rw [pullBlock]
  split
  · rename_i h'
    cases h.symm.trans h'
  · rename_i h'
    cases h.symm.trans h'
    rfl
  · rename_i h'
    cases h.symm.trans h'

theorem pullBlock_token {next : SqlFeed} {t : SqlToken} (h : f.pullRaw = (some (.ok t), next)) :
    f.pullBlock =
      if t.kind = .blockClose then (.ok ([t], true), next)
      else
        (next.pullBlock.1.map fun (pieces, closed) => (t :: pieces, closed), next.pullBlock.2) := by
  rw [pullBlock]
  split
  · rename_i h'
    cases h.symm.trans h'
  · rename_i h'
    cases h.symm.trans h'
  · rename_i h'
    cases h.symm.trans h'
    rfl

/-- Of a block comment the pieces up to its end are read; without an end, the error. -/
theorem pullBlock_of_ahead (h : f.Ahead (itemsOf raw error)) :
    (∀ pieces rest, throughClose raw = some (pieces, rest) →
      f.pullBlock.1 = .ok (pieces, true) ∧ f.pullBlock.2.Ahead (itemsOf rest error)) ∧
    (∀ e, throughClose raw = none → error = some e →
      f.pullBlock.1 = .error e ∧ f.pullBlock.2.Ahead []) := by
  induction raw generalizing f with
  | nil =>
    obtain ⟨hhead, hleft, hback⟩ := pullRaw_of_ahead h
    constructor
    · intro pieces rest hclose
      cases hclose
    · intro e _ herror
      subst herror
      have hraw : f.pullRaw = (some (.error e), f.pullRaw.2) := Prod.ext hhead rfl
      rw [pullBlock_error hraw]
      exact ⟨rfl, ahead_of_left hleft hback⟩
  | cons t raw ih =>
    obtain ⟨hhead, hleft, hback⟩ := pullRaw_of_ahead h
    have hraw : f.pullRaw = (some (.ok t), f.pullRaw.2) := Prod.ext hhead rfl
    have hnext : f.pullRaw.2.Ahead (itemsOf raw error) := ahead_of_left hleft hback
    rw [pullBlock_token hraw, throughClose]
    by_cases ht : t.kind = .blockClose
    · rw [if_pos ht, if_pos ht]
      constructor
      · intro pieces rest hclose
        cases hclose
        exact ⟨rfl, hnext⟩
      · intro e hclose
        cases hclose
    · rw [if_neg ht, if_neg ht]
      obtain ⟨hclosed, hopen⟩ := ih hnext
      constructor
      · intro pieces rest hclose
        obtain ⟨⟨pieces, rest⟩, hmore, heq⟩ := Option.map_eq_some_iff.1 hclose
        cases heq
        obtain ⟨hresult, hafter⟩ := hclosed pieces rest hmore
        rw [hresult]
        exact ⟨rfl, hafter⟩
      · intro e hclose herror
        obtain ⟨hresult, hafter⟩ := hopen e (Option.map_eq_none_iff.1 hclose) herror
        rw [hresult]
        exact ⟨rfl, hafter⟩

end SqlFeed

namespace Sql

/-! ### Comments that are not closed -/

/-- Where a block comment is not closed, the raw tokens end in an error. -/
def Closes (raw : List SqlToken) (error : Option LexError) : Prop :=
  ∀ (before : List SqlToken) (first : SqlToken) (rest : List SqlToken),
    raw = before ++ first :: rest → first.kind = .blockOpen → throughClose rest = none →
      error.isSome = true

theorem Closes.drop {raw : List SqlToken} {error : Option LexError} (h : Closes raw error)
    (n : Nat) : Closes (raw.drop n) error := by
  intro before first rest hraw
  refine h (raw.take n ++ before) first rest ?_
  rw [List.append_assoc, ← hraw, List.take_append_drop]

/-- The lexer is outside comments or in one. -/
def Somewhere (lx : Lexer sqlGrammar) : Prop :=
  Outside lx ∨ InLine lx ∨ ∃ opened, InBlock opened lx

theorem Outside.somewhere_next {lx next : Lexer sqlGrammar} {t : SqlToken} (h : Outside lx)
    (hstep : lx.step = .token t next) :
    Somewhere next ∧ (t.kind = .blockOpen → InBlock lx.position next) := by
  have hrest : lx.rest ≠ [] := by
    intro hrest
    cases (h.finished hrest).symm.trans hstep
  obtain ⟨t', next', hstep', hread⟩ := h.step hrest
  cases hstep'.symm.trans hstep
  rcases hread with ⟨hpiece, -, hnext⟩ | ⟨hkind, hnext⟩ | ⟨-, -, hnext⟩
  · refine ⟨Or.inl hnext, fun hkind => ?_⟩
    rw [hkind] at hpiece
    cases hpiece
  · refine ⟨Or.inr (Or.inl hnext), fun hopen => ?_⟩
    cases hkind.symm.trans hopen
  · exact ⟨Or.inr (Or.inr ⟨_, hnext⟩), fun _ => hnext⟩

/-- Reading a token leads from state to state, and what opens a block comment leads into one. -/
theorem Somewhere.next {lx next : Lexer sqlGrammar} {t : SqlToken} (h : Somewhere lx)
    (hstep : lx.step = .token t next) :
    Somewhere next ∧ (t.kind = .blockOpen → ∃ opened, InBlock opened next) := by
  rcases h with hout | hline | ⟨opened, hblock⟩
  · obtain ⟨hnext, hopen⟩ := hout.somewhere_next hstep
    exact ⟨hnext, fun hkind => ⟨_, hopen hkind⟩⟩
  · cases hrest : lx.rest with
    | nil => cases (hline.finished hrest).symm.trans hstep
    | cons found rest =>
      cases hfound : Text.isLineEnd found with
      | true =>
        rw [hline.step_lineEnd hrest hfound] at hstep
        obtain ⟨hnext, hopen⟩ := hline.pop.somewhere_next hstep
        exact ⟨hnext, fun hkind => ⟨_, hopen hkind⟩⟩
      | false =>
        obtain ⟨t', next', hstep', htext, hnext, -⟩ := hline.step hrest hfound
        cases hstep'.symm.trans hstep
        refine ⟨Or.inr (Or.inl hnext), fun hkind => ?_⟩
        cases htext.symm.trans hkind
  · by_cases hrest : lx.rest = []
    · cases (hblock.failed hrest).symm.trans hstep
    · obtain ⟨t', next', hstep', ⟨hclose, -, hnext⟩ | ⟨htext, hnext, -⟩⟩ := hblock.step hrest
      · cases hstep'.symm.trans hstep
        refine ⟨Or.inl hnext, fun hkind => ?_⟩
        cases hclose.symm.trans hkind
      · cases hstep'.symm.trans hstep
        refine ⟨Or.inr (Or.inr ⟨_, hnext⟩), fun hkind => ?_⟩
        cases htext.symm.trans hkind

theorem Somewhere.reads {lx next : Lexer sqlGrammar} {tokens : List SqlToken} (h : Somewhere lx)
    (hreads : lx.Reads tokens next) : Somewhere next := by
  induction hreads with
  | nil => exact h
  | cons hstep _ ih => exact ih (h.next hstep).1

/-- The raw tokens of a script leave no block comment open without an error. -/
theorem closes_run {lx : Lexer sqlGrammar} (h : Outside lx) : Closes lx.run.1 lx.run.2 := by
  intro before first rest hraw hkind hclose
  obtain ⟨cut, hreads, hcut, herror⟩ := Lexer.Reads.of_run hraw
  obtain ⟨next, hstep, hnext, herror'⟩ := Lexer.step_of_run_cons hcut
  obtain ⟨opened, hblock⟩ := ((Somewhere.reads (Or.inl h) hreads).next hstep).2 hkind
  rcases hblock.run with ⟨pieces, close, last, hpieces, hno, hend, -⟩ | ⟨hfailed, -⟩
  · rw [← hnext, hpieces.run, List.append_assoc, List.singleton_append,
      throughClose_of_close _ hno hend] at hclose
    cases hclose
  · rw [← herror, ← herror', hfailed]
    rfl

end Sql

namespace SqlFeed

/-! ### Tokens -/

open Sql (Closes cook_lineOpen cook_blockOpen cook_other)

variable {f : SqlFeed} {raw : List SqlToken} {error : Option LexError}

theorem pull_lineOpen {next : SqlFeed} {t : SqlToken} (h : f.pullRaw = (some (.ok t), next))
    (ht : t.kind = .lineOpen) :
    f.pull = (some (.ok (joinLine t next.pullLine.1)), next.pullLine.2) := by
  rw [pull, h]
  dsimp only
  rw [ht]

theorem pull_blockOpen {next last : SqlFeed} {t : SqlToken} {pieces : List SqlToken}
    (h : f.pullRaw = (some (.ok t), next)) (ht : t.kind = .blockOpen)
    (hblock : next.pullBlock = (.ok (pieces, true), last)) :
    f.pull = (some (.ok (joinBlock t pieces)), last) := by
  rw [pull, h]
  dsimp only
  rw [ht, hblock]
  rfl

theorem pull_blockOpen_error {next last : SqlFeed} {t : SqlToken} {e : LexError}
    (h : f.pullRaw = (some (.ok t), next)) (ht : t.kind = .blockOpen)
    (hblock : next.pullBlock = (.error e, last)) : f.pull = (some (.error e), last) := by
  rw [pull, h]
  dsimp only
  rw [ht, hblock]

theorem pull_other {next : SqlFeed} {t : SqlToken} (h : f.pullRaw = (some (.ok t), next))
    (hline : t.kind ≠ .lineOpen) (hblock : t.kind ≠ .blockOpen) :
    f.pull = (some (.ok (cookOne t)), next) := by
  rw [pull, h]
  dsimp only
  split
  · contradiction
  · contradiction
  · rfl

/-- Asking takes the first token that is ahead, or the error. -/
theorem pull_of_ahead (h : f.Ahead (itemsOf raw error)) (hcloses : Closes raw error) :
    ∃ raw' error', f.pull.1 = (itemsOf (cook raw) error).head? ∧
      f.pull.2.Ahead (itemsOf raw' error') ∧ Closes raw' error' ∧
      itemsOf (cook raw') error' = (itemsOf (cook raw) error).tail := by
  obtain ⟨hhead, hleft, hback⟩ := pullRaw_of_ahead h
  have hnext := ahead_of_left hleft hback
  have hnone : Closes [] none := by
    intro before first rest hraw
    cases (List.append_eq_nil_iff.1 hraw.symm).2
  cases raw with
  | nil =>
    cases error with
    | none =>
      have hraw : f.pullRaw = (none, f.pullRaw.2) := Prod.ext hhead rfl
      rw [pull, hraw, cook]
      exact ⟨[], none, rfl, hnext, hnone, by rw [cook]; rfl⟩
    | some e =>
      have hraw : f.pullRaw = (some (.error e), f.pullRaw.2) := Prod.ext hhead rfl
      rw [pull, hraw, cook]
      exact ⟨[], none, rfl, hnext, hnone, by rw [cook]; rfl⟩
  | cons t raw =>
    have hraw : f.pullRaw = (some (.ok t), f.pullRaw.2) := Prod.ext hhead rfl
    have hnext : f.pullRaw.2.Ahead (itemsOf raw error) := hnext
    by_cases hline : t.kind = .lineOpen
    · obtain ⟨hpieces, hafter⟩ := pullLine_of_ahead hnext
      rw [pull_lineOpen hraw hline, cook_lineOpen hline, ← hpieces]
      exact ⟨_, error, rfl, hafter, hcloses.drop (f.pullRaw.2.pullLine.1.length + 1), rfl⟩
    · by_cases hblock : t.kind = .blockOpen
      · obtain ⟨hclosed, hopen⟩ := pullBlock_of_ahead hnext
        rw [cook_blockOpen hblock]
        cases hclose : throughClose raw with
        | some pair =>
          obtain ⟨pieces, rest⟩ := pair
          obtain ⟨hresult, hafter⟩ := hclosed pieces rest hclose
          rw [pull_blockOpen hraw hblock (Prod.ext hresult rfl)]
          have hrest := hcloses.drop (t :: pieces).length
          rw [throughClose_append hclose, ← List.cons_append, List.drop_left] at hrest
          exact ⟨rest, error, rfl, hafter, hrest, rfl⟩
        | none =>
          obtain ⟨e, rfl⟩ := Option.isSome_iff_exists.1 (hcloses [] t raw rfl hblock hclose)
          obtain ⟨hresult, hafter⟩ := hopen e hclose rfl
          rw [pull_blockOpen_error hraw hblock (Prod.ext hresult rfl)]
          exact ⟨[], none, rfl, hafter, hnone, by rw [cook]; rfl⟩
      · rw [pull_other hraw hline hblock, cook_other hline hblock]
        exact ⟨raw, error, rfl, hnext, hcloses.drop 1, rfl⟩

/-- Asking again and again gives the tokens, then the error if there is one, and then nothing. -/
theorem pullAt_of_ahead (h : f.Ahead (itemsOf raw error)) (hcloses : Closes raw error) (n : Nat) :
    f.pullAt n = (itemsOf (cook raw) error)[n]? := by
  induction n generalizing f raw error with
  | zero =>
    obtain ⟨-, -, hpull, -⟩ := pull_of_ahead h hcloses
    rw [pullAt, hpull, List.head?_eq_getElem?]
  | succ n ih =>
    obtain ⟨raw', error', -, hafter, hcloses', htail⟩ := pull_of_ahead h hcloses
    rw [pullAt, ih hafter hcloses', htail, List.getElem?_tail]

/-- Asked for one after the other, the tokens of a script are those that it is split into. -/
theorem pullAt_eq (source : String) (filename : Option String) (n : Nat) :
    (ofSource source filename).pullAt n =
      (itemsOf (lexSql source filename).tokens (lexSql source filename).error)[n]? :=
  pullAt_of_ahead (f := ofSource source filename)
    (ahead_of_left (left_running Bool.false_ne_true) rfl) (Sql.closes_run (Sql.outside_start _ _)) n

end SqlFeed
end SqlDoc

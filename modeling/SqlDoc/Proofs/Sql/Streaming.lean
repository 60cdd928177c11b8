/-
# A stream shows the groups of its tokens

Tokens can be grouped in one way only (`isTokenGrouping_iff`). Whatever a stream has been asked before,
what it answers is read off these groups and the number of groups that it has handed out: looking
shows those that are left, by index, and taking hands out the first (`TokenStream.Shows.answer`).
The error that ends the tokens is given once, when all groups before it are in the window or have
been taken. So a stream that is filled on demand cannot be told from a list (`run_shows`).

Key definitions: `IsTokenGrouping`, `StreamRequest`, `TokenStream.run`, `TokenStream.Shows`.
Key theorems: `isTokenGrouping_iff`, `buffered_peek_le`, `Holds.takeError`, `Shows.answer`, `run_shows`.
-/
import SqlDoc.Proofs.Sql.Grouping

namespace SqlDoc

/-! ### The grouping of tokens -/

/-- The groups hold the tokens in order. Each is a run of trivia with a significant token after it,
and the last may be trivia alone. -/
structure IsTokenGrouping (tokens : List SqlToken) (groups : List SqlGroup) : Prop where
  tokens_eq : groups.flatMap (·.tokens) = tokens
  leading : ∀ g ∈ groups, ∀ t ∈ g.leading, t.isSignificant = false
  key : ∀ g ∈ groups, ∀ t ∈ g.key?, t.isSignificant = true
  last : ∀ before g after, groups = before ++ g :: after → g.key? = none → after = []

theorem isTokenGrouping_groupsOf (tokens : List SqlToken) : IsTokenGrouping tokens (groupsOf tokens) where
  tokens_eq := tokens_groupsOf tokens
  leading g hg := (groupsAfter_leading (fun _ ht => absurd ht List.not_mem_nil) g hg).1
  key g hg := (groupsAfter_leading (fun _ ht => absurd ht List.not_mem_nil) g hg).2
  last _ _ _ h hg := after_of_trailing h hg

/-- Trivia in front of tokens become the first trivia of the first group. -/
theorem groupsAfter_of_trivia {trivia : List SqlToken}
    (h : ∀ t ∈ trivia, t.isSignificant = false) (leading tokens : List SqlToken) :
    groupsAfter leading (trivia ++ tokens) = groupsAfter (leading ++ trivia) tokens := by
  induction trivia generalizing leading with
  | nil => rw [List.nil_append, List.append_nil]
  | cons t trivia ih =>
    obtain ⟨ht, htrivia⟩ := List.forall_mem_cons.1 h
    rw [List.cons_append, groupsAfter, if_neg (by rw [ht]; exact Bool.false_ne_true), ih htrivia,
      List.append_assoc]
    rfl

/-- Tokens can be grouped in one way only. -/
theorem isTokenGrouping_iff {tokens : List SqlToken} {groups : List SqlGroup} :
    IsTokenGrouping tokens groups ↔ groups = groupsOf tokens := by
  refine ⟨fun h => ?_, fun h => h ▸ isTokenGrouping_groupsOf tokens⟩
  induction groups generalizing tokens with
  | nil => rw [← h.tokens_eq]; rfl
  | cons g groups ih =>
    have hleading := h.leading g List.mem_cons_self
    have hrest : IsTokenGrouping (groups.flatMap (·.tokens)) groups :=
      { tokens_eq := rfl
        leading := fun u hu => h.leading u (List.mem_cons_of_mem g hu)
        key := fun u hu => h.key u (List.mem_cons_of_mem g hu)
        last := fun before u after hsplit =>
          h.last (g :: before) u after (congrArg (g :: ·) hsplit) }
    rw [← h.tokens_eq, List.flatMap_cons, groupsOf]
    cases g with
    | keyed leading key =>
      have htrivia : ∀ t ∈ leading, t.isSignificant = false := hleading
      rw [TokenGroup.tokens_keyed, List.append_assoc, groupsAfter_of_trivia htrivia,
        List.singleton_append, groupsAfter, if_pos (h.key _ List.mem_cons_self key rfl),
        List.nil_append]
      exact congrArg _ (ih hrest)
    | trailing first rest =>
      have htrivia : ∀ t ∈ first :: rest, t.isSignificant = false := hleading
      obtain rfl : groups = [] := h.last [] _ groups rfl rfl
      rw [TokenGroup.tokens_trailing, List.flatMap_nil, groupsAfter_of_trivia htrivia]
      rfl

/-! ### Requests -/

/-- What a stream may be asked for. -/
inductive StreamRequest where
  /-- The group `n` ahead. -/
  | peek (n : Nat)
  /-- The significant token `n` groups ahead. -/
  | peekKey (n : Nat)
  /-- Whether no significant token is left. -/
  | atEnd
  /-- The next group, to be taken. -/
  | next
  /-- The error that ends the tokens. -/
  | takeError
  deriving DecidableEq, Repr

/-- What a stream answers. -/
inductive StreamAnswer where
  | seen (g : Option SqlGroup)
  | key (t : Option SqlToken)
  | ended (b : Bool)
  | taken (g : Option SqlGroup)
  | error (e : Option LexError)
  deriving DecidableEq, Repr

namespace StreamAnswer

/-- The group that is handed out. -/
def taken? : StreamAnswer → Option SqlGroup
  | taken g => g
  | _ => none

/-- The error that is given. -/
def error? : StreamAnswer → Option LexError
  | error e => e
  | _ => none

end StreamAnswer

namespace TokenStream

/-- Answers one request. -/
def answer (s : TokenStream) : StreamRequest → StreamAnswer × TokenStream
  | .peek n => Prod.map .seen id (s.peek n)
  | .peekKey n => Prod.map .key id (s.peekKey n)
  | .atEnd => Prod.map .ended id s.atEnd
  | .next => Prod.map .taken id s.next
  | .takeError => Prod.map .error id s.takeError

/-- Answers requests one after the other. -/
def run (s : TokenStream) : List StreamRequest → List StreamAnswer × TokenStream
  | [] => ([], s)
  | r :: requests =>
    let (first, s) := s.answer r
    let (more, s) := s.run requests
    (first :: more, s)

/-! ### The window -/

theorem length_window_fill_le (n : Nat) (s : TokenStream) :
    (s.fill n).window.length ≤ max (n + 1) s.window.length := by
  have short {s : TokenStream} (h : ¬(s.exhausted || decide (n < s.window.length)) = true) :
      s.window.length ≤ n := by
    simp only [Bool.or_eq_true, decide_eq_true_eq, not_or, Nat.not_lt] at h
    exact h.2
  fun_induction fill n s with
  | case1 => exact Nat.le_max_right ..
  | case2 s _ _ => exact (List.append_nil s.window).symm ▸ Nat.le_max_right ..
  | case3 s h _ _ _ leading key rest _ ih =>
    have hone : (s.window ++ [TokenGroup.keyed leading key]).length ≤ n + 1 := by
      rw [List.length_append]
      exact Nat.succ_le_succ (short h)
    exact Nat.le_trans ih
      (Nat.max_le.2 ⟨Nat.le_max_left .., Nat.le_trans hone (Nat.le_max_left ..)⟩)
  | case4 s h _ _ _ group =>
    have hone : (s.window ++ [group]).length ≤ n + 1 := by
      rw [List.length_append]
      exact Nat.succ_le_succ (short h)
    exact Nat.le_trans hone (Nat.le_max_left ..)
  | case5 s _ => exact (List.append_nil s.window).symm ▸ Nat.le_max_right ..

/-- Looking ahead fills the window no further than it has to. -/
theorem buffered_peek_le (n : Nat) (s : TokenStream) :
    (s.peek n).2.buffered ≤ max (n + 1) s.buffered :=
  length_window_fill_le n s

namespace Holds

variable {s : TokenStream} {groups : List SqlGroup} {error : Option LexError}

/-- The error is given when the tokens are exhausted, and is gone then. -/
theorem takeError (h : s.Holds groups error) :
    s.takeError.1 = (if s.exhausted then error else none) ∧
      s.takeError.2.Holds groups (if s.exhausted then none else error) := by
  cases he : s.exhausted with
  | true =>
    obtain ⟨hunread, herror⟩ := h.notices.ended he
    rw [if_pos rfl, if_pos rfl]
    exact ⟨herror, h.allGroups, ⟨fun _ => ⟨hunread, rfl⟩,
      fun hgoing => absurd (he.symm.trans hgoing) Bool.noConfusion⟩⟩
  | false =>
    obtain ⟨hpending, herror, hkeyed⟩ := h.notices.going he
    rw [if_neg Bool.false_ne_true, if_neg Bool.false_ne_true]
    exact ⟨herror, h.allGroups, ⟨fun hended => absurd (he.symm.trans hended) Bool.noConfusion,
      fun _ => ⟨hpending, rfl, hkeyed⟩⟩⟩

/-- Where there is no group the end of the tokens has been noticed. -/
theorem exhausted_of_peek (h : s.Holds groups error) {n : Nat} (hn : groups.length ≤ n) :
    (s.peek n).2.exhausted = true := by
  refine (fill_window n s).resolve_right fun hlt => ?_
  have hgroups := (h.fill n).allGroups
  rw [TokenStream.allGroups] at hgroups
  have hle : (s.fill n).window.length ≤ groups.length := by
    rw [← hgroups, List.length_append]
    exact Nat.le_add_right ..
  omega

/-- No significant token is left where the next group has none, for only the last has none. -/
theorem atEnd_iff (h : s.Holds groups error)
    (hlast : ∀ before g after, groups = before ++ g :: after → g.key? = none → after = []) :
    s.atEnd.1 = true ↔ ∀ g ∈ groups, g.isTriviaOnly = true := by
  have hkey : s.atEnd.1 = (groups[0]?.bind (·.key?)).isNone := congrArg Option.isNone (h.peekKey 0).1
  rw [hkey]
  cases groups with
  | nil => simp
  | cons g groups =>
    simp only [List.getElem?_cons_zero, Option.bind_some]
    refine ⟨fun hg => ?_, fun hall => hall g List.mem_cons_self⟩
    obtain rfl : groups = [] := hlast [] g groups rfl (Option.isNone_iff_eq_none.1 hg)
    exact fun u hu => List.mem_singleton.1 hu ▸ hg

end Holds

/-! ### Runs -/

/-- The stream shows what is left of the groups of `lexed` after the answers: those that have not
been handed out, and the error unless it has been given. -/
structure Shows (lexed : Lexed) (answers : List StreamAnswer) (s : TokenStream) : Prop where
  taken : answers.filterMap (·.taken?) =
    (groupsOf lexed.tokens).take (answers.filterMap (·.taken?)).length
  errors : answers.filterMap (·.error?) = [] ∨
    answers.filterMap (·.error?) = lexed.error.toList ∧ s.exhausted = true
  holds : s.Holds ((groupsOf lexed.tokens).drop (answers.filterMap (·.taken?)).length)
    (if answers.filterMap (·.error?) = [] then lexed.error else none)

variable {lexed : Lexed} {answers : List StreamAnswer} {s : TokenStream}

theorem shows_ofLexed (lexed : Lexed) : (ofLexed lexed).Shows lexed [] where
  taken := rfl
  errors := .inl rfl
  holds := holds_ofLexed lexed

theorem exhausted_fill {s : TokenStream} (h : s.exhausted = true) (n : Nat) :
    (s.fill n).exhausted = true := by
  rw [fill, h, Bool.true_or, if_pos rfl]
  exact h

/-- Looking at what is ahead changes nothing that is shown. -/
theorem Shows.look (h : s.Shows lexed answers) (n : Nat) {a : StreamAnswer}
    (htaken : a.taken? = none) (herror : a.error? = none) :
    (s.fill n).Shows lexed (answers ++ [a]) := by
  have hgiven : (answers ++ [a]).filterMap (·.taken?) = answers.filterMap (·.taken?) := by
    simp [htaken]
  have herrors : (answers ++ [a]).filterMap (·.error?) = answers.filterMap (·.error?) := by
    simp [herror]
  refine ⟨?_, ?_, ?_⟩
  · rw [hgiven]
    exact h.taken
  · rw [herrors]
    exact h.errors.imp id fun ⟨hgiven, he⟩ => ⟨hgiven, exhausted_fill he n⟩
  · rw [hgiven, herrors]
    exact h.holds.fill n

/-- Taking hands out the first group that is left. -/
theorem Shows.next (h : s.Shows lexed answers) :
    s.next.2.Shows lexed (answers ++ [.taken s.next.1]) := by
  obtain ⟨hhead, hrest⟩ := h.holds.next
  have herrors : (answers ++ [StreamAnswer.taken s.next.1]).filterMap (·.error?) =
      answers.filterMap (·.error?) := by
    simp [StreamAnswer.error?]
  have hexhausted (he : s.exhausted = true) : s.next.2.exhausted = true := by
    have hfill := exhausted_fill he 0
    unfold TokenStream.next
    dsimp only
    split <;> exact hfill
  let given := answers.filterMap (·.taken?)
  have hgiven : (answers ++ [StreamAnswer.taken s.next.1]).filterMap (·.taken?) =
      given ++ ((groupsOf lexed.tokens)[given.length]?).toList := by
    rw [List.filterMap_append, hhead, List.head?_drop]
    cases (groupsOf lexed.tokens)[given.length]? <;> rfl
  refine ⟨?_, ?_, ?_⟩
  · rw [hgiven]
    cases hnext : (groupsOf lexed.tokens)[given.length]? with
    | none =>
      rw [Option.toList_none, List.append_nil]
      exact h.taken
    | some g =>
      rw [Option.toList_some, List.length_append, List.length_singleton, List.take_add_one, hnext,
        ← h.taken]
      rfl
  · rw [herrors]
    exact h.errors.imp id fun ⟨hgiven, he⟩ => ⟨hgiven, hexhausted he⟩
  · rw [hgiven, herrors]
    rw [List.tail_drop] at hrest
    cases hnext : (groupsOf lexed.tokens)[given.length]? with
    | some g =>
      rw [Option.toList_some, List.length_append, List.length_singleton]
      exact hrest
    | none =>
      have hend : (groupsOf lexed.tokens).length ≤ given.length := List.getElem?_eq_none_iff.1 hnext
      rw [Option.toList_none, List.append_nil, List.drop_eq_nil_of_le hend]
      rwa [List.drop_eq_nil_of_le (Nat.le_succ_of_le hend)] at hrest

/-- The error that ends the tokens is given if it has not been, and if their end has been
noticed. -/
theorem Shows.takeError (h : s.Shows lexed answers) :
    s.takeError.2.Shows lexed (answers ++ [StreamAnswer.error s.takeError.1]) := by
  obtain ⟨hgives, hleaves⟩ := h.holds.takeError
  have hgiven : (answers ++ [StreamAnswer.error s.takeError.1]).filterMap (·.taken?) =
      answers.filterMap (·.taken?) := by
    simp [StreamAnswer.taken?]
  have herrors (e : Option LexError) : (answers ++ [StreamAnswer.error e]).filterMap (·.error?) =
      answers.filterMap (·.error?) ++ e.toList := by
    rw [List.filterMap_append]
    cases e <;> rfl
  have hexhausted : s.takeError.2.exhausted = s.exhausted := rfl
  cases he : s.exhausted with
  | false =>
    rw [he, if_neg Bool.false_ne_true] at hgives hleaves
    refine ⟨?_, ?_, ?_⟩
    · rw [hgiven]
      exact h.taken
    · rw [hgives, herrors, Option.toList_none, List.append_nil, hexhausted]
      exact h.errors
    · rw [hgiven, hgives, herrors, Option.toList_none, List.append_nil]
      exact hleaves
  | true =>
    rw [he, if_pos rfl] at hgives hleaves
    have hall : (answers ++ [StreamAnswer.error s.takeError.1]).filterMap (·.error?) =
        lexed.error.toList := by
      rw [herrors, hgives]
      rcases h.errors with hnone | ⟨hsome, -⟩
      · rw [hnone, if_pos rfl, List.nil_append]
      · rw [hsome]
        cases lexed.error <;> rfl
    refine ⟨?_, .inr ⟨hall, hexhausted.trans he⟩, ?_⟩
    · rw [hgiven]
      exact h.taken
    · rw [hgiven, hall]
      cases herror : lexed.error <;> exact hleaves

/-- Every answer is read off what is left, and leaves what it says. -/
theorem Shows.answer (h : s.Shows lexed answers) (r : StreamRequest) :
    (s.answer r).2.Shows lexed (answers ++ [(s.answer r).1]) := by
  cases r with
  | peek n => exact h.look n rfl rfl
  | peekKey n => exact h.look n rfl rfl
  | atEnd => exact h.look 0 rfl rfl
  | next => exact h.next
  | takeError => exact h.takeError

theorem Shows.run (h : s.Shows lexed answers) (requests : List StreamRequest) :
    (s.run requests).2.Shows lexed (answers ++ (s.run requests).1) := by
  induction requests generalizing s answers with
  | nil =>
    rw [TokenStream.run, List.append_nil]
    exact h
  | cons r requests ih =>
    have hmore := ih (h.answer r)
    rwa [List.append_assoc] at hmore

/-- Whatever a stream has been asked, it stands for the one list of groups that its tokens make. The
groups that it has handed out are the first of them; looking shows the others by index, the next of
them is handed out, and no significant token is left if none of them has one. Looking fills the
window no further than to the group that is looked at. The error that ends the tokens is given at
most once, when all groups that are left are in the window, and it is given if it has not been and
a look has gone past the last group. -/
theorem run_shows (lexed : Lexed) (asked : List StreamRequest) :
    let groups := groupsOf lexed.tokens
    let answers := ((ofLexed lexed).run asked).1
    let s := ((ofLexed lexed).run asked).2
    let handedOut := answers.filterMap (·.taken?)
    let c := handedOut.length
    let given := answers.filterMap (·.error?)
    (∀ others, IsTokenGrouping lexed.tokens others ↔ others = groups) ∧
      handedOut = groups.take c ∧
      (∀ n, (s.peek n).1 = groups[c + n]?) ∧
      (∀ n, (s.peekKey n).1 = groups[c + n]?.bind (·.key?)) ∧
      (s.atEnd.1 = true ↔ ∀ g ∈ groups.drop c, g.isTriviaOnly = true) ∧
      s.next.1 = groups[c]? ∧
      (∀ n, (s.peek n).2.buffered ≤ max (n + 1) s.buffered) ∧
      given.length ≤ 1 ∧
      (∀ e, s.takeError.1 = some e → lexed.error = some e ∧ given = [] ∧ s.window = groups.drop c) ∧
      ∀ n, groups.length ≤ c + n → given = [] → (s.peek n).2.takeError.1 = lexed.error := by
  intro groups answers s handedOut c given
  have hshows : s.Shows lexed answers := (shows_ofLexed lexed).run asked
  have hholds : s.Holds (groups.drop c) (if given = [] then lexed.error else none) := hshows.holds
  have hlast : ∀ before g after, groups.drop c = before ++ g :: after → g.key? = none →
      after = [] := by
    intro before g after hsplit
    refine (isTokenGrouping_groupsOf lexed.tokens).last (groups.take c ++ before) g after ?_
    rw [List.append_assoc, ← hsplit, List.take_append_drop]
  refine ⟨fun _ => isTokenGrouping_iff, hshows.taken, fun n => ?_, fun n => ?_, hholds.atEnd_iff hlast,
    ?_, fun n => buffered_peek_le n s, ?_, fun e he => ?_, fun n hn hnone => ?_⟩
  · rw [(hholds.peek n).1, List.getElem?_drop]
  · rw [(hholds.peekKey n).1, List.getElem?_drop]
  · rw [hholds.next.1, List.head?_drop]
  · have hgiven : given = [] ∨ given = lexed.error.toList := hshows.errors.imp id (·.1)
    rcases hgiven with hnone | hall
    · rw [hnone]
      exact Nat.zero_le 1
    · rw [hall]
      cases lexed.error
      · exact Nat.zero_le 1
      · exact Nat.le_refl 1
  · rw [hholds.takeError.1] at he
    cases hexhausted : s.exhausted with
    | false => rw [hexhausted] at he; cases he
    | true =>
      rw [hexhausted, if_pos rfl] at he
      by_cases hnone : given = []
      · rw [if_pos hnone] at he
        exact ⟨he, hnone, hholds.window_of_exhausted hexhausted⟩
      · rw [if_neg hnone] at he
        cases he
  · have hlength : (groups.drop c).length ≤ n := by
      rw [List.length_drop]
      omega
    have hpast := hholds.exhausted_of_peek hlength
    rw [((hholds.peek n).2.takeError).1, hpast, if_pos rfl, if_pos hnone]

end TokenStream
end SqlDoc

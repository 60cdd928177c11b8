/-
# Groups and streams of groups

Grouping tokens loses none of them. The trivia of a group carry no weight, its significant token
does, and only the last group may be without one. A stream shows these groups in order, whatever has
been looked at before: what `peek` and `next` give is read off the groups that are left
(`TokenStream.Holds`).

Key definitions: `TokenStream.Notices`, `TokenStream.Holds`.
Key theorems: `groupsAfter_leading`, `after_of_trailing`, `TokenStream.Holds.peek`,
`TokenStream.Holds.next`, `TokenStream.Holds.error_of_peekKey`.
-/
import SqlDoc.Sql.Stream

namespace SqlDoc

/-! ### Groups -/

/-- A token of a script that is not significant is trivia. -/
theorem isTrivia_of_not_isSignificant {t : SqlToken} (h : t.isSignificant = false) :
    t.isTrivia = true := by
  unfold Token.isSignificant at h
  unfold Token.isTrivia
  unfold Token.trivia TokenKind.trivia at *
  revert h
  cases t.kind <;> decide

/-- The groups hold every token, in order. -/
theorem tokens_groupsOf (tokens : List SqlToken) :
    (groupsOf tokens).flatMap (·.tokens) = tokens :=
  tokens_groupsAfter [] tokens

/-- The trivia of a group are not significant, and its significant token is. -/
theorem groupsAfter_leading {leading tokens : List SqlToken}
    (hleading : ∀ t ∈ leading, t.isSignificant = false) :
    ∀ g ∈ groupsAfter leading tokens,
      (∀ t ∈ g.leading, t.isSignificant = false) ∧ ∀ t ∈ g.key?, t.isSignificant = true := by
  fun_induction groupsAfter leading tokens with
  | case1 =>
    intro g hg
    cases hg
  | case2 first rest =>
    intro g hg
    rw [List.mem_singleton.1 hg]
    refine ⟨hleading, fun t ht => ?_⟩
    cases ht
  | case3 leading t tokens ht ih =>
    intro g hg
    rcases List.mem_cons.1 hg with rfl | hg
    · refine ⟨hleading, fun u hu => ?_⟩
      rw [← Option.some.inj hu]
      exact ht
    · refine ih (fun u hu => ?_) g hg
      cases hu
  | case4 leading t tokens ht ih =>
    refine ih fun u hu => ?_
    rcases List.mem_append.1 hu with hu | hu
    · exact hleading u hu
    · rw [List.mem_singleton.1 hu]
      simpa using ht

/-- After a group without a significant token there is none. -/
theorem after_of_trailing {leading tokens : List SqlToken} {before after : List SqlGroup}
    {g : SqlGroup} (h : groupsAfter leading tokens = before ++ g :: after)
    (hg : g.key? = none) : after = [] := by
  fun_induction groupsAfter leading tokens generalizing before with
  | case1 => simp at h
  | case2 first rest =>
    cases before with
    | nil =>
      rw [List.nil_append] at h
      exact (List.cons.inj h).2.symm
    | cons => simp at h
  | case3 leading t tokens _ ih =>
    cases before with
    | nil =>
      rw [List.nil_append] at h
      rw [← (List.cons.inj h).1] at hg
      cases hg
    | cons => exact ih (List.cons.inj h).2
  | case4 leading t tokens _ ih => exact ih h

/-- There are as many groups with a significant token as significant tokens. -/
theorem countP_groupsAfter (leading tokens : List SqlToken) :
    (groupsAfter leading tokens).countP (·.key?.isSome) = tokens.countP (·.isSignificant) := by
  fun_induction groupsAfter leading tokens with
  | case1 => rfl
  | case2 first rest => rfl
  | case3 leading t tokens ht ih =>
    rw [List.countP_cons_of_pos rfl, List.countP_cons_of_pos ht]
    exact congrArg _ ih
  | case4 leading t tokens ht ih => rw [ih, List.countP_cons_of_neg ht]

namespace TokenStream

/-- The error after the tokens is noticed when they are exhausted and no earlier, and until then
every group that is shown has a significant token. -/
structure Notices (s : TokenStream) (error : Option LexError) : Prop where
  ended : s.exhausted = true → s.unread = [] ∧ s.error = error
  going : s.exhausted = false →
    s.pending = error ∧ s.error = none ∧ ∀ g ∈ s.window, g.key?.isSome = true

theorem Notices.finish {s : TokenStream} {error : Option LexError} (h : s.Notices error)
    (hgoing : s.exhausted = false) (last : List SqlGroup) : (s.finish last).Notices error where
  ended _ := ⟨rfl, (h.going hgoing).1⟩
  going he := nomatch he

theorem Notices.fill {s : TokenStream} {error : Option LexError} (h : s.Notices error) (n : Nat) :
    (s.fill n).Notices error := by
  have going {s : TokenStream} (hc : ¬(s.exhausted || decide (n < s.window.length)) = true) :
      s.exhausted = false := by
    cases he : s.exhausted <;> simp_all
  fun_induction TokenStream.fill n s with
  | case1 => exact h
  | case2 s hc => exact h.finish (going hc) []
  | case3 s hc _ _ _ leading key rest hr ih =>
    obtain ⟨hpending, herror, hkeyed⟩ := h.going (going hc)
    refine ih ⟨fun he => absurd he (by simp [going hc]), fun _ => ⟨hpending, herror, ?_⟩⟩
    intro g hg
    rcases List.mem_append.1 hg with hg | hg
    · exact hkeyed g hg
    · rw [List.mem_singleton.1 hg]
      rfl
  | case4 s hc _ _ _ group => exact h.finish (going hc) [group]
  | case5 s hc => exact h.finish (going hc) []

/-- A filled window has the group that was asked for, or all that are left. -/
theorem fill_window (n : Nat) (s : TokenStream) :
    (s.fill n).exhausted = true ∨ n < (s.fill n).window.length := by
  fun_induction fill n s with
  | case1 s h => simpa using h
  | case2 => exact Or.inl rfl
  | case3 s _ _ _ _ _ _ _ _ ih => exact ih
  | case4 => exact Or.inl rfl
  | case5 => exact Or.inl rfl

/-- The stream still holds the groups, and the error after them. -/
structure Holds (s : TokenStream) (groups : List SqlGroup) (error : Option LexError) : Prop where
  allGroups : s.allGroups = groups
  notices : s.Notices error

theorem holds_ofLexed (lexed : Lexed) :
    (ofLexed lexed).Holds (groupsOf lexed.tokens) lexed.error where
  allGroups := rfl
  notices := by
    refine ⟨fun he => ?_, fun _ => ⟨rfl, rfl, fun g hg => ?_⟩⟩
    · cases he
    · cases hg

namespace Holds

variable {s : TokenStream} {groups : List SqlGroup} {error : Option LexError}

/-- Filling the window changes nothing that the stream holds. -/
theorem fill (h : s.Holds groups error) (n : Nat) : (s.fill n).Holds groups error where
  allGroups := (allGroups_fill n s fun he => (h.notices.ended he).1).1.trans h.allGroups
  notices := h.notices.fill n

/-- When the tokens are exhausted the window has all groups that are left. -/
theorem window_of_exhausted (h : s.Holds groups error) (he : s.exhausted = true) :
    s.window = groups := by
  have hgroups := h.allGroups
  rw [TokenStream.allGroups, (h.notices.ended he).1] at hgroups
  rw [← hgroups]
  exact (List.append_nil _).symm

/-- Looking ahead shows the groups that are left. -/
theorem peek (h : s.Holds groups error) (n : Nat) :
    (s.peek n).1 = groups[n]? ∧ (s.peek n).2.Holds groups error := by
  refine ⟨?_, h.fill n⟩
  show (s.fill n).window[n]? = groups[n]?
  rcases fill_window n s with he | hlt
  · rw [(h.fill n).window_of_exhausted he]
  · rw [← (h.fill n).allGroups, TokenStream.allGroups, List.getElem?_append_left hlt]

theorem peekKey (h : s.Holds groups error) (n : Nat) :
    (s.peekKey n).1 = groups[n]?.bind (·.key?) ∧ (s.peekKey n).2.Holds groups error := by
  obtain ⟨hgroup, hs⟩ := h.peek n
  exact ⟨congrArg (fun g? : Option SqlGroup => g?.bind (·.key?)) hgroup, hs⟩

/-- Taking a group gives the first that is left, and leaves the others. -/
theorem next (h : s.Holds groups error) :
    s.next.1 = groups.head? ∧ s.next.2.Holds groups.tail error := by
  have hfill := h.fill 0
  unfold TokenStream.next
  cases hw : (s.fill 0).window with
  | nil =>
    have he : (s.fill 0).exhausted = true := by
      rcases fill_window 0 s with he | hlt
      · exact he
      · rw [hw] at hlt
        exact absurd hlt (Nat.lt_irrefl _)
    have hnil : groups = [] := (hfill.window_of_exhausted he).symm.trans hw
    simp only [hw]
    rw [hnil] at hfill ⊢
    exact ⟨rfl, hfill⟩
  | cons g window =>
    have hgroups : g :: (window ++ groupsOf (s.fill 0).unread) = groups := by
      rw [← hfill.allGroups, TokenStream.allGroups, hw]
      rfl
    simp only [hw]
    rw [← hgroups]
    refine ⟨rfl, rfl, hfill.notices.ended, fun he => ?_⟩
    obtain ⟨hpending, herror, hkeyed⟩ := hfill.notices.going he
    rw [hw] at hkeyed
    exact ⟨hpending, herror, fun u hu => hkeyed u (List.mem_cons_of_mem g hu)⟩

/-- What is left has as many significant tokens as groups with one. -/
theorem remaining (h : s.Holds groups error) :
    s.remaining = groups.countP (·.key?.isSome) := by
  rw [← h.allGroups, TokenStream.allGroups, List.countP_append, TokenStream.remaining, groupsOf,
    countP_groupsAfter]

/-- Where no significant token is next, the end of the tokens has been noticed. -/
theorem exhausted_of_peekKey (h : s.Holds groups error) (hkey : (s.peekKey 0).1 = none) :
    (s.peekKey 0).2.exhausted = true := by
  show (s.fill 0).exhausted = true
  rcases fill_window 0 s with he | hlt
  · exact he
  · obtain ⟨g, window, hw⟩ := List.exists_cons_of_length_pos hlt
    have hnone : ((s.fill 0).window[0]?).bind (·.key?) = none := hkey
    rw [hw, List.getElem?_cons_zero, Option.bind_some] at hnone
    cases he : (s.fill 0).exhausted with
    | true => rfl
    | false =>
      have hsome := ((h.fill 0).notices.going he).2.2 g (by
        rw [hw]
        exact List.mem_cons_self)
      rw [hnone] at hsome
      cases hsome

/-- So has the error after them. -/
theorem error_of_peekKey (h : s.Holds groups error) (hkey : (s.peekKey 0).1 = none) :
    (s.peekKey 0).2.error = error :=
  ((h.fill 0).notices.ended (h.exhausted_of_peekKey hkey)).2

end Holds
end TokenStream
end SqlDoc

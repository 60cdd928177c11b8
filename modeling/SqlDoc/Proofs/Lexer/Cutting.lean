/-
# Tokens of a text that is cut

Of two texts that begin alike a matcher reads the same token, if the token ends in front of the place
where the texts part (`Matcher.Agrees`). That is so if the second text ends there or goes on with a
character that the matcher does not read, or does not read behind others.

Key definition: `Matcher.Agrees`.
Key theorems: `Matcher.agrees_of_cuts`, `Matcher.agrees_literal`, `Matcher.Agrees.map_seen`.
-/
import SqlDoc.Proofs.Lexer.Passage
import SqlDoc.Proofs.Pattern.Cutting

namespace SqlDoc

variable {mark : Char} {c s s' : List Char}

namespace Matcher

open Pattern (Cuts)

/-- Of two texts that begin with `c` the matcher reads the same token in both, if it ends no later
than `c` in the first, and none in the second if it reads none in the first. -/
structure Agrees (m : Matcher) (c s s' : List Char) : Prop where
  misses : m.tokenEnd? (c ++ s) = none → m.tokenEnd? (c ++ s') = none
  finds : ∀ stop, m.tokenEnd? (c ++ s) = some stop → stop.seen ≤ c.length →
    ∃ stop', m.tokenEnd? (c ++ s') = some stop' ∧ stop'.seen = stop.seen

theorem agrees_of_cuts {p : Pattern}
    (h : @Cuts (c ++ s) (c ++ s') s s' (fun cur => p.run cur some) fun cur => p.run cur some) :
    (Matcher.pattern p).Agrees c s s' where
  misses hnone := by
    have hstart : (Cursor.start (c ++ s)).Beside s s' (.start (c ++ s')) := ⟨rfl, c, rfl, rfl⟩
    cases hfind : p.matchAt? (.start (c ++ s)) with
    | none =>
      have hmiss : p.matchAt? (.start (c ++ s')) = none := h.misses hstart hfind
      rw [tokenEnd?, hmiss]
      rfl
    | some stop =>
      have hempty : stop.seen = 0 := by
        rw [tokenEnd?, hfind] at hnone
        simpa using hnone
      have hlength : s.length ≤ stop.rest.length := by
        have := stop.rest_length
        rw [List.length_append] at this
        omega
      obtain ⟨stop', hstop', hseen, -⟩ := h.finds hstart hfind hlength
      have hstop' : p.matchAt? (.start (c ++ s')) = some stop' := hstop'
      rw [tokenEnd?, hstop']
      simp [← hseen, hempty]
  finds stop hstop hle := by
    have hstart : (Cursor.start (c ++ s)).Beside s s' (.start (c ++ s')) := ⟨rfl, c, rfl, rfl⟩
    have hlength : s.length ≤ stop.rest.length := by
      have := stop.rest_length
      rw [List.length_append] at this
      omega
    obtain ⟨stop', hstop', hseen, -⟩ := h.finds hstart (matchAt?_of_pattern hstop) hlength
    refine ⟨stop', Option.filter_eq_some_iff.2 ⟨hstop', ?_⟩, hseen.symm⟩
    rw [← hseen]
    exact (Option.filter_eq_some_iff.1 hstop).2

theorem seen_of_literal {chars text : List Char} {stop : Cursor text}
    (h : (Matcher.literal chars).tokenEnd? text = some stop) : stop.seen = chars.length := by
  have := congrArg List.length (take_of_literal h)
  rw [List.length_take, Nat.min_eq_left stop.seen_le] at this
  exact this

/-- A word with which the second text begins ends no later than where the texts part, if the mark is
not in it, or at its beginning only. -/
theorem prefix_of_prefix_append {word : List Char} (hc : c ≠ []) (hmark : mark ∉ word.tail)
    (hpart : ∀ d ∈ s'.head?, d = mark) (h : word <+: c ++ s') : word <+: c := by
  rcases List.prefix_or_prefix_of_prefix h (List.prefix_append c s') with hword | ⟨more, rfl⟩
  · exact hword
  · cases more with
    | nil => simp
    | cons d more =>
      obtain ⟨rest, hrest⟩ := (List.prefix_append_right_inj c).1 h
      have hd : d = mark := hpart d (by rw [← hrest]; rfl)
      rw [List.tail_append_of_ne_nil hc, hd] at hmark
      exact absurd (List.mem_append_right c.tail List.mem_cons_self) hmark

theorem agrees_literal {chars : List Char} (hc : c ≠ []) (hmark : mark ∉ chars.tail)
    (hpart : ∀ d ∈ s'.head?, d = mark) : (Matcher.literal chars).Agrees c s s' where
  misses hnone := by
    by_cases hchars : chars = []
    · subst hchars
      rfl
    · refine tokenEnd?_of_not_prefix fun hbegins => ?_
      have hprefix := (prefix_of_prefix_append hc hmark hpart hbegins).trans (List.prefix_append c s)
      obtain ⟨stop, hstop⟩ := tokenEnd?_of_prefix hchars hprefix
      rw [hnone] at hstop
      cases hstop
  finds stop hstop hle := by
    have htake := take_of_literal hstop
    have hne : chars ≠ [] := htake ▸ take_seen_ne_nil hstop
    have hstarts : chars <+: c := by
      rw [← htake, List.take_append_of_le_length hle]
      exact List.take_prefix _ _
    obtain ⟨stop', hstop'⟩ := tokenEnd?_of_prefix hne (hstarts.trans (List.prefix_append c s'))
    exact ⟨stop', hstop', (seen_of_literal hstop').trans (seen_of_literal hstop).symm⟩

/-- If the token ends in time wherever there is one, its length is the same in both texts. -/
theorem Agrees.map_seen {m : Matcher} (h : m.Agrees c s s')
    (hle : ∀ stop, m.tokenEnd? (c ++ s) = some stop → stop.seen ≤ c.length) :
    (m.tokenEnd? (c ++ s')).map (·.seen) = (m.tokenEnd? (c ++ s)).map (·.seen) := by
  cases hstop : m.tokenEnd? (c ++ s) with
  | none => rw [h.misses hstop]; rfl
  | some stop =>
    obtain ⟨stop', hstop', hseen⟩ := h.finds stop hstop (hle stop hstop)
    rw [hstop', Option.map_some, Option.map_some, hseen]

end Matcher
end SqlDoc

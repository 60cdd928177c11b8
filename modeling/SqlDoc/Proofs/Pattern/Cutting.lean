/-
# Searches in a text that is cut

Two texts begin alike. Where they part, the second has ended or goes on with a certain character,
the mark. A search that does not read the mark does not get past that place in the second text. So
it finds there what it finds in the first text, if that ends no later, and nothing where it finds
nothing in the first (`Pattern.Cuts.run`). A search that may read the mark has the same property if
it is one for the first place after which some text is left, and that text is found in both
(`Pattern.Cuts.of_rest`).

Key definitions: `Cursor.Beside`, `Pattern.Cuts`.
Key theorems: `Pattern.Cuts.again`, `Pattern.Cuts.run`, `Pattern.Cuts.of_rest`.
-/
import SqlDoc.Proofs.Pattern.Language

namespace SqlDoc

variable {mark : Char} {text text' s s' : List Char}

/-- The cursors are at the same place, and the texts go on alike up to where `s` and `s'` are
left. -/
def Cursor.Beside (s s' : List Char) (cur : Cursor text) (cur' : Cursor text') : Prop :=
  cur.seen = cur'.seen ∧ ∃ more, cur.rest = more ++ s ∧ cur'.rest = more ++ s'

namespace Cursor

variable {cur : Cursor text} {cur' : Cursor text'} {chars : CharSet}

theorem next?_eq_none (hc : ∀ c ∈ cur.rest.head?, chars.mem c = false) :
    cur.next? chars = none := by
  cases h : cur.next? chars with
  | none => rfl
  | some next =>
    obtain ⟨c, hmem, hrest⟩ := rest_of_next? h
    rw [hc c (by rw [hrest]; rfl)] at hmem
    cases hmem

/-- A step over a character that is in the set. -/
theorem next?_cons (chars : CharSet) {c : Char} {rest : List Char} (hrest : cur.rest = c :: rest)
    (hc : chars.mem c = true) :
    ∃ next, cur.next? chars = some next ∧ next.rest = rest ∧ next.seen = cur.seen + 1 := by
  obtain ⟨next, hnext⟩ := next?_isSome hrest hc
  obtain ⟨_, -, hread⟩ := rest_of_next? hnext
  exact ⟨next, hnext, (List.cons.inj (hread.symm.trans hrest)).2, seen_of_next? hnext⟩

theorem next?_cons_of_not {c : Char} {rest : List Char} (hrest : cur.rest = c :: rest)
    (hc : chars.mem c = false) : cur.next? chars = none := by
  refine next?_eq_none fun d hd => ?_
  rw [hrest] at hd
  exact Option.some.inj hd ▸ hc

theorem next?_nil (chars : CharSet) (hrest : cur.rest = []) : cur.next? chars = none := by
  refine next?_eq_none fun d hd => ?_
  rw [hrest] at hd
  cases hd

/-- A step over a character that is not the mark is made in both texts, or not in the second, and
then neither in the first, unless the texts part here. -/
theorem Beside.next? (hmark : chars.mem mark = false) (hpart : ∀ c ∈ s'.head?, c = mark)
    (h : cur.Beside s s' cur') :
    (∃ next next', cur.next? chars = some next ∧ cur'.next? chars = some next' ∧
      next.Beside s s' next') ∨
    cur'.next? chars = none ∧ (cur.next? chars = none ∨ cur.rest = s) := by
  obtain ⟨hseen, more, hrest, hrest'⟩ := h
  cases more with
  | nil =>
    refine Or.inr ⟨next?_eq_none fun c hc => ?_, Or.inr hrest⟩
    rw [hrest'] at hc
    rw [hpart c hc, hmark]
  | cons c more =>
    cases hc : chars.mem c with
    | false =>
      exact Or.inr ⟨next?_cons_of_not hrest' hc, Or.inl (next?_cons_of_not hrest hc)⟩
    | true =>
      obtain ⟨next, hnext, hmore, hnextseen⟩ := next?_cons chars hrest hc
      obtain ⟨next', hnext', hmore', hnextseen'⟩ := next?_cons chars hrest' hc
      refine Or.inl ⟨next, next', hnext, hnext', ?_, more, hmore, hmore'⟩
      rw [hnextseen, hnextseen', hseen]

end Cursor

namespace Pattern

/-- Where `find` finds nothing, neither does `find'`, and what `find` finds, no later than where the
texts part, `find'` finds, too. -/
structure Cuts (s s' : List Char) (find : Cursor text → Option (Cursor text))
    (find' : Cursor text' → Option (Cursor text')) : Prop where
  forward : ∀ {cur stop : Cursor text}, find cur = some stop → cur.seen ≤ stop.seen
  misses : ∀ {cur : Cursor text} {cur' : Cursor text'}, cur.Beside s s' cur' → find cur = none →
    find' cur' = none
  finds : ∀ {cur stop : Cursor text} {cur' : Cursor text'}, cur.Beside s s' cur' →
    find cur = some stop → s.length ≤ stop.rest.length →
      ∃ stop', find' cur' = some stop' ∧ stop.Beside s s' stop'

namespace Cuts

variable {find other : Cursor text → Option (Cursor text)}
  {find' other' : Cursor text' → Option (Cursor text')}

theorem stop : @Cuts text text' s s' some some where
  forward h := Option.some.inj h ▸ Nat.le_refl _
  misses _ h := nomatch h
  finds h heq _ := ⟨_, rfl, Option.some.inj heq ▸ h⟩

theorem fail : @Cuts text text' s s' (fun _ => none) fun _ => none where
  forward h := nomatch h
  misses _ _ := rfl
  finds _ h := nomatch h

theorem orElse (hfind : Cuts s s' find find') (hother : Cuts s s' other other') :
    Cuts s s' (fun cur => Pattern.orElse (find cur) fun _ => other cur)
      fun cur => Pattern.orElse (find' cur) fun _ => other' cur where
  forward {cur stop} h := by
    cases hcur : find cur with
    | none =>
      rw [hcur] at h
      exact hother.forward h
    | some found =>
      rw [hcur] at h
      exact hfind.forward (hcur.trans h)
  misses {cur cur'} hbeside h := by
    cases hcur : find cur with
    | none =>
      rw [hcur] at h
      rw [hfind.misses hbeside hcur]
      exact hother.misses hbeside h
    | some found =>
      rw [hcur] at h
      cases h
  finds {cur stop cur'} hbeside h hstop := by
    cases hcur : find cur with
    | none =>
      rw [hcur] at h
      rw [hfind.misses hbeside hcur]
      exact hother.finds hbeside h hstop
    | some found =>
      rw [hcur] at h
      obtain ⟨stop', hstop', hnext⟩ := hfind.finds hbeside (hcur.trans h) hstop
      rw [hstop']
      exact ⟨stop', rfl, hnext⟩

/-- One character that is not the mark, and then another search. -/
theorem next {chars : CharSet} (hmark : chars.mem mark = false)
    (hpart : ∀ c ∈ s'.head?, c = mark) (h : Cuts s s' find find') :
    Cuts s s' (fun cur => (cur.next? chars).bind find) fun cur => (cur.next? chars).bind find' where
  forward {cur stop} hfind := by
    obtain ⟨mid, hmid, hstop⟩ := Option.bind_eq_some_iff.1 hfind
    have := h.forward hstop
    rw [Cursor.seen_of_next? hmid] at this
    omega
  misses {cur cur'} hbeside hfind := by
    rcases hbeside.next? hmark hpart with ⟨mid, mid', hmid, hmid', hnext⟩ | ⟨hnone, -⟩
    · rw [hmid, Option.bind_some] at hfind
      rw [hmid', Option.bind_some]
      exact h.misses hnext hfind
    · rw [hnone]
      rfl
  finds {cur stop cur'} hbeside hfind hstop := by
    rcases hbeside.next? hmark hpart with ⟨mid, mid', hmid, hmid', hnext⟩ | ⟨-, hnone | hrest⟩
    · rw [hmid, Option.bind_some] at hfind
      rw [hmid', Option.bind_some]
      exact h.finds hnext hfind hstop
    · rw [hnone] at hfind
      cases hfind
    · -- the step would have gone past the place where the texts part
      obtain ⟨mid, hmid, hfind⟩ := Option.bind_eq_some_iff.1 hfind
      have hle := h.forward hfind
      have hseen := Cursor.seen_of_next? hmid
      have hcur := cur.rest_length
      have hlast := stop.rest_length
      rw [hrest] at hcur
      omega

/-- A search may depend on the number of the place at which it begins. -/
theorem of_seen {find : Nat → Cursor text → Option (Cursor text)}
    {find' : Nat → Cursor text' → Option (Cursor text')} (h : ∀ n, Cuts s s' (find n) (find' n)) :
    Cuts s s' (fun cur => find cur.seen cur) fun cur => find' cur.seen cur where
  forward hfind := (h _).forward hfind
  misses hbeside hfind := by
    rw [← hbeside.1]
    exact (h _).misses hbeside hfind
  finds hbeside hfind hstop := by
    rw [← hbeside.1]
    exact (h _).finds hbeside hfind hstop

/-- After a turn that moved the cursor past the place `n` one search goes on, and after others
another. -/
theorem past {n : Nat} {find : Nat → Cursor text → Option (Cursor text)}
    {find' : Nat → Cursor text' → Option (Cursor text')}
    (h : ∀ m, n < m → m ≤ text.length → Cuts s s' (find m) (find' m))
    (hother : Cuts s s' other other') :
    Cuts s s' (fun cur => if n < cur.seen then find cur.seen cur else other cur)
      fun cur => if n < cur.seen then find' cur.seen cur else other' cur where
  forward {cur stop} hfind := by
    by_cases hn : n < cur.seen
    · rw [if_pos hn] at hfind
      exact (h _ hn cur.seen_le).forward hfind
    · rw [if_neg hn] at hfind
      exact hother.forward hfind
  misses {cur cur'} hbeside hfind := by
    rw [← hbeside.1]
    by_cases hn : n < cur.seen
    · rw [if_pos hn] at hfind ⊢
      exact (h _ hn cur.seen_le).misses hbeside hfind
    · rw [if_neg hn] at hfind ⊢
      exact hother.misses hbeside hfind
  finds {cur stop cur'} hbeside hfind hstop := by
    rw [← hbeside.1]
    by_cases hn : n < cur.seen
    · rw [if_pos hn] at hfind ⊢
      exact (h _ hn cur.seen_le).finds hbeside hfind hstop
    · rw [if_neg hn] at hfind ⊢
      exact hother.finds hbeside hfind hstop

/-- A repetition, if each turn of it keeps the property. -/
theorem again {step : Cursor text → (Cursor text → Option (Cursor text)) → Option (Cursor text)}
    {step' : Cursor text' → (Cursor text' → Option (Cursor text')) → Option (Cursor text')}
    (hstep : ∀ {k k'}, Cuts s s' k k' → Cuts s s' (fun cur => step cur k) fun cur => step' cur k')
    (greedy : Bool) (hfind : Cuts s s' find find') :
    Cuts s s' (Pattern.again step greedy find) (Pattern.again step' greedy find') := by
  let more (n : Nat) (cur : Cursor text) : Option (Cursor text) :=
    if n < cur.seen then Pattern.again step greedy find cur else none
  let more' (n : Nat) (cur : Cursor text') : Option (Cursor text') :=
    if n < cur.seen then Pattern.again step' greedy find' cur else none
  let round (n : Nat) (cur : Cursor text) : Option (Cursor text) :=
    if greedy then Pattern.orElse (step cur (more n)) fun _ => find cur
    else Pattern.orElse (find cur) fun _ => step cur (more n)
  let round' (n : Nat) (cur : Cursor text') : Option (Cursor text') :=
    if greedy then Pattern.orElse (step' cur (more' n)) fun _ => find' cur
    else Pattern.orElse (find' cur) fun _ => step' cur (more' n)
  have hround (n : Nat) (h : Cuts s s' (more n) (more' n)) : Cuts s s' (round n) (round' n) := by
    cases greedy with
    | true => exact (hstep h).orElse hfind
    | false => exact hfind.orElse (hstep h)
  have hagain : Pattern.again step greedy find = fun cur => round cur.seen cur := by
    funext cur
    rw [Pattern.again]
  have hagain' : Pattern.again step' greedy find' = fun cur => round' cur.seen cur := by
    funext cur
    rw [Pattern.again]
  have hpast (n : Nat) (h : ∀ m, n < m → m ≤ text.length → Cuts s s' (round m) (round' m)) :
      Cuts s s' (more n) (more' n) := by
    have hcuts := past h (@fail text text' s s')
    simp only [more, more', hagain, hagain']
    exact hcuts
  -- by induction on how much of the text is left after the place `n`
  have hmore (k n : Nat) (hk : text.length ≤ n + k) : Cuts s s' (more n) (more' n) := by
    induction k generalizing n with
    | zero => exact hpast n fun m hm hle => absurd hm (by omega)
    | succ k ih => exact hpast n fun m hm _ => hround m (ih m (by omega))
  rw [hagain, hagain']
  exact of_seen fun n => hround n (hmore text.length n (Nat.le_add_left _ _))

/-- A search that does not read the mark stops where the second text ends or has it. -/
theorem run {p : Pattern} (hp : p.mayContain mark = false) (hpart : ∀ c ∈ s'.head?, c = mark)
    (h : Cuts s s' find find') :
    Cuts s s' (fun cur => p.run cur find) fun cur => p.run cur find' := by
  induction p generalizing find find' with
  | empty => exact h
  | set chars => exact h.next hp hpart
  | seq p q ihp ihq =>
    obtain ⟨hp, hq⟩ := (Bool.or_eq_false_iff).1 hp
    exact ihp hp (ihq hq h)
  | alt p q ihp ihq =>
    obtain ⟨hp, hq⟩ := (Bool.or_eq_false_iff).1 hp
    exact (ihp hp h).orElse (ihq hq h)
  | plus greedy p ih =>
    have hagain : Cuts s s' (Pattern.again p.run greedy find) (Pattern.again p.run greedy find') :=
      again (ih hp) greedy h
    have hturn (n : Nat) : Cuts s s'
        (fun cur => p.run cur fun next =>
          if n < next.seen then Pattern.again p.run greedy find next else find next)
        fun cur => p.run cur fun next =>
          if n < next.seen then Pattern.again p.run greedy find' next else find' next :=
      ih hp (past (fun _ _ _ => hagain) h)
    exact of_seen hturn

/-- What a search leaves may depend on the text ahead alone. -/
theorem of_rest {after : List Char → Option (List Char)}
    (hfind : ∀ cur, (find cur).map (·.rest) = after cur.rest)
    (hfind' : ∀ cur, (find' cur).map (·.rest) = after cur.rest)
    (hsuffix : ∀ {ahead left}, after ahead = some left → left <:+ ahead)
    (hmisses : ∀ more, after (more ++ s) = none → after (more ++ s') = none)
    (hfinds : ∀ more left, after (more ++ s) = some (left ++ s) →
      after (more ++ s') = some (left ++ s')) :
    Cuts s s' find find' where
  forward {cur stop} h := by
    have hafter := hfind cur
    rw [h, Option.map_some] at hafter
    have hle := (hsuffix hafter.symm).length_le
    have hcur := cur.rest_length
    have hstop := stop.rest_length
    omega
  misses {cur cur'} hbeside h := by
    obtain ⟨-, more, hrest, hrest'⟩ := hbeside
    have hafter := hfind cur
    rw [h, Option.map_none, hrest] at hafter
    have hafter' := hfind' cur'
    rw [hrest', hmisses more hafter.symm] at hafter'
    exact Option.map_eq_none_iff.1 hafter'
  finds {cur stop cur'} hbeside h hstop := by
    obtain ⟨hseen, more, hrest, hrest'⟩ := hbeside
    have hafter := hfind cur
    rw [h, Option.map_some, hrest] at hafter
    obtain ⟨left, hleft⟩ : s <:+ stop.rest :=
      List.suffix_of_suffix_length_le (List.suffix_append more s) (hsuffix hafter.symm) hstop
    rw [← hleft] at hafter
    have hafter' := hfind' cur'
    rw [hrest', hfinds more left hafter.symm] at hafter'
    obtain ⟨stop', hstop', hleft'⟩ := Option.map_eq_some_iff.1 hafter'
    refine ⟨stop', hstop', ?_, left, hleft.symm, hleft'⟩
    have h1 := congrArg List.length hrest
    have h2 := congrArg List.length hrest'
    have h3 := congrArg List.length hleft
    have h4 := congrArg List.length hleft'
    have h5 := cur.rest_length
    have h6 := cur'.rest_length
    have h7 := stop.rest_length
    have h8 := stop'.rest_length
    simp only [List.length_append] at h1 h2 h3 h4
    omega

end Cuts
end Pattern
end SqlDoc

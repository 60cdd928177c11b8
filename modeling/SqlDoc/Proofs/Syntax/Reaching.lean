/-
# How far reading has come and has looked

A run takes groups and looks at groups that it has not taken. How many it has taken and how far it
has looked is its reach. What is asked of a rule at a reach is computed from the rule and the groups
of the file (`GrammarRule.Reaches`): if it ends with a result, the reach then has `Q`, and if it
gives up, the reach then has `E`. A run of the rule does so (`reaches_run`), and gives up over the
first group that it has not taken. The error that ends the tokens is noticed only when a look goes
past them (`ParseState.Reached`).

A loop may go on for as many turns as there are significant tokens, or more. It ends by its own
test, because each turn that goes on leaves less to do (`reaches_iterate`).

Key definitions: `Reach`, `GrammarRule.Reaches`, `GrammarRule.Peeks`, `ParseState.Reached`,
`SyntaxError.IsOver`.
Key theorems: `GrammarRule.reaches_bind`, `reaches_run`, `GrammarRule.reaches_iterate`.
-/
import SqlDoc.Proofs.Syntax.Heeding
import SqlDoc.Syntax.Statement

namespace SqlDoc

/-! ### Streams -/

/-- The end of the tokens is noticed by a look past the last significant token. -/
theorem TokenStream.fill_exhausted (n : Nat) (s : TokenStream) (h : (s.fill n).exhausted = true) :
    s.exhausted = true ∨ ∃ i ≤ n, keyAt (s.fill n).window i = none := by
  have short {s : TokenStream} (hc : ¬(s.exhausted || decide (n < s.window.length)) = true) :
      s.window.length ≤ n := by
    simp at hc
    omega
  have past {s : TokenStream} (hs : s.window.length ≤ n) :
      ∃ i ≤ n, keyAt (s.finish []).window i = none := by
    refine ⟨n, Nat.le_refl n, ?_⟩
    simp [finish, keyAt, hs]
  fun_induction TokenStream.fill n s with
  | case1 => exact Or.inl h
  | case2 s hc => exact Or.inr (past (short hc))
  | case3 s hc _ _ _ leading key rest hr ih => exact ih h
  | case4 s hc _ _ _ group rest hg hr =>
    refine Or.inr ⟨s.window.length, short hc, ?_⟩
    cases group with
    | keyed leading key => exact (hg leading key rfl).elim
    | trailing first more => simp [finish, keyAt, TokenGroup.key?]
  | case5 s hc => exact Or.inr (past (short hc))

/-! ### Reaches -/

/-- How many groups have been taken, and how many groups of the file have been looked at. -/
structure Reach where
  taken : Nat
  seen : Nat

namespace Reach

/-- After a look at the group `k` ahead. -/
def look (p : Reach) (k : Nat) : Reach :=
  { p with seen := max p.seen (p.taken + k + 1) }

/-- After the next group has been taken. -/
def take (groups : List SqlGroup) (p : Reach) : Reach where
  taken := placeAfter groups p.taken
  seen := max p.seen (p.taken + 1)

@[simp] theorem look_taken (p : Reach) (k : Nat) : (p.look k).taken = p.taken :=
  rfl

@[simp] theorem look_seen (p : Reach) (k : Nat) :
    (p.look k).seen = max p.seen (p.taken + k + 1) :=
  rfl

@[simp] theorem take_taken (groups : List SqlGroup) (p : Reach) :
    (p.take groups).taken = placeAfter groups p.taken :=
  rfl

@[simp] theorem take_seen (groups : List SqlGroup) (p : Reach) :
    (p.take groups).seen = max p.seen (p.taken + 1) :=
  rfl

/-- From `p` to `q` nothing has been taken, and only groups fewer than `reach` ahead have been looked
at. -/
structure Looked (reach : Nat) (p q : Reach) : Prop where
  taken : q.taken = p.taken
  le : p.seen ≤ q.seen
  seen : q.seen ≤ max p.seen (p.taken + reach)

theorem Looked.trans {reach : Nat} {p q w : Reach} (h1 : p.Looked reach q)
    (h2 : q.Looked reach w) : p.Looked reach w := by
  have hseen := h2.seen
  rw [h1.taken] at hseen
  exact ⟨h2.taken.trans h1.taken, Nat.le_trans h1.le h2.le,
    Nat.le_trans hseen (Nat.max_le.2 ⟨h1.seen, Nat.le_max_right ..⟩)⟩

theorem Looked.mono {reach more : Nat} {p q : Reach} (h : p.Looked reach q) (hle : reach ≤ more) :
    p.Looked more q :=
  ⟨h.taken, h.le, Nat.le_trans h.seen (by omega)⟩

theorem looked_look {reach k : Nat} (p : Reach) (hk : k < reach) : p.Looked reach (p.look k) :=
  ⟨rfl, Nat.le_max_left .., by simp only [look]; omega⟩

end Reach

/-- How many significant tokens there are from the group with index `n` on. -/
def keyedFrom (groups : List SqlGroup) (n : Nat) : Nat :=
  (groups.drop n).countP (·.key?.isSome)

theorem keyedFrom_succ_lt {groups : List SqlGroup} {n : Nat} (h : (glanceAt groups n).isSome) :
    keyedFrom groups (n + 1) < keyedFrom groups n := by
  obtain ⟨g, hg, hkey⟩ : ∃ g, groups[n]? = some g ∧ g.key?.isSome = true := by
    cases hg : groups[n]? with
    | none => simp [glanceAt, keyAt, hg] at h
    | some g => exact ⟨g, rfl, by simpa [glanceAt, keyAt, hg] using h⟩
  obtain ⟨hlt, rfl⟩ := List.getElem?_eq_some_iff.1 hg
  rw [keyedFrom, keyedFrom, List.drop_eq_getElem_cons hlt,
    List.countP_cons_of_pos (p := fun g : SqlGroup => g.key?.isSome) hkey]
  exact Nat.lt_succ_self _

/-! ### Rules -/

namespace GrammarRule

variable {α β σ : Type}

/-- Carried out where the reach is `p`, the rule ends with a result where the reach has `Q`, or
gives up where it has `E`. It does so whatever number it is told of significant tokens that are
left, if only that is large enough. -/
def Reaches (groups : List SqlGroup) (E : Reach → Prop) :
    {α : Type} → GrammarRule α → (α → Reach → Prop) → Reach → Prop
  | _, done a, Q, p => Q a p
  | _, missing _, _, p => E (p.look 0)
  | _, look k next, Q, p => (next (glanceAt groups (p.taken + k))).Reaches groups E Q (p.look k)
  | _, lineStart k next, Q, p =>
    (next (startsLineAt groups (p.taken + k))).Reaches groups E Q (p.look k)
  | _, remaining next, Q, p =>
    ∀ count, keyedFrom groups p.taken ≤ count → (next count).Reaches groups E Q p
  | _, bump next, Q, p => next.Reaches groups E Q (p.take groups)
  | _, node _ inside next, Q, p =>
    inside.Reaches groups E (fun b p => (next b).Reaches groups E Q p) p
  | _, setName _ next, Q, p => next.Reaches groups E Q p
  | _, setKind _ next, Q, p => next.Reaches groups E Q p
  | _, within _ inside next, Q, p =>
    inside.Reaches groups E (fun b p => (next b).Reaches groups E Q p) p

variable {groups : List SqlGroup} {E : Reach → Prop} {p : Reach}

theorem Reaches.mono {r : GrammarRule α} {P Q : α → Reach → Prop} (h : r.Reaches groups E P p)
    (hPQ : ∀ a p, P a p → Q a p) : r.Reaches groups E Q p := by
  induction r generalizing p with
  | done a => exact hPQ a p h
  | missing => exact h
  | look _ next ih => exact ih _ h hPQ
  | lineStart _ next ih => exact ih _ h hPQ
  | remaining next ih => exact fun count hcount => ih count (h count hcount) hPQ
  | bump next ih => exact ih h hPQ
  | node _ inside next ihinside ihnext => exact ihinside h fun b p hb => ihnext b hb hPQ
  | setName _ next ih => exact ih h hPQ
  | setKind _ next ih => exact ih h hPQ
  | within _ inside next ihinside ihnext => exact ihinside h fun b p hb => ihnext b hb hPQ

/-- One rule ends where the next begins. -/
theorem reaches_bind (r : GrammarRule α) (f : α → GrammarRule β) (Q : β → Reach → Prop)
    (p : Reach) : (r >>= f).Reaches groups E Q p ↔
      r.Reaches groups E (fun a p => (f a).Reaches groups E Q p) p := by
  show (r.bind f).Reaches groups E Q p ↔ _
  induction r generalizing p with
  | done a => rfl
  | missing => rfl
  | look _ next ih => exact ih ..
  | lineStart _ next ih => exact ih ..
  | remaining next ih => exact forall₂_congr fun count _ => ih count f p
  | bump next ih => exact ih ..
  | node _ inside next _ ih =>
    constructor
    · exact fun h => Reaches.mono (r := inside) h fun b p => (ih b f p).1
    · exact fun h => Reaches.mono (r := inside) h fun b p => (ih b f p).2
  | setName _ next ih => exact ih ..
  | setKind _ next ih => exact ih ..
  | within _ inside next _ ih =>
    constructor
    · exact fun h => Reaches.mono (r := inside) h fun b p => (ih b f p).1
    · exact fun h => Reaches.mono (r := inside) h fun b p => (ih b f p).2

/-- First a rule that ends where the reach has `P`, then one that may begin there. -/
theorem Reaches.bind {r : GrammarRule α} {f : α → GrammarRule β} {P : α → Reach → Prop}
    {Q : β → Reach → Prop} (hr : r.Reaches groups E P p)
    (hf : ∀ a p, P a p → (f a).Reaches groups E Q p) : (r >>= f).Reaches groups E Q p :=
  (reaches_bind ..).2 (hr.mono hf)

theorem Reaches.ite {c : Prop} [Decidable c] {r r' : GrammarRule α} {Q : α → Reach → Prop}
    (hr : c → r.Reaches groups E Q p) (hr' : ¬ c → r'.Reaches groups E Q p) :
    (if c then r else r').Reaches groups E Q p := by
  split
  · exact hr ‹_›
  · exact hr' ‹_›

/-! ### Rules that only look -/

/-- The rule only looks, at fewer than `reach` groups ahead, and gives `f n` at the place `n`. -/
def Peeks (groups : List SqlGroup) (reach : Nat) (r : GrammarRule α) (f : Nat → α) : Prop :=
  ∀ (E : Reach → Prop) (Q : α → Reach → Prop) (p : Reach),
    (∀ q, p.Looked reach q → Q (f p.taken) q) → r.Reaches groups E Q p

variable {reach : Nat}

theorem peeks_key {k : Nat} (hk : k < reach) :
    (key k).Peeks groups reach fun n => glanceAt groups (n + k) :=
  fun _ _ p h => h _ (p.looked_look hk)

theorem peeks_at {k : Nat} {test : Glance → Bool} (hk : k < reach) :
    (at? k test).Peeks groups reach fun n => (glanceAt groups (n + k)).any test :=
  fun _ _ p h => h _ (p.looked_look hk)

theorem peeks_isNone {k : Nat} (hk : k < reach) :
    (look k fun seen => done seen.isNone).Peeks groups reach fun n =>
      (glanceAt groups (n + k)).isNone :=
  fun _ _ p h => h _ (p.looked_look hk)

theorem peeks_atEnd (hreach : 0 < reach) :
    atEnd.Peeks groups reach fun n => (glanceAt groups n).isNone :=
  peeks_isNone hreach

theorem peeks_startsLine {k : Nat} (hk : k < reach) :
    (startsLine k).Peeks groups reach fun n => startsLineAt groups (n + k) :=
  fun _ _ p h => h _ (p.looked_look hk)

namespace Peeks

variable {test other : Nat → Bool} {f : Nat → α}

/-- What is done after a look depends on what has been seen. -/
theorem bind {r : GrammarRule α} (h : r.Peeks groups reach f) {g : α → GrammarRule β}
    {Q : β → Reach → Prop}
    (hg : ∀ q, p.Looked reach q → (g (f p.taken)).Reaches groups E Q q) :
    (r >>= g).Reaches groups E Q p :=
  (reaches_bind ..).2 (h _ _ p hg)

theorem and {r r' : GrammarRule Bool} (h : r.Peeks groups reach test)
    (h' : r'.Peeks groups reach other) :
    (r <&&> r').Peeks groups reach fun n => test n && other n := by
  intro E Q p hQ
  have hQ : ∀ q, p.Looked reach q → Q (test p.taken && other p.taken) q := hQ
  refine h.bind fun q hq => ?_
  cases htest : test p.taken with
  | false =>
    rw [htest] at hQ
    exact hQ q hq
  | true =>
    rw [htest, ← hq.taken] at hQ
    exact h' E Q q fun w hw => hQ w (hq.trans hw)

theorem or {r r' : GrammarRule Bool} (h : r.Peeks groups reach test)
    (h' : r'.Peeks groups reach other) :
    (r <||> r').Peeks groups reach fun n => test n || other n := by
  intro E Q p hQ
  have hQ : ∀ q, p.Looked reach q → Q (test p.taken || other p.taken) q := hQ
  refine h.bind fun q hq => ?_
  cases htest : test p.taken with
  | true =>
    rw [htest] at hQ
    exact hQ q hq
  | false =>
    rw [htest, ← hq.taken] at hQ
    exact h' E Q q fun w hw => hQ w (hq.trans hw)

theorem map {r : GrammarRule α} (h : r.Peeks groups reach f) (g : α → β) :
    (g <$> r).Peeks groups reach fun n => g (f n) := by
  intro E Q p hQ
  rw [map_eq_pure_bind]
  exact h.bind hQ

/-- Whether the test succeeds is known on both ways. -/
theorem ite {r : GrammarRule Bool} (h : r.Peeks groups reach test) {yes no : GrammarRule α}
    {Q : α → Reach → Prop}
    (hyes : test p.taken = true → ∀ q, p.Looked reach q → yes.Reaches groups E Q q)
    (hno : test p.taken = false → ∀ q, p.Looked reach q → no.Reaches groups E Q q) :
    (r >>= fun b => if b then yes else no).Reaches groups E Q p := by
  refine h.bind fun q hq => ?_
  cases htest : test p.taken with
  | true => exact hyes htest q hq
  | false => exact hno htest q hq

end Peeks

theorem peeks_atTerminator {k : Nat} (hk : k + 1 < reach) :
    (atTerminator k).Peeks groups reach fun n => isTerminatorAt groups (n + k) :=
  (peeks_at (by omega)).and ((peeks_startsLine (by omega)).and
    ((peeks_isNone hk).or (peeks_startsLine hk)))

theorem peeks_atCreate {k : Nat} (hk : k < reach) : (atCreate k).Peeks groups reach fun n =>
    (glanceAt groups (n + k)).any (fun t => t.kind.isWord && ["CREATE"].contains t.value) &&
      startsLineAt groups (n + k) :=
  (peeks_at hk).and (peeks_startsLine hk)

theorem reaches_take {Q : Unit → Reach → Prop} (h : Q () (p.take groups)) :
    take.Reaches groups E Q p :=
  h

theorem reaches_takeIf {test : GrammarRule Bool} {passes : Nat → Bool}
    (htest : test.Peeks groups reach passes) {Q : Bool → Reach → Prop}
    (hyes : passes p.taken = true → ∀ q, p.Looked reach q → Q true (q.take groups))
    (hno : passes p.taken = false → ∀ q, p.Looked reach q → Q false q) :
    (takeIf test).Reaches groups E Q p :=
  htest.ite hyes hno

theorem reaches_node {kind : NodeKind} {inside : GrammarRule α} {Q : α → Reach → Prop}
    (h : inside.Reaches groups E Q p) : (node kind inside .done).Reaches groups E Q p :=
  h

/-! ### Loops -/

/-- What a turn of a loop with invariant `I` ends with: either it stops, with `Q`, or it keeps the
invariant and leaves less to do. -/
def Turned (I Q : σ → Reach → Prop) (μ : σ → Reach → Nat) (bound : Nat) (state : σ) :
    Option σ → Reach → Prop
  | none, p => Q state p
  | some next, p => I next p ∧ μ next p < bound

/-- With as many turns as there is to do, and one more, a loop ends by its own test. -/
theorem reaches_iterateUpTo {step : σ → GrammarRule (Option σ)} {I Q : σ → Reach → Prop}
    {μ : σ → Reach → Nat}
    (h : ∀ s p, I s p → (step s).Reaches groups E (Turned I Q μ (μ s p) s) p)
    {count : Nat} {s : σ} (hs : I s p) (hcount : μ s p < count) :
    (iterateUpTo step count s).Reaches groups E Q p := by
  induction count generalizing s p with
  | zero => omega
  | succ count ih =>
    rw [iterateUpTo_succ]
    refine Reaches.bind (h s p hs) fun next q hnext => ?_
    cases next with
    | none => exact hnext
    | some s' => exact ih hnext.1 (Nat.lt_of_lt_of_le hnext.2 (Nat.le_of_lt_succ hcount))

/-- A loop ends by its own test: it has at most as much to do as there are significant tokens. -/
theorem reaches_iterate {step : σ → GrammarRule (Option σ)} {I Q : σ → Reach → Prop}
    (μ : σ → Reach → Nat)
    (h : ∀ s p, I s p → (step s).Reaches groups E (Turned I Q μ (μ s p) s) p)
    {s : σ} (hs : I s p) (hμ : μ s p ≤ keyedFrom groups p.taken) :
    (iterate step s).Reaches groups E Q p :=
  fun _ hcount => reaches_iterateUpTo h hs (Nat.lt_succ_of_le (Nat.le_trans hμ hcount))

/-- What every turn of a loop keeps is true where the loop ends, however it ends. -/
theorem reaches_iterate_keeps {step : σ → GrammarRule (Option σ)} {I : σ → Reach → Prop}
    (h : ∀ s p, I s p → (step s).Reaches groups E (fun next q => I (next.getD s) q) p)
    {s : σ} (hs : I s p) : (iterate step s).Reaches groups E I p := by
  have hupTo (count : Nat) {s : σ} {p : Reach} (hs : I s p) :
      (iterateUpTo step count s).Reaches groups E I p := by
    induction count generalizing s p with
    | zero => exact hs
    | succ count ih =>
      rw [iterateUpTo_succ]
      refine Reaches.bind (h s p hs) fun next q hnext => ?_
      cases next with
      | none => exact hnext
      | some s' => exact ih hnext
  exact fun count _ => hupTo (count + 1) hs

/-- A loop whose turns take a significant token each, or end it. -/
theorem reaches_repeatWhile {step : GrammarRule Bool} {I Q : Reach → Prop}
    (h : ∀ p, I p → step.Reaches groups E (fun more q =>
      if more then I q ∧ keyedFrom groups q.taken < keyedFrom groups p.taken else Q q) p)
    (hp : I p) : (repeatWhile step).Reaches groups E (fun _ => Q) p := by
  refine reaches_iterate (I := fun _ => I) (fun _ q => keyedFrom groups q.taken)
    (fun _ q hq => ?_) hp (Nat.le_refl _)
  refine (h q hq).bind fun more q hmore => ?_
  cases more with
  | false => exact hmore
  | true => exact hmore

end GrammarRule

/-! ### Runs -/

namespace SyntaxError

/-- The error is over the token that is next, or over the end if there is none. -/
def IsOver (e : SyntaxError) (next : Option SqlToken) : Prop :=
  ∃ expected stop context, e = { atToken expected next stop with context }

theorem isOver_atToken (expected : String) (next : Option SqlToken) (stop : Position) :
    (atToken expected next stop).IsOver next :=
  ⟨expected, stop, _, rfl⟩

theorem IsOver.inside {e : SyntaxError} {next : Option SqlToken} (h : e.IsOver next)
    (construct : String) : (e.inside construct).IsOver next := by
  obtain ⟨expected, stop, context, rfl⟩ := h
  exact ⟨expected, stop, _, rfl⟩

end SyntaxError

/-- Reading has come to a reach. If it has noticed the end of the tokens, it has looked past the
last one. -/
structure ParseState.Reached (s : ParseState) (groups : List SqlGroup) (error : Option LexError)
    (p : Reach) : Prop where
  place : s.At groups error p.taken
  noticed : s.stream.exhausted = true → ∃ n < p.seen, glanceAt groups n = none

namespace ParseState.Reached

variable {s : ParseState} {groups : List SqlGroup} {error : Option LexError} {p : Reach}

/-- Filling the window for a look at the group `k` ahead. -/
theorem noticed_fill (h : s.Reached groups error p) (k : Nat)
    (he : (s.stream.fill k).exhausted = true) :
    ∃ n < max p.seen (p.taken + k + 1), glanceAt groups n = none := by
  rcases TokenStream.fill_exhausted k s.stream he with hbefore | ⟨i, hi, hnone⟩
  · obtain ⟨n, hn, hend⟩ := h.noticed hbefore
    exact ⟨n, by omega, hend⟩
  · have hwindow := (h.place.holds.fill k).window_of_exhausted he
    refine ⟨p.taken + i, by omega, ?_⟩
    rw [hwindow, keyAt, List.getElem?_drop] at hnone
    rw [glanceAt, keyAt, hnone]
    rfl

theorem key (h : s.Reached groups error p) (k : Nat) :
    (s.key k).1.map Token.glance = glanceAt groups (p.taken + k) ∧
      (s.key k).2.Reached groups error (p.look k) := by
  obtain ⟨hkey, hplace⟩ := h.place.key k
  exact ⟨hkey, hplace, h.noticed_fill k⟩

theorem startsLine (h : s.Reached groups error p) (k : Nat) :
    (s.startsLine k).1 = startsLineAt groups (p.taken + k) ∧
      (s.startsLine k).2.Reached groups error (p.look k) := by
  obtain ⟨hline, hplace⟩ := h.place.startsLine k
  refine ⟨hline, hplace, fun he => ?_⟩
  unfold ParseState.startsLine at he
  split at he
  · obtain ⟨n, hn, hend⟩ := h.noticed he
    exact ⟨n, by rw [Reach.look_seen]; omega, hend⟩
  · exact h.noticed_fill k he

theorem bump (h : s.Reached groups error p) : s.bump.Reached groups error (p.take groups) := by
  have htaken : Heeded groups error true s s.bump p.taken (placeAfter groups p.taken) :=
    .bump h.place fun hlax => Bool.noConfusion hlax
  refine ⟨htaken.place, fun he => h.noticed_fill 0 ?_⟩
  revert he
  unfold ParseState.bump TokenStream.next
  cases hwindow : (s.stream.fill 0).window <;> simp [hwindow]

end ParseState.Reached

/-- What a run ends with where it has come to `next` and the reach is `q`: a result with `Q`, or an
error over the first group that has not been taken. An error over the end of the tokens has noticed
it. -/
def Reach.EndsWith {α : Type} (groups : List SqlGroup) (E : Reach → Prop) (Q : α → Reach → Prop)
    (next : ParseState) (q : Reach) : Except SyntaxError α → Prop
  | .ok a => Q a q
  | .error e => E q ∧ e.IsOver (keyAt groups q.taken) ∧
    (keyAt groups q.taken = none → next.stream.exhausted = true)

/-- A run ends as is computed. -/
theorem reaches_run {α : Type} {groups : List SqlGroup} {error : Option LexError}
    {E : Reach → Prop} {r : GrammarRule α} {Q : α → Reach → Prop} {s next : ParseState}
    {p : Reach} {result : Except SyntaxError α} (hs : s.Reached groups error p)
    (h : r.Reaches groups E Q p) (hrun : r.run s = (result, next)) :
    ∃ q, next.Reached groups error q ∧ q.EndsWith groups E Q next result := by
  induction r generalizing s next p with
  | done =>
    cases hrun
    exact ⟨p, hs, h⟩
  | missing expected =>
    have hkey : (s.key 0).1 = keyAt groups p.taken := by
      rw [← Nat.add_zero p.taken, keyAt, ← List.getElem?_drop]
      exact (hs.place.holds.peekKey 0).1
    cases hrun
    refine ⟨p.look 0, (hs.key 0).2, h, ?_, ?_⟩ <;> rw [Reach.look_taken, ← hkey]
    · exact SyntaxError.isOver_atToken ..
    · exact hs.place.holds.exhausted_of_peekKey
  | look k rest ih =>
    obtain ⟨hglance, hlook⟩ := hs.key k
    rw [GrammarRule.Reaches, ← hglance] at h
    exact ih _ hlook h hrun
  | lineStart k rest ih =>
    obtain ⟨hline, hlook⟩ := hs.startsLine k
    rw [GrammarRule.Reaches, ← hline] at h
    exact ih _ hlook h hrun
  | remaining rest ih => exact ih _ hs (h _ (Nat.le_of_eq hs.place.holds.remaining.symm)) hrun
  | bump rest ih => exact ih hs.bump h hrun
  | node kind inside rest ihinside ihrest =>
    have hempty : ({ s with current := { kind } } : ParseState).Reached groups error p :=
      ⟨⟨hs.place.holds, hs.place.started⟩, hs.noticed⟩
    simp only [GrammarRule.run] at hrun
    split at hrun
    · rename_i e inner hinner
      cases hrun
      exact ihinside hempty h hinner
    · rename_i b inner hinner
      obtain ⟨q, hq, hQ⟩ := ihinside hempty h hinner
      exact ihrest b (s := { inner with current := s.current.addNode inner.current })
        ⟨⟨hq.place.holds, hq.place.started⟩, hq.noticed⟩ hQ hrun
  | setName name rest ih =>
    exact ih (s := { s with current := { s.current with name := some name } })
      ⟨⟨hs.place.holds, hs.place.started⟩, hs.noticed⟩ h hrun
  | setKind kind rest ih =>
    exact ih (s := { s with current := { s.current with kind } })
      ⟨⟨hs.place.holds, hs.place.started⟩, hs.noticed⟩ h hrun
  | within construct inside rest ihinside ihrest =>
    simp only [GrammarRule.run] at hrun
    split at hrun
    · rename_i e inner hinner
      cases hrun
      obtain ⟨q, hq, hE, hover, hend⟩ := ihinside hs h hinner
      exact ⟨q, hq, hE, hover.inside construct, hend⟩
    · rename_i b inner hinner
      obtain ⟨q, hq, hQ⟩ := ihinside hs h hinner
      exact ihrest b hq hQ hrun

end SqlDoc

/-
# When a lexer stalls

Fallbacks that read nothing lead from state to state. They lead round in a circle when no state that
they come to reads a token or gives up (`Lexer.Circles`). A lexer does not look for that: it stalls
when it has followed more fallbacks than there are states (`Lexer.step_stalled_iff`). So it stalls in
every circle, but not only there: a stack may hold one state many times, and the way down from level
to level is no circle (`Lexer.stalls_iff_circles_or_late`). A guard of as many fallbacks as there are
states and levels of the stack would be exact (`Lexer.circles_iff`).

What fallbacks do depends on the current state and on the stack below it, and below a level the
stack stays as it is. So where a state is met again on the same level, all that followed it follows
again (`Lexer.circles_of_alike`).

Key definitions: `Lexer.settles`, `Lexer.follow`, `Lexer.Circles`, `Lexer.Stalls`.
Key theorems: `Lexer.step_stalled_iff`, `Lexer.circles_of_alike`, `Lexer.circles_iff`,
`Lexer.stalls_iff_circles_or_late`.
-/
import Mathlib.Data.Fintype.Pigeonhole
import Mathlib.Data.Fintype.Prod
import SqlDoc.Proofs.Lexer.Alike
import SqlDoc.Proofs.Lexer.Building

namespace SqlDoc
namespace Lexer

variable {κ : Type} {g : Grammar κ}

/-- The current state reads a token or gives up. -/
def settles (lx : Lexer g) : Bool :=
  lx.matchRule?.isSome ||
    match lx.state.fallback with
    | .error | .token _ => true
    | .pop | .next _ => false

/-- The lexer after the fallback of the current state, if that reads nothing. -/
def follow (lx : Lexer g) : Lexer g :=
  match lx.state.fallback with
  | .error | .token _ => lx
  | .pop => lx.pop
  | .next state => lx.apply (.next state) lx.position

/-- Fallbacks that read nothing lead on without end. -/
def Circles (lx : Lexer g) : Prop :=
  ∀ n, (follow^[n] lx).settles = false

/-- The lexer says that it makes no progress. -/
def Stalls (lx : Lexer g) : Prop :=
  ∃ state place, lx.step = .failed (.stalled state place)

/-! ### One fallback -/

theorem act_of_settles_false {lx : Lexer g} (h : lx.settles = false) (found : Char) :
    lx.act found = .move lx.follow := by
  unfold settles at h
  unfold act follow
  cases hm : lx.matchRule? with
  | some pair => simp [hm] at h
  | none => cases hf : lx.state.fallback <;> simp [hm, hf] at h ⊢

theorem act_ne_move_of_settles {lx next : Lexer g} (h : lx.settles = true) (found : Char) :
    lx.act found ≠ .move next := by
  unfold settles at h
  unfold act
  cases hm : lx.matchRule? with
  | some pair => simp
  | none => cases hf : lx.state.fallback <;> simp [hm, hf] at h ⊢

/-- An action never says that there is no progress. -/
theorem act_ne_fail_stalled {lx : Lexer g} {found : Char} {state : String} {place : Position} :
    lx.act found ≠ .fail (.stalled state place) := by
  unfold act
  cases lx.matchRule? with
  | some pair => simp
  | none => cases lx.state.fallback <;> simp

@[simp] theorem rest_follow (lx : Lexer g) : lx.follow.rest = lx.rest := by
  unfold follow
  split <;> simp

@[simp] theorem position_follow (lx : Lexer g) : lx.follow.position = lx.position := by
  unfold follow
  split <;> simp

/-- Fallbacks change the top of the stack or take it away. -/
theorem below_follow_suffix (lx : Lexer g) : lx.follow.below <:+ lx.below := by
  unfold follow
  split
  · exact List.suffix_refl _
  · exact List.suffix_refl _
  · unfold pop
    split
    · exact List.suffix_refl _
    · rename_i hbelow
      rw [hbelow]
      exact List.suffix_cons ..
  · exact List.suffix_refl _

theorem rest_iterate_follow (lx : Lexer g) (n : Nat) : (follow^[n] lx).rest = lx.rest := by
  induction n with
  | zero => rfl
  | succ n ih => rw [Function.iterate_succ_apply', rest_follow, ih]

theorem below_iterate_follow_suffix (lx : Lexer g) {i j : Nat} (h : i ≤ j) :
    (follow^[j] lx).below <:+ (follow^[i] lx).below := by
  induction j, h using Nat.le_induction with
  | base => exact List.suffix_refl _
  | succ j _ ih =>
    rw [Function.iterate_succ_apply']
    exact (below_follow_suffix _).trans ih

/-! ### The guard -/

theorem stepAt_ne_stalled_of_settles {found : Char} {budget : Nat} {lx : Lexer g} {state : String}
    {place : Position} (h : lx.settles = true) :
    stepAt found budget lx ≠ .failed (.stalled state place) := by
  unfold stepAt
  cases hact : lx.act found with
  | read token next => simp
  | move next => exact absurd hact (act_ne_move_of_settles h found)
  | fail error =>
    intro heq
    cases heq
    exact act_ne_fail_stalled hact

/-- A step stalls when none of the states settles that its budget allows it to visit. It names the
state to which the last fallback led. -/
theorem stepAt_stalled_iff {found : Char} {budget : Nat} {lx : Lexer g} {state : String}
    {place : Position} :
    stepAt found budget lx = .failed (.stalled state place) ↔
      (∀ n ≤ budget, (follow^[n] lx).settles = false) ∧
        state = (follow^[budget + 1] lx).state.name ∧ place = lx.position := by
  -- a state that settles is one that the budget allows to visit
  have hsettled {lx : Lexer g} (budget : Nat) (hsettles : lx.settles = true) :
      stepAt found budget lx = .failed (.stalled state place) ↔
        (∀ n ≤ budget, (follow^[n] lx).settles = false) ∧
          state = (follow^[budget + 1] lx).state.name ∧ place = lx.position := by
    refine iff_of_false (stepAt_ne_stalled_of_settles hsettles) fun h => ?_
    exact Bool.noConfusion (hsettles.symm.trans (h.1 0 (Nat.zero_le _)))
  induction budget generalizing lx with
  | zero =>
    cases hsettles : lx.settles with
    | true => exact hsettled 0 hsettles
    | false =>
      rw [stepAt, act_of_settles_false hsettles found]
      constructor
      · intro h
        cases h
        refine ⟨fun n hn => ?_, rfl, position_follow lx⟩
        rwa [Nat.le_zero.1 hn]
      · rintro ⟨-, rfl, rfl⟩
        simp
  | succ budget ih =>
    cases hsettles : lx.settles with
    | true => exact hsettled (budget + 1) hsettles
    | false =>
      rw [stepAt, act_of_settles_false hsettles found]
      have hplace : place = lx.follow.position ↔ place = lx.position := by
        rw [position_follow]
      refine ih.trans (and_congr ?_ (and_congr_right' hplace))
      constructor
      · rintro h (_ | n) hn
        · exact hsettles
        · exact h n (Nat.le_of_succ_le_succ hn)
      · exact fun h n hn => h (n + 1) (Nat.succ_le_succ hn)

/-- A lexer that stalls has followed more fallbacks than there are states, and is at the place where
it was before. -/
theorem step_stalled_iff {lx : Lexer g} (hrest : lx.rest ≠ []) {state : String}
    {place : Position} :
    lx.step = .failed (.stalled state place) ↔
      (∀ n ≤ g.size, (follow^[n] lx).settles = false) ∧
        state = (follow^[g.size + 1] lx).state.name ∧ place = lx.position := by
  obtain ⟨found, rest, hcons⟩ := List.exists_cons_of_ne_nil hrest
  rw [step_eq_stepAt hcons]
  exact stepAt_stalled_iff

theorem stalls_iff {lx : Lexer g} (hrest : lx.rest ≠ []) :
    lx.Stalls ↔ ∀ n ≤ g.size, (follow^[n] lx).settles = false := by
  constructor
  · rintro ⟨state, place, h⟩
    exact ((step_stalled_iff hrest).1 h).1
  · exact fun h => ⟨_, _, (step_stalled_iff hrest).2 ⟨h, rfl, rfl⟩⟩

/-! ### Circles -/

namespace Alike

variable {lx other : Lexer g}

theorem settles (h : lx.Alike other) : lx.settles = other.settles := by
  have hrule : lx.matchRule?.isSome = other.matchRule?.isSome := by
    cases hm : lx.matchRule? with
    | none =>
      rw [h.matchRule?_eq_none hm]
      rfl
    | some pair =>
      obtain ⟨stop, hstop, -⟩ := h.matchRule? hm
      rw [hstop]
      rfl
  rw [Lexer.settles, Lexer.settles, hrule, h.state]

theorem follow (h : lx.Alike other) : lx.follow.Alike other.follow := by
  unfold Lexer.follow
  rw [h.state]
  cases other.state.fallback with
  | error => exact h
  | token kind => exact h
  | pop => exact h.pop
  | next state => exact h.apply (.next state) _ _

theorem iterate_follow (h : lx.Alike other) (n : Nat) :
    (Lexer.follow^[n] lx).Alike (Lexer.follow^[n] other) := by
  induction n with
  | zero => exact h
  | succ n ih =>
    rw [Function.iterate_succ_apply', Function.iterate_succ_apply']
    exact ih.follow

end Alike

/-- A state that is met again at the same level of the stack has the same stack below it. -/
theorem alike_of_same_level {lx : Lexer g} {i j : Nat} (hij : i ≤ j)
    (htop : (follow^[i] lx).top.state = (follow^[j] lx).top.state)
    (hlevel : (follow^[i] lx).below.length = (follow^[j] lx).below.length) :
    (follow^[i] lx).Alike (follow^[j] lx) := by
  have hbelow : (follow^[j] lx).below = (follow^[i] lx).below :=
    (below_iterate_follow_suffix lx hij).eq_of_length hlevel.symm
  refine ⟨by rw [rest_iterate_follow, rest_iterate_follow], ?_⟩
  simp only [states, List.map_cons, htop, hbelow]

/-- Where the same is met again before anything settles, nothing ever does. -/
theorem circles_of_alike {lx : Lexer g} {i j : Nat} (hij : i < j)
    (h : (follow^[i] lx).Alike (follow^[j] lx))
    (hunsettled : ∀ n < j, (follow^[n] lx).settles = false) : lx.Circles := by
  intro n
  induction n using Nat.strongRecOn with
  | ind n ih =>
    rcases Nat.lt_or_ge n j with hn | hn
    · exact hunsettled n hn
    · -- what follows the second time was met the first time, `j - i` fallbacks earlier
      obtain ⟨m, rfl⟩ := Nat.exists_eq_add_of_le' hn
      have hsame := (h.iterate_follow m).settles
      rw [← Function.iterate_add_apply, ← Function.iterate_add_apply] at hsame
      rw [← hsame]
      exact ih (m + i) (by omega)

/-- Of more values than the type has, two are the same. -/
theorem exists_lt_map_eq {α : Type} [Fintype α] (f : Nat → α) :
    ∃ i j, i < j ∧ j ≤ Fintype.card α ∧ f i = f j := by
  obtain ⟨i, j, hne, hf⟩ := Fintype.exists_ne_map_eq_of_card_lt
    (fun n : Fin (Fintype.card α + 1) => f n) (by simp)
  wlog hij : i < j generalizing i j
  · exact this j i hne.symm hf.symm (lt_of_le_of_ne (not_lt.1 hij) hne.symm)
  exact ⟨i, j, hij, Nat.le_of_lt_succ j.isLt, hf⟩

/-- There are as many places to be in as there are states and levels of the stack: if none of them
settles, fallbacks lead round in a circle. -/
theorem circles_iff {lx : Lexer g} :
    lx.Circles ↔
      ∀ n < g.size * (lx.below.length + 1), (follow^[n] lx).settles = false := by
  refine ⟨fun h n _ => h n, fun h => ?_⟩
  have hlevel (n : Nat) : (follow^[n] lx).below.length < lx.below.length + 1 :=
    Nat.lt_succ_of_le (below_iterate_follow_suffix lx (Nat.zero_le n)).length_le
  let place (n : Nat) : g.StateId × Fin (lx.below.length + 1) :=
    ((follow^[n] lx).top.state, ⟨(follow^[n] lx).below.length, hlevel n⟩)
  obtain ⟨i, j, hij, hj, hplace⟩ := exists_lt_map_eq place
  rw [Fintype.card_prod, Fintype.card_fin, Fintype.card_fin] at hj
  obtain ⟨htop, hbelow⟩ := Prod.ext_iff.1 hplace
  exact circles_of_alike hij (alike_of_same_level hij.le htop (Fin.val_eq_of_eq hbelow))
    fun n hn => h n (hn.trans_le hj)

/-- Fallbacks lead round in a circle, or there is a first state that settles. -/
theorem circles_or_exists (lx : Lexer g) :
    lx.Circles ∨ ∃ n < g.size * (lx.below.length + 1), (follow^[n] lx).settles = true ∧
      ∀ m < n, (follow^[m] lx).settles = false := by
  by_cases h : lx.Circles
  · exact Or.inl h
  · rw [circles_iff] at h
    push Not at h
    obtain ⟨n, ⟨hn, hsettles⟩, hfirst⟩ := Nat.findX h
    refine Or.inr ⟨n, hn, Bool.eq_true_of_not_eq_false hsettles, fun m hm => ?_⟩
    by_contra hm'
    exact hfirst m hm ⟨hm.trans hn, hm'⟩

/-- A lexer stalls in every circle. Besides, it stalls where the first state that settles comes after
more fallbacks than there are states, and then a state was passed on two levels of the stack. -/
theorem stalls_iff_circles_or_late (lx : Lexer g) (hrest : lx.rest ≠ []) :
    (lx.Stalls ↔
      lx.Circles ∨ ∃ n, g.size < n ∧ n < g.size * (lx.below.length + 1) ∧
        (follow^[n] lx).settles = true ∧ ∀ m < n, (follow^[m] lx).settles = false) ∧
    (lx.Stalls → ¬ lx.Circles →
      ∃ i j, i < j ∧ j ≤ g.size ∧ (follow^[i] lx).top.state = (follow^[j] lx).top.state ∧
        (follow^[j] lx).below.length < (follow^[i] lx).below.length) := by
  rw [stalls_iff hrest]
  refine ⟨⟨fun h => ?_, ?_⟩, fun h hno => ?_⟩
  · refine (circles_or_exists lx).imp_right ?_
    rintro ⟨n, hn, hsettles, hfirst⟩
    refine ⟨n, ?_, hn, hsettles, hfirst⟩
    by_contra hle
    exact Bool.noConfusion (hsettles.symm.trans (h n (not_lt.1 hle)))
  · rintro (h | ⟨n, hn, -, -, hfirst⟩) m hm
    · exact h m
    · exact hfirst m (hm.trans_lt hn)
  · obtain ⟨i, j, hij, hj, htop⟩ := exists_lt_map_eq fun n => (follow^[n] lx).top.state
    rw [Fintype.card_fin] at hj
    refine ⟨i, j, hij, hj, htop, ?_⟩
    refine (below_iterate_follow_suffix lx hij.le).length_le.lt_of_ne fun hlevel => hno ?_
    exact circles_of_alike hij (alike_of_same_level hij.le htop hlevel.symm)
      fun n hn => h n (hn.le.trans hj)

/-! ### A stack of one state -/

/-- The kinds of tokens of `nested`. -/
inductive NestedKind where
  | opening
  | letter
  deriving DecidableEq, Repr

/-- A table of two states. The inner one is entered at each parenthesis and knows nothing else, so a
letter is left to the state below. -/
def nestedTable : List (LexState NestedKind MatcherText String) := [
  { name := "main"
    rules := [
      { kind := .opening, matcher := .literal "(", transition := .push "inner" },
      { kind := .letter, matcher := .literal "x" }] },
  { name := "inner"
    rules := [{ kind := .opening, matcher := .literal "(", transition := .push "inner" }]
    fallback := .pop }]

/-- The grammar of the table. -/
def nested : Grammar NestedKind where
  size := 2
  states := #v[
    { name := "main"
      rules := [
        { kind := .opening, matcher := .literal ['('], transition := .push 1 },
        { kind := .letter, matcher := .literal ['x'] }] },
    { name := "inner"
      rules := [{ kind := .opening, matcher := .literal ['('], transition := .push 1 }]
      fallback := .pop }]
  size_pos := Nat.two_pos

theorem build_nestedTable (engine : RegexEngine) :
    Grammar.build engine nestedTable = .ok nested := by
  rw [Grammar.build_eq_ok_iff]
  refine ⟨(∅ : Std.HashMap String Nat).insert "main" 0 |>.insert "inner" 1, ?_, ?_⟩
  · simp [nestedTable, Grammar.number, Grammar.stateLimit]
  · generalize hfind : Grammar.targets _ nested.size = find
    have hinner : find "inner" = some (1 : Fin 2) := by
      rw [← hfind]
      simp [Grammar.targets, nested]
    refine .cons ?_ (.cons ?_ .nil)
    all_goals
      simp [Grammar.compileState, Grammar.compileRule, Grammar.compileMatcher,
        Grammar.resolveTransition, Grammar.resolveFallback, Grammar.resolve, hinner, bind,
        Except.bind, pure, Except.pure]
      rfl

/-- The lexer in front of the letter of `(((x`. -/
def beforeLetter : Lexer nested where
  rest := ['x']
  position := { line := 1, column := 4 }
  top := { state := (1 : Fin 2), entered := { line := 1, column := 3 } }
  below := [
    { state := (1 : Fin 2), entered := { line := 1, column := 2 } },
    { state := (1 : Fin 2), entered := { line := 1, column := 1 } },
    { state := (0 : Fin 2), entered := { line := 1, column := 1 } }]

/-- Three fallbacks lead to the state that reads the letter, but there are only two states. -/
theorem stalls_beforeLetter :
    beforeLetter.rest ≠ [] ∧ beforeLetter.Stalls ∧
      ∃ i j, i < j ∧ j ≤ 2 ∧ (follow^[i] beforeLetter).top.state =
          (follow^[j] beforeLetter).top.state ∧
        (follow^[j] beforeLetter).below.length < (follow^[i] beforeLetter).below.length := by
  have hrest : beforeLetter.rest ≠ [] := List.cons_ne_nil _ _
  obtain ⟨hstalls, hlevels⟩ := stalls_iff_circles_or_late beforeLetter hrest
  have hlate : beforeLetter.Stalls :=
    hstalls.2 (Or.inr ⟨3, by decide, by decide, by decide, by decide⟩)
  exact ⟨hrest, hlate, hlevels hlate fun h => Bool.noConfusion (h 3)⟩

/-- So a text whose every character some state reads is given up as if there were a circle. -/
theorem nested_stalls_without_circle :
    (∀ engine, Grammar.build engine nestedTable = .ok nested) ∧
      ∃ tokens lx, (Lexer.start nested ['(', '(', '(', 'x']).Reads tokens lx ∧ lx.rest ≠ [] ∧
        lx.Stalls ∧ ¬ lx.Circles := by
  have hreads : (Lexer.start nested ['(', '(', '(', 'x']).Reads _ beforeLetter :=
    .cons rfl (.cons rfl (.cons rfl (.nil _)))
  refine ⟨build_nestedTable, _, beforeLetter, hreads, List.cons_ne_nil _ _, ⟨_, _, rfl⟩, ?_⟩
  exact fun h => Bool.noConfusion (h 3)

end Lexer
end SqlDoc

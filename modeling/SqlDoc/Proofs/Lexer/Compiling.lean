/-
# Which tables make a grammar, and what they make

A table makes a grammar when it has states, not too many of them and no two of one name, when every
name that stands for a state is the name of one, when no literal is empty, and when the engine
compiles every pattern to something that does not match the empty text (`Grammar.exists_build_iff`).
Building looks for these faults in several places and in an order of its own, but it finds one
exactly where there is one, whatever the engine.

The grammar is the table again: with the names of states put back for their numbers, every state has
its name, its rules in their order and its fallback, and only what tokens look like has been compiled
(`Grammar.build_eq_ok_iff_compilesTo`). Names and numbers stand for each other, since the numbers
that building hands out are the places of the states in the table.

Key definitions: `LexState.mentioned`, `LexState.CompilesTo`, `Grammar.IsBuildable`.
Key theorems: `Grammar.exists_number_iff`, `Grammar.getElem?_number`,
`Grammar.compileState_eq_ok_iff`, `Grammar.build_eq_ok_iff_compilesTo`, `Grammar.exists_build_iff`,
`Grammar.build_faithful`.
-/
import Mathlib
import SqlDoc.Proofs.Lexer.Building

namespace SqlDoc

/-! ### What a state is compiled to -/

/-- The state that a transition leads to. -/
def Transition.target? {σ : Type} : Transition σ → Option σ
  | .push target | .next target => some target
  | .stay | .pop => none

/-- The state that a fallback leads to. -/
def Fallback.target? {κ σ : Type} : Fallback κ σ → Option σ
  | .next target => some target
  | .error | .token _ | .pop => none

/-- The states that a state leads to. -/
def LexState.mentioned {κ μ σ : Type} (state : LexState κ μ σ) : List σ :=
  state.rules.filterMap (·.transition.target?) ++ state.fallback.target?.toList

/-- What a token looks like, as it is written and as it is run. A pattern is compiled in a group
behind `^`, and nothing that matches the empty text is let through. -/
inductive MatcherText.CompilesTo (engine : RegexEngine) : MatcherText → Matcher → Prop where
  | literal {text : String} (hne : text ≠ "") :
      CompilesTo engine (.literal text) (.literal text.toList)
  | pattern {text : String} {r : Regex} (hcompile : engine.compile ("^(?:" ++ text ++ ")") = .ok r)
      (hempty : r.isMatch [] = false) : CompilesTo engine (.pattern text) (.regex r)

/-- The rule is the written one, its state being named by `nameOf`. -/
structure Rule.CompilesTo {κ σ : Type} (engine : RegexEngine) (nameOf : σ → String)
    (text : Rule κ MatcherText String) (rule : Rule κ Matcher σ) : Prop where
  kind : rule.kind = text.kind
  matcher : text.matcher.CompilesTo engine rule.matcher
  transition : rule.transition.map nameOf = text.transition
  value : rule.value = text.value

/-- The state is the written one, with its rules in their order, all states being named by
`nameOf`. -/
structure LexState.CompilesTo {κ σ : Type} (engine : RegexEngine) (nameOf : σ → String)
    (spec : LexState κ MatcherText String) (state : LexState κ Matcher σ) : Prop where
  name : state.name = spec.name
  rules : List.Forall₂ (Rule.CompilesTo engine nameOf) spec.rules state.rules
  fallback : state.fallback.map nameOf = spec.fallback
  mustClose : state.mustClose = spec.mustClose

theorem MatcherText.exists_compilesTo_iff {engine : RegexEngine} {text : MatcherText} :
    (∃ matcher, text.CompilesTo engine matcher) ↔
      (∀ chars, text = .literal chars → chars ≠ "") ∧
        ∀ chars, text = .pattern chars →
          ∃ r, engine.compile ("^(?:" ++ chars ++ ")") = .ok r ∧ r.isMatch [] = false := by
  cases text with
  | literal chars =>
    constructor
    · rintro ⟨_, ⟨hne⟩⟩
      simpa using hne
    · rintro ⟨hne, -⟩
      exact ⟨_, .literal (hne chars rfl)⟩
  | pattern chars =>
    constructor
    · rintro ⟨_, h⟩
      cases h with
      | pattern hcompile hempty => simpa using ⟨_, hcompile, hempty⟩
    · rintro ⟨-, h⟩
      obtain ⟨r, hcompile, hempty⟩ := h chars rfl
      exact ⟨_, .pattern hcompile hempty⟩

section

variable {κ σ : Type} {engine : RegexEngine} {nameOf : σ → String}

/-- A name can be put for every state that is mentioned exactly when the written one is a name of
some state. -/
theorem Transition.exists_map_eq_iff {transition : Transition String} :
    (∃ t : Transition σ, t.map nameOf = transition) ↔
      ∀ name ∈ transition.target?, ∃ id, nameOf id = name := by
  constructor
  · rintro ⟨t, rfl⟩ name hname
    cases t <;> cases hname <;> exact ⟨_, rfl⟩
  · intro h
    cases transition with
    | stay => exact ⟨.stay, rfl⟩
    | pop => exact ⟨.pop, rfl⟩
    | push name =>
      obtain ⟨id, rfl⟩ := h name rfl
      exact ⟨.push id, rfl⟩
    | next name =>
      obtain ⟨id, rfl⟩ := h name rfl
      exact ⟨.next id, rfl⟩

theorem Fallback.exists_map_eq_iff {fallback : Fallback κ String} :
    (∃ f : Fallback κ σ, f.map nameOf = fallback) ↔
      ∀ name ∈ fallback.target?, ∃ id, nameOf id = name := by
  constructor
  · rintro ⟨f, rfl⟩ name hname
    cases f <;> cases hname
    exact ⟨_, rfl⟩
  · intro h
    cases fallback with
    | error => exact ⟨.error, rfl⟩
    | token kind => exact ⟨.token kind, rfl⟩
    | pop => exact ⟨.pop, rfl⟩
    | next name =>
      obtain ⟨id, rfl⟩ := h name rfl
      exact ⟨.next id, rfl⟩

theorem Rule.exists_compilesTo_iff {text : Rule κ MatcherText String} :
    (∃ rule : Rule κ Matcher σ, text.CompilesTo engine nameOf rule) ↔
      (∃ matcher, text.matcher.CompilesTo engine matcher) ∧
        ∀ name ∈ text.transition.target?, ∃ id, nameOf id = name := by
  rw [← Transition.exists_map_eq_iff]
  constructor
  · rintro ⟨rule, h⟩
    exact ⟨⟨_, h.matcher⟩, _, h.transition⟩
  · rintro ⟨⟨matcher, hmatcher⟩, transition, htransition⟩
    exact ⟨{ kind := text.kind, matcher, transition, value := text.value },
      rfl, hmatcher, htransition, rfl⟩

/-- There is a partner for every element of a list exactly when there is a list of partners. -/
theorem exists_forall₂_iff {α β : Type} {R : α → β → Prop} {as : List α} :
    (∃ bs, List.Forall₂ R as bs) ↔ ∀ a ∈ as, ∃ b, R a b := by
  constructor
  · rintro ⟨bs, h⟩ a ha
    obtain ⟨i, hi, rfl⟩ := List.getElem_of_mem ha
    exact ⟨bs.get ⟨i, h.length_eq ▸ hi⟩, h.get hi (h.length_eq ▸ hi)⟩
  · induction as with
    | nil => exact fun _ => ⟨[], .nil⟩
    | cons a as ih =>
      intro h
      obtain ⟨b, hb⟩ := h a (List.mem_cons_self ..)
      obtain ⟨bs, hbs⟩ := ih fun a ha => h a (List.mem_cons_of_mem _ ha)
      exact ⟨b :: bs, .cons hb hbs⟩

theorem LexState.exists_compilesTo_iff {spec : LexState κ MatcherText String} :
    (∃ state : LexState κ Matcher σ, spec.CompilesTo engine nameOf state) ↔
      (∀ rule ∈ spec.rules, ∃ matcher, rule.matcher.CompilesTo engine matcher) ∧
        ∀ name ∈ spec.mentioned, ∃ id, nameOf id = name := by
  have hrules : (∃ rules : List (Rule κ Matcher σ),
      List.Forall₂ (Rule.CompilesTo engine nameOf) spec.rules rules) ↔ _ :=
    exists_forall₂_iff.trans (forall₂_congr fun rule _ => Rule.exists_compilesTo_iff)
  have hsplit : (∃ state : LexState κ Matcher σ, spec.CompilesTo engine nameOf state) ↔
      (∃ rules : List (Rule κ Matcher σ),
        List.Forall₂ (Rule.CompilesTo engine nameOf) spec.rules rules) ∧
      ∃ f : Fallback κ σ, f.map nameOf = spec.fallback := by
    constructor
    · rintro ⟨state, h⟩
      exact ⟨⟨_, h.rules⟩, _, h.fallback⟩
    · rintro ⟨⟨rules, hrules⟩, fallback, hfallback⟩
      exact ⟨{ name := spec.name, rules, fallback, mustClose := spec.mustClose },
        rfl, hrules, hfallback, rfl⟩
  rw [hsplit, hrules, Fallback.exists_map_eq_iff]
  simp only [mentioned, List.mem_append, List.mem_filterMap, Option.mem_toList, or_imp,
    forall_and, forall_exists_index, and_imp, and_assoc]
  refine and_congr_right fun _ => and_congr_left fun _ => ?_
  exact ⟨fun h name rule hrule => h rule hrule name, fun h rule hrule name => h name rule hrule⟩

end

/-! ### Compiling -/

namespace Grammar

section

variable {κ σ : Type} {engine : RegexEngine} {find : String → Option σ} {nameOf : σ → String}
  {state : String}

theorem compileMatcher_eq_ok_iff {text : MatcherText} {matcher : Matcher} :
    compileMatcher engine state text = .ok matcher ↔ text.CompilesTo engine matcher := by
  constructor
  · intro h
    cases text with
    | literal chars =>
      rw [compileMatcher] at h
      split at h <;> cases h
      rename_i hne
      exact .literal (by simpa using hne)
    | pattern chars =>
      simp only [compileMatcher] at h
      split at h
      · cases h
      · rename_i r hcompile
        split at h <;> cases h
        rename_i hempty
        exact .pattern hcompile (by simpa using hempty)
  · intro h
    cases h with
    | literal hne => simp [compileMatcher, hne]
    | pattern hcompile hempty => simp [compileMatcher, hcompile, hempty]

variable (hfind : ∀ name id, find name = some id ↔ nameOf id = name)
include hfind

theorem resolve_eq_ok_iff {target : String} {id : σ} :
    resolve find state target = .ok id ↔ nameOf id = target := by
  rw [← hfind, resolve]
  cases find target <;> simp

theorem resolveTransition_eq_ok_iff {transition : Transition String} {t : Transition σ} :
    resolveTransition find state transition = .ok t ↔ t.map nameOf = transition := by
  cases transition with
  | stay => cases t <;> simp [resolveTransition, Transition.map]
  | pop => cases t <;> simp [resolveTransition, Transition.map]
  | push name =>
    rw [resolveTransition, Except.bind_eq_ok_iff]
    simp only [resolve_eq_ok_iff hfind]
    cases t <;> simp [Transition.map, pure, Except.pure]
  | next name =>
    rw [resolveTransition, Except.bind_eq_ok_iff]
    simp only [resolve_eq_ok_iff hfind]
    cases t <;> simp [Transition.map, pure, Except.pure]

theorem resolveFallback_eq_ok_iff {fallback : Fallback κ String} {f : Fallback κ σ} :
    resolveFallback find state fallback = .ok f ↔ f.map nameOf = fallback := by
  cases fallback with
  | error => cases f <;> simp [resolveFallback, Fallback.map]
  | token kind => cases f <;> simp [resolveFallback, Fallback.map, eq_comm]
  | pop => cases f <;> simp [resolveFallback, Fallback.map]
  | next name =>
    rw [resolveFallback, Except.bind_eq_ok_iff]
    simp only [resolve_eq_ok_iff hfind]
    cases f <;> simp [Fallback.map, pure, Except.pure]

theorem compileRule_eq_ok_iff {text : Rule κ MatcherText String} {rule : Rule κ Matcher σ} :
    compileRule engine find state text = .ok rule ↔ text.CompilesTo engine nameOf rule := by
  simp only [compileRule, Except.bind_eq_ok_iff, compileMatcher_eq_ok_iff,
    resolveTransition_eq_ok_iff hfind]
  constructor
  · rintro ⟨matcher, hmatcher, transition, htransition, hrule⟩
    cases hrule
    exact ⟨rfl, hmatcher, htransition, rfl⟩
  · intro h
    obtain ⟨kind, matcher, transition, value⟩ := rule
    obtain ⟨rfl, hmatcher, htransition, rfl⟩ := h
    exact ⟨matcher, hmatcher, transition, htransition, rfl⟩

/-- When states are found by their names, a state compiles to what is written and nothing else. -/
theorem compileState_eq_ok_iff {spec : LexState κ MatcherText String}
    {state : LexState κ Matcher σ} :
    compileState engine find spec = .ok state ↔ spec.CompilesTo engine nameOf state := by
  simp only [compileState, Except.bind_eq_ok_iff, mapM_eq_ok_iff, compileRule_eq_ok_iff hfind,
    resolveFallback_eq_ok_iff hfind]
  constructor
  · rintro ⟨rules, hrules, fallback, hfallback, hstate⟩
    cases hstate
    exact ⟨rfl, hrules, hfallback, rfl⟩
  · intro h
    obtain ⟨name, rules, fallback, mustClose⟩ := state
    obtain ⟨rfl, hrules, hfallback, rfl⟩ := h
    exact ⟨rules, hrules, fallback, hfallback, rfl⟩

end

/-! ### Numbers -/

section

variable {limit n : Nat} {numbers result : Std.HashMap String Nat} {names : List String}

/-- The states are numbered when there are not too many and every name is new. -/
theorem exists_number_iff :
    (∃ result, number limit n numbers names = .ok result) ↔
      (names = [] ∨ n + names.length ≤ limit) ∧ names.Nodup ∧ ∀ name ∈ names, name ∉ numbers := by
  induction names generalizing n numbers with
  | nil => simp [number]
  | cons first names ih =>
    rw [number]
    by_cases hlimit : limit ≤ n
    · rw [if_pos hlimit]
      constructor
      · rintro ⟨result, h⟩
        cases h
      · rintro ⟨hnil | hle, -⟩
        · cases hnil
        · rw [List.length_cons] at hle
          omega
    by_cases hold : numbers.contains first = true
    · rw [if_neg hlimit, if_pos hold]
      constructor
      · rintro ⟨result, h⟩
        cases h
      · rintro ⟨-, -, hnew⟩
        exact absurd (Std.HashMap.mem_iff_contains.2 hold) (hnew first (List.mem_cons_self ..))
    · rw [if_neg hlimit, if_neg hold, ih]
      have hlength : (names = [] ∨ n + 1 + names.length ≤ limit) ↔
          (first :: names = [] ∨ n + (first :: names).length ≤ limit) := by
        cases names with
        | nil => simp; omega
        | cons _ _ => simp; omega
      rw [hlength, List.nodup_cons, List.forall_mem_cons]
      refine and_congr_right fun _ => ?_
      constructor
      · rintro ⟨hnodup, hnew⟩
        refine ⟨⟨fun hmem => ?_, hnodup⟩, mt Std.HashMap.mem_iff_contains.1 hold, fun name hname h => ?_⟩
        · exact hnew first hmem Std.HashMap.mem_insert_self
        · exact hnew name hname (Std.HashMap.mem_insert.2 (Or.inr h))
      · rintro ⟨⟨hfirst, hnodup⟩, -, hnew⟩
        refine ⟨hnodup, fun name hname h => ?_⟩
        rcases Std.HashMap.mem_insert.1 h with heq | h
        · exact hfirst (eq_of_beq heq ▸ hname)
        · exact hnew name hname h

/-- A name has the number of its place, counted from `n`, or the one that it had before. -/
theorem getElem?_number (h : number limit n numbers names = .ok result) {name : String} {i : Nat} :
    result[name]? = some i ↔
      numbers[name]? = some i ∨ ∃ k, names[k]? = some name ∧ i = n + k := by
  induction names generalizing n numbers with
  | nil =>
    cases h
    simp
  | cons first names ih =>
    rw [number] at h
    split at h
    · cases h
    split at h
    · cases h
    rename_i hnew
    have hfirst : numbers[first]? = none := by simpa using hnew
    have hinsert : (numbers.insert first n)[name]? = some i ↔
        numbers[name]? = some i ∨ first = name ∧ i = n := by
      rw [Std.HashMap.getElem?_insert]
      by_cases heq : first = name
      · subst heq
        simp [hfirst, eq_comm]
      · simp [heq]
    have hplace : (∃ k, (first :: names)[k]? = some name ∧ i = n + k) ↔
        first = name ∧ i = n ∨ ∃ k, names[k]? = some name ∧ i = n + 1 + k := by
      constructor
      · rintro ⟨k, hk, rfl⟩
        cases k with
        | zero => exact Or.inl ⟨by simpa using hk, rfl⟩
        | succ k => exact Or.inr ⟨k, by simpa using hk, by omega⟩
      · rintro (⟨rfl, rfl⟩ | ⟨k, hk, rfl⟩)
        · exact ⟨0, rfl, rfl⟩
        · exact ⟨k + 1, hk, by omega⟩
    rw [ih h, hinsert, hplace, or_assoc]

/-- A state is found under a name when the name stands at its place. -/
theorem targets_eq_some_iff (h : number limit 0 ∅ names = .ok numbers) {size : Nat} {name : String}
    {id : Fin size} : targets numbers size name = some id ↔ names[id.val]? = some name := by
  have hnumber : numbers[name]? = some id.val ↔ names[id.val]? = some name := by
    simp [getElem?_number h]
  rw [← hnumber, targets, Option.bind_eq_some_iff]
  constructor
  · rintro ⟨i, hi, hid⟩
    split at hid <;> cases hid
    exact hi
  · intro hid
    exact ⟨id.val, hid, by simp⟩

end

/-! ### Building -/

variable {κ : Type} {engine : RegexEngine} {table : List (LexState κ MatcherText String)}
  {g : Grammar κ}

/-- A table that makes a grammar with the engine. -/
structure IsBuildable (engine : RegexEngine) (table : List (LexState κ MatcherText String)) :
    Prop where
  nonempty : table ≠ []
  /-- Every state can have a number of 16 bits. -/
  few : table.length ≤ 65536
  distinct : (table.map (·.name)).Nodup
  defined : ∀ state ∈ table, ∀ name ∈ state.mentioned, name ∈ table.map (·.name)
  literals : ∀ state ∈ table, ∀ rule ∈ state.rules, ∀ text,
    rule.matcher = .literal text → text ≠ ""
  patterns : ∀ state ∈ table, ∀ rule ∈ state.rules, ∀ text, rule.matcher = .pattern text →
    ∃ r, engine.compile ("^(?:" ++ text ++ ")") = .ok r ∧ r.isMatch [] = false

theorem name_of_compileState {σ : Type} {find : String → Option σ}
    {spec : LexState κ MatcherText String} {state : LexState κ Matcher σ}
    (h : compileState engine find spec = .ok state) : state.name = spec.name := by
  obtain ⟨rules, -, h⟩ := Except.bind_eq_ok_iff.1 h
  obtain ⟨fallback, -, h⟩ := Except.bind_eq_ok_iff.1 h
  cases h
  rfl

/-- States that are compiled one by one have the names of the table. -/
theorem map_name_of_forall₂ {R : LexState κ MatcherText String → LexState κ Matcher g.StateId → Prop}
    (hR : ∀ {spec state}, R spec state → state.name = spec.name)
    (h : List.Forall₂ R table g.states.toList) (id : g.StateId) :
    (table.map (·.name))[id.val]? = some (g.stateName id) := by
  have hid : id.val < table.length := by
    rw [h.length_eq]
    simp
  have hname : g.stateName id = table[id.val].name := by
    simpa [stateName, state] using hR (h.get hid (by simp))
  rw [List.getElem?_map, List.getElem?_eq_getElem hid, hname]
  rfl

/-- So building finds a state under a name when it is the state's own. -/
theorem targets_eq_some_iff_stateName {numbers : Std.HashMap String Nat}
    (hnumbers : number stateLimit 0 ∅ (table.map (·.name)) = .ok numbers)
    (hnames : ∀ id : g.StateId, (table.map (·.name))[id.val]? = some (g.stateName id))
    (name : String) (id : g.StateId) :
    targets numbers g.size name = some id ↔ g.stateName id = name := by
  rw [targets_eq_some_iff hnumbers, hnames, Option.some_inj]

/-- A table makes the grammar whose states are those that are written, if there are not too many and
no two have one name. -/
theorem build_eq_ok_iff_compilesTo :
    build engine table = .ok g ↔
      table.length ≤ 65536 ∧ (table.map (·.name)).Nodup ∧
        List.Forall₂ (LexState.CompilesTo engine g.stateName) table g.states.toList := by
  rw [build_eq_ok_iff]
  constructor
  · rintro ⟨numbers, hnumbers, hstates⟩
    have hfind := targets_eq_some_iff_stateName hnumbers
      (map_name_of_forall₂ name_of_compileState hstates)
    obtain ⟨hlimit, hnodup, -⟩ := exists_number_iff.1 ⟨numbers, hnumbers⟩
    refine ⟨?_, hnodup, hstates.imp fun _ _ h => (compileState_eq_ok_iff hfind).1 h⟩
    rcases hlimit with hnil | hle
    · rw [List.map_eq_nil_iff.1 hnil]
      exact Nat.zero_le _
    · simpa [stateLimit] using hle
  · rintro ⟨hlimit, hnodup, hstates⟩
    obtain ⟨numbers, hnumbers⟩ : ∃ numbers, number stateLimit 0 ∅ (table.map (·.name)) = .ok numbers :=
      exists_number_iff.2 ⟨Or.inr (by simpa [stateLimit] using hlimit), hnodup, by simp⟩
    have hfind := targets_eq_some_iff_stateName hnumbers
      (map_name_of_forall₂ LexState.CompilesTo.name hstates)
    exact ⟨numbers, hnumbers, hstates.imp fun _ _ h => (compileState_eq_ok_iff hfind).2 h⟩

/-- In a grammar that has been built, names and numbers of states stand for each other. -/
theorem stateId?_eq_some_iff_of_build (h : build engine table = .ok g) (name : String) (id : g.StateId) :
    g.stateId? name = some id ↔ g.stateName id = name := by
  obtain ⟨-, hnodup, hstates⟩ := build_eq_ok_iff_compilesTo.1 h
  have hnames := map_name_of_forall₂ LexState.CompilesTo.name hstates
  have hinj (i j : g.StateId) (hij : g.stateName i = g.stateName j) : i = j := by
    have hplace : (table.map (·.name))[i.val]? = (table.map (·.name))[j.val]? := by
      rw [hnames, hnames, hij]
    have hi : i.val < (table.map (·.name)).length := (List.getElem?_eq_some_iff.1 (hnames i)).1
    exact Fin.ext ((List.getElem?_inj hi hnodup).1 hplace)
  constructor
  · exact g.stateName_of_stateId?
  · rintro rfl
    exact g.stateId?_stateName hinj id

/-- The names of its states are those of the table. -/
theorem exists_stateName_iff {g : Grammar κ} (hlength : g.size = table.length)
    (hnames : ∀ id : g.StateId, (table.map (·.name))[id.val]? = some (g.stateName id))
    {name : String} : (∃ id, g.stateName id = name) ↔ name ∈ table.map (·.name) := by
  rw [List.mem_iff_getElem?]
  constructor
  · rintro ⟨id, rfl⟩
    exact ⟨id.val, hnames id⟩
  · rintro ⟨i, hi⟩
    have hlt : i < g.size := by
      have hlt := (List.getElem?_eq_some_iff.1 hi).1
      rwa [List.length_map, ← hlength] at hlt
    exact ⟨⟨i, hlt⟩, Option.some_inj.1 ((hnames ⟨i, hlt⟩).symm.trans hi)⟩

/-- What tokens look like in the table is what the compiler lets through. -/
theorem exists_matchers_iff :
    (∀ state ∈ table, ∀ rule ∈ state.rules, ∃ matcher, rule.matcher.CompilesTo engine matcher) ↔
      (∀ state ∈ table, ∀ rule ∈ state.rules, ∀ text,
        rule.matcher = .literal text → text ≠ "") ∧
      ∀ state ∈ table, ∀ rule ∈ state.rules, ∀ text, rule.matcher = .pattern text →
        ∃ r, engine.compile ("^(?:" ++ text ++ ")") = .ok r ∧ r.isMatch [] = false := by
  simp only [MatcherText.exists_compilesTo_iff, forall_and]

/-- A table makes a grammar exactly when nothing is wrong with it. -/
theorem exists_build_iff : (∃ g, build engine table = .ok g) ↔ IsBuildable engine table := by
  constructor
  · rintro ⟨g, h⟩
    obtain ⟨hlimit, hnodup, hstates⟩ := build_eq_ok_iff_compilesTo.1 h
    have hlength : g.size = table.length := by simpa using hstates.length_eq.symm
    have hnames := map_name_of_forall₂ LexState.CompilesTo.name hstates
    have hspecs : ∀ spec ∈ table, _ := fun spec hspec =>
      LexState.exists_compilesTo_iff.1 (exists_forall₂_iff.1 ⟨_, hstates⟩ spec hspec)
    obtain ⟨hliterals, hpatterns⟩ := exists_matchers_iff.1 fun spec hspec => (hspecs spec hspec).1
    refine ⟨?_, hlimit, hnodup, fun spec hspec name hname => ?_, hliterals, hpatterns⟩
    · rintro rfl
      exact absurd hlength (Nat.ne_of_gt g.size_pos)
    · exact (exists_stateName_iff hlength hnames).1 ((hspecs spec hspec).2 name hname)
  · intro h
    have hmatchers := exists_matchers_iff.2 ⟨h.literals, h.patterns⟩
    -- the number of a state is its place, so its name is read off the table
    let nameOf (id : Fin table.length) : String := table[id.val].name
    have hdefined (name : String) (hname : name ∈ table.map (·.name)) : ∃ id, nameOf id = name := by
      obtain ⟨i, hi, rfl⟩ := List.getElem_of_mem hname
      exact ⟨⟨i, by simpa using hi⟩, by simp [nameOf]⟩
    obtain ⟨states, hstates⟩ : ∃ states, List.Forall₂ (LexState.CompilesTo engine nameOf) table states :=
      exists_forall₂_iff.2 fun spec hspec => LexState.exists_compilesTo_iff.2
        ⟨hmatchers spec hspec, fun name hname => hdefined name (h.defined spec hspec name hname)⟩
    let g : Grammar κ := {
      size := table.length
      states := ⟨states.toArray, by simpa using hstates.length_eq.symm⟩
      size_pos := List.length_pos_iff.2 h.nonempty }
    have hnameOf : nameOf = g.stateName := by
      funext id
      exact (hstates.get id.isLt (hstates.length_eq ▸ id.isLt)).name.symm
    refine ⟨g, build_eq_ok_iff_compilesTo.2 ⟨h.few, h.distinct, ?_⟩⟩
    rw [← hnameOf]
    exact hstates

/-- Whatever the engine, a table makes a grammar exactly when it has states, at most 65536 of them and
no two of one name, every name that stands for a state is the name of one, no literal is empty, and
every pattern compiles and does not match the empty text. The grammar has the states of the table in
their order, each with its rules in their order, and where a state is named, the number of the state
with this name; a number is found under a name exactly when the name is that of the state with the
number, and under every name of the table one is found. -/
theorem build_faithful (engine : RegexEngine) (table : List (LexState κ MatcherText String)) :
    ((∃ g, build engine table = .ok g) ↔ IsBuildable engine table) ∧
      ∀ g, build engine table = .ok g →
        g.size = table.length ∧
        List.Forall₂ (LexState.CompilesTo engine g.stateName) table g.states.toList ∧
        (∀ name id, g.stateId? name = some id ↔ g.stateName id = name) ∧
        ∀ name, (∃ id, g.stateId? name = some id) ↔ name ∈ table.map (·.name) := by
  refine ⟨exists_build_iff, fun g h => ?_⟩
  obtain ⟨-, -, hstates⟩ := build_eq_ok_iff_compilesTo.1 h
  have hlength : g.size = table.length := by simpa using hstates.length_eq.symm
  have hnames := map_name_of_forall₂ LexState.CompilesTo.name hstates
  have hids := stateId?_eq_some_iff_of_build h
  refine ⟨hlength, hstates, hids, fun name => ?_⟩
  simp only [hids, exists_stateName_iff hlength hnames]

theorem isBuildable_wordTable : IsBuildable letterEngine wordTable where
  nonempty := List.cons_ne_nil _ _
  few := by decide
  distinct := by decide
  defined := by decide
  literals := by simp [wordTable]
  patterns := by
    have hletters : ∃ r, letterEngine.compile ("^(?:" ++ "[a-z]+" ++ ")") = .ok r ∧
        r.isMatch [] = false := ⟨letters, rfl, rfl⟩
    simpa [wordTable] using hletters

/-- The table makes a grammar of two states, which are found under their names. -/
theorem build_wordTable :
    ∃ g, build letterEngine wordTable = .ok g ∧ g.size = 2 ∧
      (∃ id, g.stateId? "main" = some id) ∧ (∃ id, g.stateId? "inner" = some id) ∧
      g.stateId? "outer" = none := by
  obtain ⟨g, hg⟩ := (build_faithful letterEngine wordTable).1.2 isBuildable_wordTable
  obtain ⟨hsize, -, -, hnames⟩ := (build_faithful letterEngine wordTable).2 g hg
  refine ⟨g, hg, hsize, (hnames "main").2 (by decide), (hnames "inner").2 (by decide), ?_⟩
  rw [Option.eq_none_iff_forall_ne_some]
  exact fun id hid => absurd ((hnames "outer").1 ⟨id, hid⟩) (by decide)

end Grammar
end SqlDoc

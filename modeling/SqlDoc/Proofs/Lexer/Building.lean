/-
# What is in a grammar that has been built

A grammar is built from its table state by state: the state with a number is the one that is written
at that place, compiled (`Grammar.build_eq_ok_iff`). So what the compiler refuses in a state is in no
state of the grammar: no literal of a rule is empty, and matches end on characters if the engine sees
to that (`Grammar.readsCharacters_of_build`).

The states of a grammar name each other by numbers that are numbers of states. Nothing has to be
checked for that: the numbers that building hands out are all below the number of states
(`Grammar.lt_of_number`), and so it makes the same states, or finds the same fault, if it uses them
as they are (`Grammar.buildStates_eq`).

Key definitions: `Matcher.ReadsCharacters`, `Grammar.targets`, `LexState.map`, `Grammar.numbered`.
Key theorems: `Grammar.build_eq_ok_iff`, `Grammar.exists_compileState_of_build`,
`Grammar.readsCharacters_of_build`, `Grammar.buildStates_eq`.
-/
import Mathlib.Data.List.Forall2
import SqlDoc.Lexer.Feed

namespace SqlDoc

section

variable {ε α β γ : Type}

theorem Except.bind_eq_ok_iff {x : Except ε α} {f : α → Except ε β} {b : β} :
    (x >>= f) = .ok b ↔ ∃ a, x = .ok a ∧ f a = .ok b := by
  cases x <;> simp [bind, Except.bind]

/-- A pass over a list succeeds when it does at every place. -/
theorem mapM_eq_ok_iff {f : α → Except ε β} {as : List α} {bs : List β} :
    as.mapM f = .ok bs ↔ List.Forall₂ (fun a b => f a = .ok b) as bs := by
  induction as generalizing bs with
  | nil => cases bs <;> simp [pure, Except.pure]
  | cons a as ih =>
    rw [List.mapM_cons, Except.bind_eq_ok_iff, List.forall₂_cons_left_iff]
    constructor
    · rintro ⟨b, hb, h⟩
      obtain ⟨bs', hbs, hpure⟩ := Except.bind_eq_ok_iff.1 h
      cases hpure
      exact ⟨b, bs', hb, ih.1 hbs, rfl⟩
    · rintro ⟨b, bs', hb, hbs, rfl⟩
      exact ⟨b, hb, Except.bind_eq_ok_iff.2 ⟨bs', ih.2 hbs, rfl⟩⟩

/-- A pass over a vector does the same as one over its list. -/
theorem map_toList_mapM {f : α → Except ε β} {n : Nat} (as : Vector α n) :
    (as.mapM f).map Vector.toList = as.toList.mapM f := by
  show Vector.toList <$> as.mapM f = _
  rw [← Vector.toList_toArray, ← Array.toList_mapM, ← Vector.toArray_mapM, Functor.map_map]
  rfl

theorem vector_mapM_eq_ok_iff {f : α → Except ε β} {n : Nat} {as : Vector α n} {bs : Vector β n} :
    as.mapM f = .ok bs ↔ List.Forall₂ (fun a b => f a = .ok b) as.toList bs.toList := by
  rw [← mapM_eq_ok_iff, ← map_toList_mapM]
  cases as.mapM f <;> simp [Except.map, Vector.toList_inj]

theorem Except.bind_map {x : Except ε α} {f : α → β} {k : β → Except ε γ} :
    (x.map f >>= k) = x >>= fun a => k (f a) := by
  cases x <;> rfl

theorem Except.map_bind {x : Except ε α} {k : α → Except ε β} {f : β → γ} :
    (x >>= k).map f = x >>= fun a => (k a).map f := by
  cases x <;> rfl

/-- What is done with every result may be done with the list of them. -/
theorem mapM_map {f : α → Except ε β} {g : β → γ} (as : List α) :
    (as.mapM fun a => (f a).map g) = (as.mapM f).map (List.map g) := by
  induction as with
  | nil => rfl
  | cons a as ih =>
    rw [List.mapM_cons, List.mapM_cons, ih, Except.bind_map, Except.map_bind]
    refine congrArg (f a >>= ·) (funext fun b => ?_)
    rw [Except.bind_map, Except.map_bind]
    rfl

end

/-- Every token that the matcher reads has at least one character, and no part of one more. -/
def Matcher.ReadsCharacters : Matcher → Prop
  | .literal chars => chars ≠ []
  | .pattern _ => True
  | .regex r => r.EndsOnCharacters

/-- So do the matchers of all rules. -/
def Grammar.ReadsCharacters {κ : Type} (g : Grammar κ) : Prop :=
  ∀ id : g.StateId, ∀ rule ∈ (g.state id).rules, rule.matcher.ReadsCharacters

namespace Grammar

variable {κ : Type} {engine : RegexEngine} {table : List (LexState κ MatcherText String)}
  {g : Grammar κ}

/-- The number of the state with a name, in a table of `n` states. -/
def targets (numbers : Std.HashMap String Nat) (n : Nat) (name : String) : Option (Fin n) :=
  numbers[name]?.bind fun i => if h : i < n then some ⟨i, h⟩ else none

/-- A table makes a grammar when its states can be numbered and each of them compiles to the state at
its place. -/
theorem build_eq_ok_iff :
    build engine table = .ok g ↔
      ∃ numbers, number stateLimit 0 ∅ (table.map (·.name)) = .ok numbers ∧
        List.Forall₂
          (fun spec state => compileState engine (targets numbers g.size) spec = .ok state)
          table g.states.toList := by
  constructor
  · intro h
    unfold build at h
    split at h
    · cases h
    · obtain ⟨numbers, hnumbers, h⟩ := Except.bind_eq_ok_iff.1 h
      obtain ⟨compiled, hcompiled, h⟩ := Except.bind_eq_ok_iff.1 h
      split at h <;> cases h
      exact ⟨numbers, hnumbers, vector_mapM_eq_ok_iff.1 hcompiled⟩
  · rintro ⟨numbers, hnumbers, h⟩
    obtain ⟨size, states, hpos⟩ := g
    obtain rfl : table.toArray.size = size := by
      simpa using h.length_eq
    have hne : ¬ table.isEmpty = true := by
      rintro hempty
      simp [List.isEmpty_iff.1 hempty] at hpos
    have hcompiled :
        table.toArray.toVector.mapM (compileState engine (targets numbers _)) = .ok states :=
      vector_mapM_eq_ok_iff.2 h
    unfold build
    rw [if_neg hne]
    refine Except.bind_eq_ok_iff.2 ⟨numbers, hnumbers, Except.bind_eq_ok_iff.2 ⟨states, hcompiled, ?_⟩⟩
    rw [dif_pos hpos]
    rfl

/-- Every state of a grammar is one of the table, compiled. -/
theorem exists_compileState_of_build (h : build engine table = .ok g) :
    ∃ find, ∀ id : g.StateId, ∃ spec ∈ table, compileState engine find spec = .ok (g.state id) := by
  obtain ⟨numbers, -, hstates⟩ := build_eq_ok_iff.1 h
  refine ⟨targets numbers g.size, fun id => ?_⟩
  have hlength : id.val < table.length := by
    rw [hstates.length_eq]
    simp
  refine ⟨table[id.val], List.getElem_mem _, ?_⟩
  simpa [state] using hstates.get hlength (by simp)

/-- Every rule of a state is one of those that are written in it, compiled. -/
theorem exists_compileRule_of_mem_rules {n : Nat} {find : String → Option (Fin n)}
    {spec : LexState κ MatcherText String} {state : LexState κ Matcher (Fin n)}
    (h : compileState engine find spec = .ok state) {rule : Rule κ Matcher (Fin n)}
    (hrule : rule ∈ state.rules) :
    ∃ text ∈ spec.rules, compileRule engine find spec.name text = .ok rule := by
  obtain ⟨rules, hrules, h⟩ := Except.bind_eq_ok_iff.1 h
  obtain ⟨fallback, -, hstate⟩ := Except.bind_eq_ok_iff.1 h
  cases hstate
  obtain ⟨i, hi, rfl⟩ := List.getElem_of_mem hrule
  have hforall := mapM_eq_ok_iff.1 hrules
  have hlength : i < spec.rules.length := by rwa [hforall.length_eq]
  exact ⟨_, List.getElem_mem hlength, hforall.get hlength hi⟩

/-- The compiler lets through literals with at least one character, and what the engine compiles. -/
theorem readsCharacters_of_compileMatcher (hengine : engine.EndsOnCharacters) {state : String}
    {text : MatcherText} {matcher : Matcher}
    (h : compileMatcher engine state text = .ok matcher) : matcher.ReadsCharacters := by
  cases text with
  | literal text =>
    rw [compileMatcher] at h
    split at h <;> cases h
    rename_i hne
    simpa [Matcher.ReadsCharacters] using hne
  | pattern text =>
    simp only [compileMatcher] at h
    split at h
    · cases h
    · rename_i r hr
      split at h <;> cases h
      exact hengine _ r hr

/-- In a grammar that has been built, tokens are made of characters, if matches of the engine are. -/
theorem readsCharacters_of_build (hengine : engine.EndsOnCharacters)
    (h : build engine table = .ok g) : g.ReadsCharacters := by
  intro id rule hrule
  obtain ⟨find, hstates⟩ := exists_compileState_of_build h
  obtain ⟨spec, -, hstate⟩ := hstates id
  obtain ⟨text, -, hcompiled⟩ := exists_compileRule_of_mem_rules hstate hrule
  obtain ⟨matcher, hmatcher, hcompiled⟩ := Except.bind_eq_ok_iff.1 hcompiled
  obtain ⟨transition, -, hpure⟩ := Except.bind_eq_ok_iff.1 hcompiled
  cases hpure
  exact readsCharacters_of_compileMatcher hengine hmatcher

end Grammar

/-! ### A table with a pattern -/

/-- Small letters at the start of a text, as many as there are. -/
def letters : Regex where
  isMatch text := text.head?.any Char.isLower
  matchEnd? text :=
    match text.takeWhile Char.isLower with
    | [] => none
    | read => some (Text.byteLength read)

/-- An engine that knows one expression. -/
def letterEngine : RegexEngine where
  compile expression := if expression = "^(?:[a-z]+)" then .ok letters else .error "not known"

theorem letterEngine_endsOnCharacters : letterEngine.EndsOnCharacters := by
  intro expression r hcompile text n hn
  rw [letterEngine] at hcompile
  dsimp only at hcompile
  split at hcompile <;> cases hcompile
  refine ⟨text.takeWhile Char.isLower, text.dropWhile Char.isLower, ?_⟩
  rw [Text.splitBytes?_eq_some_iff]
  refine ⟨List.takeWhile_append_dropWhile, ?_⟩
  rw [letters] at hn
  dsimp only at hn
  split at hn <;> cases hn
  rfl

/-- A table of two states that lead to each other. -/
def wordTable : List (LexState Unit MatcherText String) := [
  { name := "main"
    rules := [
      { kind := (), matcher := .literal "(", transition := .push "inner" },
      { kind := (), matcher := .pattern "[a-z]+" }] },
  { name := "inner"
    rules := [{ kind := (), matcher := .literal ")", transition := .pop }]
    fallback := .next "main"
    mustClose := some "parenthesis" }]

/-- The grammar of the table. -/
def words : Grammar Unit where
  size := 2
  states := #v[
    { name := "main"
      rules := [
        { kind := (), matcher := .literal ['('], transition := .push ⟨1, Nat.one_lt_two⟩ },
        { kind := (), matcher := .regex letters }] },
    { name := "inner"
      rules := [{ kind := (), matcher := .literal [')'], transition := .pop }]
      fallback := .next ⟨0, Nat.two_pos⟩
      mustClose := some "parenthesis" }]
  size_pos := Nat.two_pos

theorem build_words : Grammar.build letterEngine wordTable = .ok words := by
  rw [Grammar.build_eq_ok_iff]
  refine ⟨(∅ : Std.HashMap String Nat).insert "main" 0 |>.insert "inner" 1, ?_, ?_⟩
  · simp [wordTable, Grammar.number, Grammar.stateLimit]
  · generalize hfind : Grammar.targets _ words.size = find
    have hmain : find "main" = some (0 : Fin 2) := by
      rw [← hfind]
      simp [Grammar.targets, words, Std.HashMap.getElem_insert]
    have hinner : find "inner" = some (1 : Fin 2) := by
      rw [← hfind]
      simp [Grammar.targets, words]
    refine .cons ?_ (.cons ?_ .nil)
    all_goals
      simp [Grammar.compileState, Grammar.compileRule, Grammar.compileMatcher,
        Grammar.resolveTransition, Grammar.resolveFallback, Grammar.resolve, hinner, hmain,
        letterEngine, letters, bind, Except.bind, pure, Except.pure]
      rfl

/-! ### Plain numbers -/

/-- A transition with its target replaced. -/
def Transition.map {σ τ : Type} (f : σ → τ) : Transition σ → Transition τ
  | .stay => .stay
  | .push target => .push (f target)
  | .pop => .pop
  | .next target => .next (f target)

/-- A fallback with its target replaced. -/
def Fallback.map {κ σ τ : Type} (f : σ → τ) : Fallback κ σ → Fallback κ τ
  | .error => .error
  | .token kind => .token kind
  | .pop => .pop
  | .next target => .next (f target)

/-- A rule with its target replaced. -/
def Rule.map {κ μ σ τ : Type} (f : σ → τ) (rule : Rule κ μ σ) : Rule κ μ τ where
  kind := rule.kind
  matcher := rule.matcher
  transition := rule.transition.map f
  value := rule.value

/-- A state with all targets replaced. -/
def LexState.map {κ μ σ τ : Type} (f : σ → τ) (state : LexState κ μ σ) : LexState κ μ τ where
  name := state.name
  rules := state.rules.map (Rule.map f)
  fallback := state.fallback.map f
  mustClose := state.mustClose

namespace Grammar

/-- The states of a grammar with plain numbers for states. -/
def numbered {κ : Type} (g : Grammar κ) : List (LexState κ Matcher Nat) :=
  g.states.toList.map (LexState.map Fin.val)

section

variable {κ σ τ : Type} (engine : RegexEngine) (find : String → Option σ) (f : σ → τ)
  (state : String)

theorem resolve_map (target : String) :
    resolve (fun name => (find name).map f) state target = (resolve find state target).map f := by
  unfold resolve
  beta_reduce
  cases find target <;> rfl

theorem resolveTransition_map (transition : Transition String) :
    resolveTransition (fun name => (find name).map f) state transition =
      (resolveTransition find state transition).map (Transition.map f) := by
  cases transition with
  | stay => rfl
  | pop => rfl
  | push target =>
    simp only [resolveTransition, resolve_map, Except.bind_map, Except.map_bind]
    rfl
  | next target =>
    simp only [resolveTransition, resolve_map, Except.bind_map, Except.map_bind]
    rfl

theorem resolveFallback_map (fallback : Fallback κ String) :
    resolveFallback (fun name => (find name).map f) state fallback =
      (resolveFallback find state fallback).map (Fallback.map f) := by
  cases fallback with
  | error => rfl
  | token kind => rfl
  | pop => rfl
  | next target =>
    simp only [resolveFallback, resolve_map, Except.bind_map, Except.map_bind]
    rfl

theorem compileRule_map (rule : Rule κ MatcherText String) :
    compileRule engine (fun name => (find name).map f) state rule =
      (compileRule engine find state rule).map (Rule.map f) := by
  simp only [compileRule, resolveTransition_map, Except.bind_map, Except.map_bind]
  rfl

/-- Compiling does not look at the numbers of states. -/
theorem compileState_map (spec : LexState κ MatcherText String) :
    compileState engine (fun name => (find name).map f) spec =
      (compileState engine find spec).map (LexState.map f) := by
  have hrules : spec.rules.mapM (compileRule engine (fun name => (find name).map f) spec.name) =
      (spec.rules.mapM (compileRule engine find spec.name)).map (List.map (Rule.map f)) := by
    rw [← mapM_map]
    exact congrArg spec.rules.mapM (funext (compileRule_map engine find f spec.name))
  simp only [compileState, hrules, resolveFallback_map, Except.bind_map, Except.map_bind]
  rfl

end

/-- The numbers that are handed out are below the number of states. -/
theorem lt_of_number {limit n : Nat} {numbers result : Std.HashMap String Nat}
    {names : List String} (h : number limit n numbers names = .ok result)
    (hnumbers : ∀ (name : String) (i : Nat), numbers[name]? = some i → i < n)
    {name : String} {i : Nat} (hi : result[name]? = some i) : i < n + names.length := by
  induction names generalizing n numbers with
  | nil =>
    cases h
    exact hnumbers name i hi
  | cons first names ih =>
    rw [number] at h
    split at h
    · cases h
    · split at h
      · cases h
      · rw [List.length_cons, Nat.add_comm names.length, ← Nat.add_assoc]
        refine ih h fun name i hi => ?_
        rw [Std.HashMap.getElem?_insert] at hi
        split at hi
        · cases hi
          exact Nat.lt_succ_self n
        · exact Nat.lt_succ_of_lt (hnumbers name i hi)

/-- So no name is refused for its number. -/
theorem map_targets {limit n : Nat} {names : List String} {numbers : Std.HashMap String Nat}
    (h : number limit 0 ∅ names = .ok numbers) (hn : names.length = n) (name : String) :
    (targets numbers n name).map Fin.val = numbers[name]? := by
  unfold targets
  cases hi : numbers[name]? with
  | none => rfl
  | some i =>
    have hlt : i < n := by
      rw [← hn, ← Nat.zero_add names.length]
      exact lt_of_number h (by simp) hi
    simp [hlt]

variable {κ : Type} (engine : RegexEngine) {table : List (LexState κ MatcherText String)}

/-- The states compile to the same with the numbers as they are. -/
theorem mapM_compileState {numbers : Std.HashMap String Nat}
    (h : number stateLimit 0 ∅ (table.map (·.name)) = .ok numbers) :
    table.mapM (compileState engine fun name => numbers[name]?) =
      ((table.toArray.toVector.mapM
        (compileState engine (targets numbers table.toArray.size))).map
        Vector.toList).map (List.map (LexState.map Fin.val)) := by
  have hfind : (fun name => numbers[name]?) =
      fun name => (targets numbers table.toArray.size name).map Fin.val :=
    funext fun name => (map_targets h (by simp) name).symm
  rw [map_toList_mapM, ← mapM_map, hfind]
  exact congrArg table.mapM (funext (compileState_map engine _ Fin.val))

/-- Building makes the same states, or finds the same fault, if it takes the numbers as they are. -/
theorem buildStates_eq (table : List (LexState κ MatcherText String)) :
    buildStates engine table = (build engine table).map numbered := by
  by_cases hempty : table.isEmpty = true
  · obtain rfl := List.isEmpty_iff.1 hempty
    rfl
  · have hpos : 0 < table.toArray.size := by
      simpa [List.length_pos_iff] using hempty
    unfold buildStates build
    rw [if_neg hempty, if_neg hempty]
    show (number stateLimit 0 ∅ (table.map (·.name)) >>= fun numbers => _) =
      Except.map numbered (number stateLimit 0 ∅ (table.map (·.name)) >>= fun numbers => _)
    cases hnumbers : number stateLimit 0 ∅ (table.map (·.name)) with
    | error e => rfl
    | ok numbers =>
      show table.mapM (compileState engine fun name => numbers[name]?) =
        Except.map numbered (table.toArray.toVector.mapM
          (compileState engine (targets numbers table.toArray.size)) >>= fun compiled => _)
      rw [mapM_compileState engine hnumbers]
      cases table.toArray.toVector.mapM
        (compileState engine (targets numbers table.toArray.size)) with
      | error e => rfl
      | ok compiled =>
        show Except.ok _ = Except.map numbered (dite _ _ _)
        rw [dif_pos hpos]
        rfl

end Grammar
end SqlDoc

/-
# Asking for statements gives the statements of the script

What a feed gives is what is ahead of it: the trees of the script, then the error if there is one,
and then nothing (`StatementFeed.pullAt_eq`). A statement that is read takes the next significant
token (`took_statement`), so there are no more trees than significant tokens, and the feed comes to
its end. It does not end without an error before all significant tokens have been read, nor where
the tokens end in an error (`pullAt_ends`).

Key definitions: `Parsed.items`, `StatementFeed.Left`.
Key theorems: `took_statement`, `StatementFeed.pull_of_left`, `StatementFeed.pullAt_eq`,
`pullAt_ends`.
-/
import Mathlib.Algebra.Order.BigOperators.Group.List
import SqlDoc.Proofs.Syntax.Coverage
import SqlDoc.Syntax.Feed

namespace SqlDoc

/-! ### Significant tokens -/

theorem filterMap_key_groupsAfter (leading tokens : List SqlToken) :
    (groupsAfter leading tokens).filterMap (·.key?) = tokens.filter (·.isSignificant) := by
  fun_induction groupsAfter leading tokens with
  | case1 => rfl
  | case2 first rest => rfl
  | case3 leading t tokens ht ih =>
    rw [List.filter_cons_of_pos ht, ← ih]
    rfl
  | case4 leading t tokens ht ih => rw [List.filter_cons_of_neg ht, ih]

theorem flatMap_keys (trees : List SyntaxTree) :
    trees.flatMap (·.keys) = (trees.flatMap (·.groups)).filterMap (·.key?) := by
  induction trees with
  | nil => rfl
  | cons t trees ih =>
    rw [List.flatMap_cons, List.flatMap_cons, List.filterMap_append, ih]
    rfl

/-! ### One statement -/

/-- A statement that is read puts the next significant token into its tree and leaves fewer of
them. -/
theorem took_statement {groups : List SqlGroup} {error : Option LexError} {s next : ParseState}
    {g : SqlGroup} (h : s.stream.Holds (g :: groups) error) (hg : g.key?.isSome = true)
    (hrun : GrammarRule.statement.run s.openNode = (.ok (), next)) :
    ∃ taken left, Took (g :: groups) error s.openNode next (g :: taken) left ∧
      next.current.toTree.groups = g :: taken ∧
      left.countP (·.key?.isSome) < (g :: groups).countP (·.key?.isSome) := by
  have hopen : s.openNode.stream.Holds (g :: groups) error := h
  obtain ⟨taken, left, htook, hmust⟩ := took_of_run hopen hrun
  have hne : taken ≠ [] := hmust GrammarRule.mustTake_statement (List.cons_ne_nil g groups)
  have hlt := countP_left_lt htook.groups_eq hne (by simpa using hg)
  obtain ⟨first, taken, rfl⟩ := List.exists_cons_of_ne_nil hne
  have hfirst : g = first := (List.cons.inj htook.groups_eq).1
  subst hfirst
  exact ⟨taken, left, htook, htook.current, hlt⟩

theorem TokenStream.Holds.cons_of_key {s : ParseState} {groups : List SqlGroup}
    {error : Option LexError} {t : SqlToken} (h : s.stream.Holds groups error)
    (hkey : (s.key 0).1 = some t) : ∃ g rest, groups = g :: rest ∧ g.key? = some t := by
  have hpeek : groups[0]?.bind (·.key?) = some t := (h.peekKey 0).1.symm.trans hkey
  cases groups with
  | nil => cases hpeek
  | cons g rest => exact ⟨g, rest, rfl, hpeek⟩

/-! ### What is ahead -/

/-- The trees of a script, and after them the error if there is one. -/
def Parsed.items (parsed : Parsed) : List (Except ParseError SyntaxTree) :=
  parsed.trees.map .ok ++ parsed.error.toList.map .error

namespace StatementFeed

/-- The feed is going to give these. While it is not finished they are what reading gives that goes
on for more statements than there are significant tokens. -/
def Left (f : StatementFeed) (items : List (Except ParseError SyntaxTree)) : Prop :=
  if f.finished then items = []
  else ∃ groups error n, f.state.stream.Holds groups error ∧
    groups.countP (·.key?.isSome) < n ∧ (f.state.statementsUpTo n).items = items

variable {f : StatementFeed} {items : List (Except ParseError SyntaxTree)}

theorem left_finished (s : ParseState) : ({ state := s, finished := true } : StatementFeed).Left [] :=
  rfl

/-- Asking once takes the first thing that is ahead. -/
theorem pull_of_left (h : f.Left items) : f.pull.1 = items.head? ∧ f.pull.2.Left items.tail := by
  unfold Left at h
  unfold pull
  by_cases hfinished : f.finished = true
  · rw [if_pos hfinished] at h ⊢
    subst h
    refine ⟨rfl, ?_⟩
    rw [Left, if_pos hfinished]
    rfl
  rw [if_neg hfinished] at h ⊢
  obtain ⟨groups, error, n, hholds, hn, rfl⟩ := h
  obtain ⟨n, rfl⟩ : ∃ m, n = m + 1 := Nat.exists_eq_succ_of_ne_zero (by omega)
  have hlooked : (f.state.key 0).2.stream.Holds groups error := (hholds.peekKey 0).2
  unfold ParseState.statementsUpTo
  cases hkey : f.state.key 0 with
  | mk key s =>
    rw [hkey] at hlooked
    cases key with
    | none =>
      cases hend : s.stream.error with
      | none => exact ⟨by simp [ParseState.takeError, TokenStream.takeError, hend, Parsed.items],
          by simp [Parsed.items, hend, left_finished]⟩
      | some e => exact ⟨by simp [ParseState.takeError, TokenStream.takeError, hend, Parsed.items],
          by simp [Parsed.items, hend, left_finished]⟩
    | some t =>
      dsimp only
      obtain ⟨g, rest, rfl, hg⟩ := hholds.cons_of_key (congrArg Prod.fst hkey)
      cases hrun : GrammarRule.statement.run s.openNode with
      | mk result next =>
        cases result with
        | error e => exact ⟨rfl, left_finished _⟩
        | ok =>
          obtain ⟨taken, left, htook, -, hlt⟩ := took_statement hlooked (by rw [hg]; rfl) hrun
          refine ⟨rfl, ?_⟩
          rw [Left, if_neg hfinished]
          exact ⟨left, error, n, htook.holds, by omega, rfl⟩

/-- Asking again and again gives what is ahead, and then nothing. -/
theorem pullAt_of_left (h : f.Left items) (n : Nat) : f.pullAt n = items[n]? := by
  induction n generalizing f items with
  | zero => rw [pullAt, (pull_of_left h).1, List.head?_eq_getElem?]
  | succ n ih => rw [pullAt, ih (pull_of_left h).2, List.getElem?_tail]

/-- Asking gives the trees of the script in order, then the error if there is one, and then
nothing. -/
theorem pullAt_eq (lexed : Lexed) (n : Nat) :
    (ofLexed lexed).pullAt n = (parseTokens lexed).items[n]? := by
  have hholds := TokenStream.holds_ofLexed lexed
  refine pullAt_of_left ?_ n
  exact ⟨_, _, _, hholds, Nat.lt_succ_of_le hholds.remaining.ge, rfl⟩

end StatementFeed

/-! ### Where reading ends -/

theorem statementsUpTo_keys {groups : List SqlGroup} {error : Option LexError} (n : Nat)
    {s : ParseState} (h : s.stream.Holds groups error) :
    ∀ t ∈ (s.statementsUpTo n).trees, t.keys ≠ [] := by
  refine ParseState.forall_statementsUpTo (I := fun s => ∃ groups, s.stream.Holds groups error)
    (fun hheld hkey hrun => ?_) ⟨groups, h⟩
  obtain ⟨groups, h⟩ := hheld
  obtain ⟨first, hkey⟩ := Option.isSome_iff_exists.1 hkey
  obtain ⟨g, rest, rfl, hg⟩ := h.cons_of_key hkey
  obtain ⟨taken, left, htook, htree, -⟩ := took_statement (h.peekKey 0).2 (by rw [hg]; rfl) hrun
  exact ⟨by simp [SyntaxTree.keys, htree, hg], left, htook.holds⟩

/-- Asking for statements ends, and not without an error before the end of the script: what is asked
for is the trees, each with a significant token, then the error if there is one, and then nothing.
There is one where the tokens end in an error, and where there is none every significant token is in
a tree. -/
theorem pullAt_ends (source : String) (filename : Option String) :
    let lexed : Lexed := lexSql source filename
    let significant := lexed.tokens.filter (·.isSignificant)
    let parsed := parseSql source filename
    (∀ n, (StatementFeed.ofSource source filename).pullAt n =
        (parsed.trees.map .ok ++ parsed.error.toList.map .error)[n]?) ∧
      (∀ t ∈ parsed.trees, t.keys ≠ []) ∧
      parsed.trees.length ≤ significant.length ∧
      (lexed.error.isSome = true → parsed.error.isSome = true) ∧
      (parsed.error = none → lexed.error = none ∧ parsed.trees.flatMap (·.keys) = significant) := by
  intro lexed significant parsed
  have hkeys : ∀ t ∈ parsed.trees, t.keys ≠ [] :=
    statementsUpTo_keys _ (TokenStream.holds_ofLexed lexed)
  obtain ⟨left, hcovers⟩ := parseTokens_covers lexed
  have hcovers : Covers parsed (groupsOf lexed.tokens) lexed.error left := hcovers
  have hsplit : parsed.trees.flatMap (·.keys) ++ left.filterMap (·.key?) = significant := by
    rw [flatMap_keys, ← List.filterMap_append, ← hcovers.groups_eq]
    exact filterMap_key_groupsAfter [] lexed.tokens
  refine ⟨StatementFeed.pullAt_eq lexed, hkeys, ?_, fun herror => ?_, fun hnone => ?_⟩
  · have hpos : ∀ k ∈ parsed.trees.map (·.keys.length), 1 ≤ k := by
      intro k hk
      obtain ⟨t, ht, rfl⟩ := List.mem_map.1 hk
      exact List.length_pos_iff.2 (hkeys t ht)
    have hlength := congrArg List.length hsplit
    rw [List.length_append] at hlength
    calc parsed.trees.length = (parsed.trees.map (·.keys.length)).length := by simp
      _ ≤ (parsed.trees.map (·.keys.length)).sum := List.length_le_sum_of_one_le _ hpos
      _ = (parsed.trees.flatMap (·.keys)).length := List.length_flatMap.symm
      _ ≤ significant.length := by omega
  · -- without an error of its own, reading has come to the end of the tokens
    cases hp : parsed.error with
    | some e => rfl
    | none =>
      rw [(hcovers.finished hp).1] at herror
      cases herror
  · obtain ⟨hlexed, hleft⟩ := hcovers.finished hnone
    refine ⟨hlexed, ?_⟩
    have hempty : left.filterMap (·.key?) = [] := by
      cases left with
      | nil => rfl
      | cons g after =>
        have hg : g.key? = none := hleft g rfl
        obtain rfl := after_of_trailing hcovers.groups_eq hg
        simp [hg]
    rw [← hsplit, hempty, List.append_nil]

end SqlDoc

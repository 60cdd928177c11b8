/-
# The error of the grammar and the error that ends the tokens

Reading stops where no significant token is left, or where a rule gives up (`Stop`). The error of the
rule is over the next token that has not been taken. It is reported, unless reading has noticed that
the tokens end in an error of their own; and since rules look ahead, that may be so before the last
token has been taken. But they do not look far, so then at most one token is left, or all that are
left are words that may stand before a method (`parseSql_stop`).

Key definitions: `Stop`, `ParseState.stopUpTo`, `stopSql`.
Key theorems: `ParseState.stopUpTo_stops`, `parseSql_stop`.
-/
import SqlDoc.Proofs.Sql.ReservedWords
import SqlDoc.Proofs.Syntax.Feed
import SqlDoc.Proofs.Syntax.Stopping

namespace SqlDoc

/-- Where reading stops: the error of the rule that has given up, if one has, and the place that
reading has come to. -/
structure Stop where
  error : Option SyntaxError
  state : ParseState

namespace Stop

/-- The significant tokens that have not been taken. -/
def left (stop : Stop) : List SqlToken :=
  stop.state.stream.allGroups.filterMap (·.key?)

def report (stop : Stop) : Option ParseError :=
  (stop.state.stream.error.map .lex).or (stop.error.map .grammar)

/-- Reading has stopped at a reach: at the end if no rule has given up, and else where a rule may give
up. If it has stopped at the end, it has noticed that. -/
structure At (groups : List SqlGroup) (error : Option LexError) (stop : Stop) (q : Reach) :
    Prop where
  reached : stop.state.Reached groups error q
  noticed : keyAt groups q.taken = none → stop.state.stream.exhausted = true
  ended : stop.error = none → keyAt groups q.taken = none
  isOver : ∀ e, stop.error = some e → q.MayStop groups ∧ e.IsOver (keyAt groups q.taken)

end Stop

namespace ParseState

/-- Where reading stops that reads at most `n` statements. -/
def stopUpTo : Nat → ParseState → Stop
  | 0, s => { error := none, state := s }
  | n + 1, s =>
    match s.key 0 with
    | (none, s) => { error := none, state := s }
    | (some _, s) =>
      match GrammarRule.statement.run s.openNode with
      | (.error e, s) => { error := some e, state := s }
      | (.ok (), s) => stopUpTo n s

end ParseState

/-- A statement leaves fewer significant tokens, and no more looked at than the next two groups. -/
theorem reached_statement {groups : List SqlGroup} {error : Option LexError}
    {s next : ParseState} {p : Reach} {result : Except SyntaxError Unit}
    (hs : s.Reached groups error p) (hp : p.Near)
    (hsome : (glanceAt groups p.taken).isSome = true)
    (hrun : GrammarRule.statement.run s.openNode = (result, next)) :
    ∃ q, next.Reached groups error q ∧ q.EndsWith groups (Reach.MayStop groups) (fun _ q =>
      q.Near ∧ keyedFrom groups q.taken < keyedFrom groups p.taken) next result := by
  have hopen : s.openNode.Reached groups error p :=
    ⟨⟨hs.place.holds, hs.place.started⟩, hs.noticed⟩
  obtain ⟨q, hq, hends⟩ := reaches_run hopen (GrammarRule.reaches_statement hp hsome) hrun
  refine ⟨q, hq, ?_⟩
  cases result with
  | error e => exact hends
  | ok =>
    refine ⟨hends, ?_⟩
    have hlt : p.taken < groups.length := by
      by_contra hge
      simp [glanceAt, keyAt, Nat.le_of_not_lt hge] at hsome
    have hholds := hs.place.holds
    rw [List.drop_eq_getElem_cons hlt] at hholds
    have hkey : groups[p.taken].key?.isSome = true := by
      simpa [glanceAt, keyAt, hlt] using hsome
    obtain ⟨taken, left, htook, -, hfewer⟩ := took_statement hholds hkey hrun
    have hleft : left = groups.drop q.taken :=
      htook.holds.allGroups.symm.trans hq.place.holds.allGroups
    rwa [← List.drop_eq_getElem_cons hlt, hleft] at hfewer

namespace ParseState

/-- Reading that may go on for more statements than there are significant tokens stops at the end or
where a rule may give up, and reports its error. -/
theorem stopUpTo_stops {groups : List SqlGroup} {error : Option LexError} (n : Nat)
    {s : ParseState} {p : Reach} (hs : s.Reached groups error p) (hp : p.Near)
    (hn : keyedFrom groups p.taken < n) :
    (s.statementsUpTo n).error = (s.stopUpTo n).report ∧
      ∃ q, (s.stopUpTo n).At groups error q := by
  induction n generalizing s p with
  | zero => omega
  | succ n ih =>
    obtain ⟨hglance, hlooked⟩ := hs.key 0
    have hnoticed := hs.place.holds.exhausted_of_peekKey
    rw [Nat.add_zero] at hglance
    unfold statementsUpTo stopUpTo
    cases hkey : s.key 0 with
    | mk key s' =>
      rw [hkey] at hglance hlooked
      cases key with
      | none =>
        have hnone : keyAt groups p.taken = none := Option.map_eq_none_iff.1 hglance.symm
        refine ⟨by simp [Stop.report], p.look 0, hlooked, fun _ => ?_, fun _ => hnone, ?_⟩
        · have hnext : s' = (s.key 0).2 := by rw [hkey]
          rw [hnext]
          exact hnoticed (congrArg Prod.fst hkey)
        · intro e he
          cases he
      | some t =>
        dsimp only
        have hsome : (glanceAt groups (p.look 0).taken).isSome = true :=
          hglance ▸ rfl
        cases hrun : GrammarRule.statement.run s'.openNode with
        | mk result next =>
          obtain ⟨q, hq, hends⟩ := reached_statement hlooked (hp.look Nat.two_pos) hsome hrun
          cases result with
          | ok =>
            obtain ⟨hnear, hfewer⟩ := hends
            exact ih hq hnear (Nat.lt_of_lt_of_le hfewer (Nat.le_of_lt_succ hn))
          | error e =>
            obtain ⟨hstop, hover, hend⟩ := hends
            refine ⟨?_, q, hq, hend, ?_, ?_⟩
            · cases hlex : next.stream.error <;> simp [Stop.report, hlex]
            · intro he
              cases he
            · rintro e ⟨⟩
              exact ⟨hstop, hover⟩

end ParseState

def stopSql (source : String) (filename : Option String := none) : Stop :=
  let start := ParseState.ofLexed (lexSql source filename)
  start.stopUpTo (start.stream.remaining + 1)

theorem filterMap_key_drop (tokens : List SqlToken) (n : Nat) :
    ((groupsOf tokens).drop n).filterMap (·.key?) =
      (tokens.filter (·.isSignificant)).drop n := by
  have hafter (leading : List SqlToken) : ((groupsAfter leading tokens).drop n).filterMap (·.key?) =
      (tokens.filter (·.isSignificant)).drop n := by
    fun_induction groupsAfter leading tokens generalizing n with
    | case1 => simp
    | case2 first rest => cases n <;> simp [TokenGroup.key?]
    | case3 leading t tokens ht ih =>
      rw [List.filter_cons_of_pos ht]
      cases n with
      | zero => exact congrArg (t :: ·) (filterMap_key_groupsAfter [] tokens)
      | succ n => exact ih n
    | case4 leading t tokens ht ih =>
      rw [List.filter_cons_of_neg ht]
      exact ih n
  exact hafter []

theorem not_isStraySelf {source : String} {filename : Option String} {t : SqlToken}
    (h : t ∈ (lexSql source filename).tokens) : t.glance.isStraySelf = false := by
  rw [Bool.eq_false_iff]
  intro hstray
  have hkind : t.kind = .reserved := by
    revert hstray
    cases hkind : t.kind <;> simp [Glance.isStraySelf, Token.glance, hkind, SqlKind.isWord,
      SqlKind.isName]
  have hvalue : t.value = "SELF" := by
    simp [Glance.isStraySelf, Token.glance] at hstray
    exact hstray.1.2
  have hreserved := lexSql_reserved h hkind
  rw [hvalue] at hreserved
  exact absurd hreserved (by decide)

theorem Stop.At.near_end {source : String} {filename : Option String} {stop : Stop} {q : Reach}
    {error : Option LexError} (h : stop.At (groupsOf (lexSql source filename).tokens) error q)
    {e : SyntaxError} (he : stop.error = some e) (hend : stop.state.stream.exhausted = true) :
    let left := ((lexSql source filename).tokens.filter (·.isSignificant)).drop q.taken
    left.length ≤ 1 ∨ ∀ t ∈ left, t.glance.isMethodPrefix = true := by
  intro left
  have hglance (n : Nat) : glanceAt (groupsOf (lexSql source filename).tokens) n =
      ((lexSql source filename).tokens.filter (·.isSignificant))[n]?.map Token.glance :=
    congrArg (Option.map Token.glance) (key_groupsAfter [] _ n)
  have hleft (i : Nat) : glanceAt (groupsOf (lexSql source filename).tokens) (q.taken + i) =
      left[i]?.map Token.glance := by
    rw [hglance, List.getElem?_drop]
  -- the look that noticed the end went past all tokens that are left
  have hseen : q.taken + left.length < q.seen ∨ left = [] := by
    obtain ⟨n, hn, hnone⟩ := h.reached.noticed hend
    rw [hglance, Option.map_eq_none_iff, List.getElem?_eq_none_iff] at hnone
    rw [← List.length_eq_zero_iff, List.length_drop]
    omega
  rcases hseen with hseen | hnil
  · rcases (h.isOver e he).1 with hnear | hpassed | hstray
    · left
      unfold Reach.Near at hnear
      omega
    · right
      intro t ht
      obtain ⟨i, hi, rfl⟩ := List.getElem_of_mem ht
      have hword := hpassed (q.taken + i) (Nat.le_add_right ..) (by omega)
      rwa [hleft, List.getElem?_eq_getElem hi] at hword
    · exfalso
      rw [← Nat.add_zero q.taken, hleft] at hstray
      cases hfirst : left[0]? with
      | none => simp [hfirst] at hstray
      | some t =>
        have hmem : t ∈ (lexSql source filename).tokens :=
          (List.mem_filter.1 (List.mem_of_mem_drop (List.mem_of_getElem? hfirst))).1
        rw [hfirst] at hstray
        exact absurd hstray (Bool.eq_false_iff.1 (not_isStraySelf hmem))
  · left
    rw [hnil]
    exact Nat.zero_le _

/-- Reading stops at the end of a script or where a rule gives up, and then the error is over the
first of the tokens that are left. At the end the error that ends the tokens is reported if there is
one. It is reported before the end only if at most one token is left or all that are left are words
that may stand before a method. -/
theorem parseSql_stop (source : String) (filename : Option String) :
    let lexed : Lexed := lexSql source filename
    let stop := stopSql source filename
    let error := (parseSql source filename).error
    stop.left <:+ lexed.tokens.filter (·.isSignificant) ∧
      (stop.error = none → stop.left = [] ∧ error = lexed.error.map .lex) ∧
      ∀ e, stop.error = some e → e.IsOver stop.left.head? ∧
        (stop.left = [] → error = some (lexed.error.elim (.grammar e) .lex)) ∧
        (error = some (.grammar e) ∨
          (stop.left.length ≤ 1 ∨ ∀ t ∈ stop.left, t.glance.isMethodPrefix = true) ∧
            ∃ l, lexed.error = some l ∧ error = some (.lex l)) := by
  intro lexed stop error
  have hstart : (ParseState.ofLexed lexed).Reached (groupsOf lexed.tokens) lexed.error ⟨0, 0⟩ :=
    ⟨⟨TokenStream.holds_ofLexed lexed, rfl⟩, fun he => nomatch he⟩
  obtain ⟨herror, q, hq⟩ : error = stop.report ∧ ∃ q, stop.At (groupsOf lexed.tokens) lexed.error q :=
    ParseState.stopUpTo_stops _ hstart (Nat.zero_le _)
      (Nat.lt_succ_of_le hstart.place.holds.remaining.ge)
  have hleft : stop.left = (lexed.tokens.filter (·.isSignificant)).drop q.taken := by
    rw [← filterMap_key_drop, ← hq.reached.place.holds.allGroups]
    rfl
  have hhead : keyAt (groupsOf lexed.tokens) q.taken = stop.left.head? := by
    rw [hleft, List.head?_drop]
    exact key_groupsAfter [] lexed.tokens q.taken
  have hnotices := hq.reached.place.holds.notices
  have hended (hnil : stop.left = []) : stop.state.stream.error = lexed.error :=
    (hnotices.ended (hq.noticed (by rw [hhead, hnil]; rfl))).2
  refine ⟨hleft ▸ List.drop_suffix .., fun hnone => ?_, fun e he => ⟨?_, fun hnil => ?_, ?_⟩⟩
  · have hnil : stop.left = [] := List.head?_eq_none_iff.1 (hhead.symm.trans (hq.ended hnone))
    refine ⟨hnil, ?_⟩
    rw [herror, Stop.report, hended hnil, hnone]
    exact Option.or_none
  · exact hhead ▸ (hq.isOver e he).2
  · rw [herror, Stop.report, hended hnil, he]
    cases lexed.error <;> rfl
  · rw [herror, Stop.report, he]
    cases hend : stop.state.stream.exhausted with
    | false =>
      rw [(hnotices.going hend).2.1]
      exact Or.inl rfl
    | true =>
      rw [(hnotices.ended hend).2, hleft]
      cases hlex : lexed.error with
      | none => exact Or.inl rfl
      | some l => exact Or.inr ⟨hq.near_end he hend, l, rfl, rfl⟩

/-- To see that a `/` is alone on its line the next token is looked for. So the error of a comment
that is not closed is reported for a package that has no `END` before the `/`. -/
theorem not_reports_grammar_before_end : ¬ ∀ (source : String) (filename : Option String)
    (e : SyntaxError) (t : SqlToken) (left : List SqlToken),
    (stopSql source filename).error = some e → (stopSql source filename).left = t :: left →
      (parseSql source filename).error = some (.grammar e) := by
  intro h
  let source := "CREATE PACKAGE p IS\n/\n/* c"
  have hsome : (stopSql source none).error.isSome = true := by decide +kernel
  have hleft : (stopSql source none).left.map (·.text) = ["/"] := by decide +kernel
  have herror : (parseSql source none).error =
      some (.lex (.unterminated "block comment" { line := 3, column := 1 })) := by decide +kernel
  obtain ⟨e, he⟩ := Option.isSome_iff_exists.1 hsome
  obtain ⟨t, left, hcons, -⟩ := List.map_eq_cons_iff.1 hleft
  have hgrammar := h source none e t left he hcons
  rw [herror] at hgrammar
  cases hgrammar

end SqlDoc

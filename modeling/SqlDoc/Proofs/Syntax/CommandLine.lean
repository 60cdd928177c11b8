/-
# A command ends with its line

The rule for a command takes tokens as long as none of them begins a line (`reaches_command`), so no
line end stands between two tokens of a command, and the next token of the script is on a later line
(`parseSql_command`). A string, a name in quotes or a comment that is begun on the line of a command
may itself go on after it, and then all of it belongs to the command: nothing asks whether a token
ends on the line on which it begins.

Key definitions: `LinePart`, `LineFrom`.
Key theorems: `reaches_command`, `command_line`, `parseSql_command`.
-/
import SqlDoc.Proofs.Sql.LineEnds
import SqlDoc.Proofs.Syntax.Coverage
import SqlDoc.Proofs.Syntax.Reaching
import SqlDoc.Proofs.Syntax.Shape
import SqlDoc.Proofs.Syntax.StatementEnds

namespace SqlDoc

/-- From the group with index `first` up to the one with index `stop` there are significant tokens,
of which only the first may begin a line. -/
structure LinePart (groups : List SqlGroup) (first stop : Nat) : Prop where
  lt : first < stop
  keyed : ∀ i, first ≤ i → i < stop → (glanceAt groups i).isSome = true
  unbroken : ∀ i, first < i → i < stop → startsLineAt groups i = false

/-- What comes after them begins a line or is the end. -/
structure LineFrom (groups : List SqlGroup) (first stop : Nat) : Prop
    extends LinePart groups first stop where
  ends : glanceAt groups stop = none ∨ startsLineAt groups stop = true

namespace LinePart

variable {groups : List SqlGroup} {first stop : Nat}

theorem single (h : (glanceAt groups first).isSome = true) : LinePart groups first (first + 1) where
  lt := Nat.lt_succ_self first
  keyed i hi hlt := by
    obtain rfl : i = first := by omega
    exact h
  unbroken i hi hlt := by omega

theorem succ (h : LinePart groups first stop) (hsome : (glanceAt groups stop).isSome = true)
    (hline : startsLineAt groups stop = false) : LinePart groups first (stop + 1) where
  lt := Nat.lt_succ_of_lt h.lt
  keyed i hi hlt := by
    by_cases hbefore : i < stop
    · exact h.keyed i hi hbefore
    · obtain rfl : i = stop := by omega
      exact hsome
  unbroken i hi hlt := by
    by_cases hbefore : i < stop
    · exact h.unbroken i hi hbefore
    · obtain rfl : i = stop := by omega
      exact hline

theorem stop_le (h : LinePart groups first stop) : stop ≤ groups.length := by
  have hlt := h.lt
  have hlast := h.keyed (stop - 1) (by omega) (by omega)
  by_contra hgt
  have hnone : groups[stop - 1]? = none := List.getElem?_eq_none (by omega)
  rw [glanceAt, keyAt, hnone] at hlast
  cases hlast

end LinePart

namespace GrammarRule

variable {groups : List SqlGroup} {E : Reach → Prop} {p : Reach}

/-- A line is taken to its end. -/
theorem reaches_skipLine (h : (glanceAt groups p.taken).isSome = true) :
    skipLine.Reaches groups E (fun _ q => LineFrom groups p.taken q.taken) p := by
  refine Reaches.bind (P := fun _ q => q.taken = p.taken + 1)
    (reaches_take (placeAfter_of_isSome h)) fun _ q hq => ?_
  refine reaches_repeatWhile (I := fun q => LinePart groups p.taken q.taken) (fun q hpart => ?_)
    (hq ▸ .single h)
  refine ((peeks_atEnd Nat.one_pos).or (peeks_startsLine Nat.one_pos)).ite (fun htest w hw => ?_)
    fun htest w hw => ?_
  · show LineFrom groups p.taken w.taken
    rw [hw.taken]
    exact ⟨hpart, by simpa using htest⟩
  · obtain ⟨hsome, hline⟩ := Bool.or_eq_false_iff.1 htest
    have hsome : (glanceAt groups q.taken).isSome = true := by simpa using hsome
    refine Reaches.bind (P := fun _ v => v.taken = q.taken + 1) (reaches_take ?_) fun _ v hv => ?_
    · rw [Reach.take_taken, hw.taken]
      exact placeAfter_of_isSome hsome
    · show LinePart groups p.taken v.taken ∧ keyedFrom groups v.taken < keyedFrom groups q.taken
      rw [hv]
      exact ⟨hpart.succ hsome hline, keyedFrom_succ_lt hsome⟩

/-- A command is named and then taken to the end of its line. -/
theorem reaches_command (h : (glanceAt groups p.taken).isSome = true) :
    command.Reaches groups E (fun _ q => LineFrom groups p.taken q.taken) p := by
  refine (peeks_key Nat.one_pos).bind fun q hq => ?_
  rw [← hq.taken] at h ⊢
  cases glanceAt groups (q.taken + 0) with
  | none => exact reaches_skipLine h
  | some t => exact reaches_skipLine h

end GrammarRule

/-! ### The groups of a command -/

/-- The form of a statement is known from the kind of its tree. -/
theorem statement_form {s next : ParseState}
    (hrun : GrammarRule.statement.run s.openNode = (.ok (), next)) :
    ∃ form mid, GrammarRule.statementForm.run s.openNode = (.ok form, mid) ∧
      (GrammarRule.statementInside form).run
        { mid with current := { mid.current with kind := form.kind } } = (.ok (), next) ∧
      next.current.kind = form.kind := by
  obtain ⟨form, mid, hform, hinside⟩ := GrammarRule.ok_of_statement hrun
  exact ⟨form, mid, hform, hinside,
    (leaves_run (GrammarRule.adds_statementInside form _) hinside).kind⟩

theorem form_of_kind {form : StatementForm} (h : form.kind = .command) : form = .command := by
  cases form with
  | command => rfl
  | create | terminator | unknown => cases h

/-- The groups of a command that is read are those of its line. -/
theorem command_line {groups : List SqlGroup} {error : Option LexError} {s next : ParseState}
    {n : Nat} (hs : s.At groups error n) (hkey : (glanceAt groups n).isSome = true)
    (hrun : GrammarRule.statement.run s.openNode = (.ok (), next))
    (hkind : next.current.kind = .command) :
    LineFrom groups n (n + next.current.toTree.groups.length) := by
  have hopen : s.openNode.At groups error n := ⟨hs.holds, hs.started⟩
  obtain ⟨taken, left, htook, -⟩ := took_of_run hopen.holds hrun
  obtain ⟨form, mid, hform, hinside, hsame⟩ := statement_form hrun
  obtain rfl := form_of_kind (hsame.symm.trans hkind)
  have hlooks : GrammarRule.statementForm.Heeds groups true _ n := GrammarRule.heeds_statementForm
  obtain ⟨m, ⟨rfl, -⟩, hlooked⟩ := heeds_run hopen hlooks hform
  have hmid : ({ mid with current := { mid.current with kind := .command } } :
      ParseState).Reached groups error ⟨m, groups.length + 1⟩ := by
    refine ⟨⟨hlooked.place.holds, hlooked.place.started⟩, fun _ => ⟨groups.length, ?_, ?_⟩⟩
    · exact Nat.lt_succ_self _
    · simp [glanceAt, keyAt]
  obtain ⟨q, hq, hline⟩ := reaches_run (E := fun _ => True) hmid
    (GrammarRule.reaches_command hkey) hinside
  have hline : LineFrom groups m q.taken := hline
  have hle := hline.stop_le
  have hleft : left = groups.drop q.taken :=
    htook.holds.allGroups.symm.trans hq.place.holds.allGroups
  have hlength := congrArg List.length htook.groups_eq
  rw [hleft, List.length_append, List.length_drop, List.length_drop] at hlength
  have htree : next.current.toTree.groups = taken := htook.current
  have hlt := hline.lt
  rw [htree, show m + taken.length = q.taken by omega]
  exact hline

theorem statementsUpTo_command {groups : List SqlGroup} {error : Option LexError} (count : Nat)
    {s : ParseState} {n : Nat} (hs : s.At groups error n) {before after : List SyntaxTree}
    {t : SyntaxTree} (h : (s.statementsUpTo count).trees = before ++ t :: after)
    (hkind : t.kind = .command) :
    LineFrom groups (n + (before.flatMap (·.groups)).length)
      (n + (before.flatMap (·.groups)).length + t.groups.length) := by
  refine ParseState.split_statementsUpTo
    (I := fun before s => s.At groups error (n + (before.flatMap (·.groups)).length))
    (Q := fun before t => t.kind = .command → LineFrom groups
      (n + (before.flatMap (·.groups)).length)
      (n + (before.flatMap (·.groups)).length + t.groups.length))
    (@fun earlier _ _ hs hkey hrun => ?_) hs h hkind
  obtain ⟨hglance, hlooked⟩ := hs.key 0
  have hsome : (glanceAt groups (n + (earlier.flatMap (·.groups)).length)).isSome = true := by
    rw [Nat.add_zero] at hglance
    rwa [← hglance, Option.isSome_map]
  refine ⟨command_line hlooked hsome hrun, ?_⟩
  have hnext := (heeds_statement hlooked hrun).1
  rwa [List.flatMap_append, List.length_append, List.flatMap_singleton, ← Nat.add_assoc]

/-! ### The tokens of a command -/

/-- The tokens of a tree from the first significant one on. -/
def SyntaxTree.code (t : SyntaxTree) : List SqlToken :=
  match t.groups with
  | [] => []
  | g :: more => g.key?.toList ++ more.flatMap (·.tokens)

theorem SyntaxTree.text_eq_code (t : SyntaxTree) : t.text = tokensText t.code := by
  rw [text, code]
  cases t.groups with
  | nil => rfl
  | cons g more =>
    rw [textFromKey, join_text, tokensText_append]
    congr 1
    cases g <;> simp [TokenGroup.textFromKey, TokenGroup.key?, tokensText]

/-- The groups of a line: only the first may have a line end before its significant token, and the
next group that has one does. -/
structure LineGroups (line rest : List SqlGroup) : Prop where
  ne_nil : line ≠ []
  keyed : ∀ g ∈ line, g.key?.isSome = true
  unbroken : ∀ g ∈ line.tail, ∀ v ∈ g.leading, v.kind ≠ .newline
  ends : ∀ g ∈ rest.head?, g.key?.isSome = true → ∃ v ∈ g.leading, v.kind = .newline

theorem LineFrom.lineGroups {before own rest : List SqlGroup}
    (h : LineFrom (before ++ (own ++ rest)) before.length (before.length + own.length)) :
    LineGroups own rest := by
  have hlt := h.lt
  have hat (i : Nat) : (before ++ (own ++ rest))[before.length + i]? = (own ++ rest)[i]? := by
    rw [List.getElem?_append_right (Nat.le_add_right ..), Nat.add_sub_cancel_left]
  have hkeyed : ∀ i (hi : i < own.length), own[i].key?.isSome = true := by
    intro i hi
    have hsome := h.keyed (before.length + i) (Nat.le_add_right ..) (by omega)
    rwa [glanceAt, keyAt, hat, List.getElem?_append_left hi, List.getElem?_eq_getElem hi,
      Option.bind_some, Option.isSome_map] at hsome
  refine ⟨List.ne_nil_of_length_pos (by omega), ?_, ?_, ?_⟩
  · intro g hg
    obtain ⟨i, hi, rfl⟩ := List.getElem_of_mem hg
    exact hkeyed i hi
  · intro g hg v hv hnewline
    obtain ⟨i, hi, rfl⟩ := List.getElem_of_mem hg
    rw [List.length_tail] at hi
    rw [List.getElem_tail] at hv
    -- a line end before the token would make it begin a line
    have hbegins : beginsLine own[i + 1] = true := by
      rw [beginsLine, hkeyed _ (by omega), Bool.true_and]
      exact List.any_eq_true.2 ⟨v, hv, by simpa using hnewline⟩
    have hline := h.unbroken (before.length + (i + 1)) (by omega) (by omega)
    rw [startsLineAt, hat, List.getElem?_append_left (by omega),
      List.getElem?_eq_getElem (by omega), Option.any_some, hbegins] at hline
    simp at hline
  · intro g hg hkey
    have hpos : before.length + own.length ≠ 0 := by omega
    have hend := h.ends
    rw [glanceAt, keyAt, startsLineAt, hat, List.getElem?_append_right (Nat.le_refl _),
      Nat.sub_self, ← List.head?_eq_getElem?, Option.mem_def.1 hg, decide_eq_false hpos,
      Bool.false_or, Option.any_some, beginsLine, hkey, Bool.true_and] at hend
    rcases hend with hnone | hbegins
    · obtain ⟨k, hk⟩ := Option.isSome_iff_exists.1 hkey
      simp [hk] at hnone
    · simpa using hbegins

/-- Between the significant tokens of a line there is no line end, and none of them is one. -/
theorem LineGroups.code {t : SyntaxTree} {rest : List SqlGroup} (h : LineGroups t.groups rest)
    (hkeys : ∀ g ∈ t.groups, ∀ k ∈ g.key?, k.isSignificant = true) :
    t.groups.flatMap (·.tokens) = t.leadingTrivia ++ t.code ∧ t.code ≠ [] ∧
      ∀ v ∈ t.code, v.kind ≠ .newline := by
  have hkey {k : SqlToken} (hk : k.isSignificant = true) : k.kind ≠ .newline := by
    intro hkind
    rw [Token.isSignificant, Token.trivia, hkind] at hk
    cases hk
  obtain ⟨g, more, hgroups⟩ := List.exists_cons_of_ne_nil h.ne_nil
  have hunbroken := h.unbroken
  have hkeyed := h.keyed g (hgroups ▸ List.mem_cons_self)
  rw [hgroups] at hkeys hunbroken
  rw [SyntaxTree.leadingTrivia, SyntaxTree.code, hgroups]
  cases g with
  | trailing => cases hkeyed
  | keyed leading key =>
    refine ⟨by simp [TokenGroup.leading, TokenGroup.key?], List.cons_ne_nil _ _, ?_⟩
    refine List.forall_mem_cons.2 ⟨hkey (hkeys _ List.mem_cons_self key rfl), fun v hv => ?_⟩
    obtain ⟨g, hg, hv⟩ := List.mem_flatMap.1 hv
    cases g with
    | trailing first rest => exact hunbroken _ hg v hv
    | keyed leading k =>
      rcases List.mem_append.1 hv with hv | hv
      · exact hunbroken _ hg v hv
      · rw [List.mem_singleton.1 hv]
        exact hkey (hkeys _ (List.mem_cons_of_mem _ hg) k rfl)

/-- The next significant token after groups of a script is that of the next group. -/
theorem find?_significant {tokens : List SqlToken} {before after : List SqlGroup} {u : SqlToken}
    (h : groupsOf tokens = before ++ after)
    (hu : (after.flatMap (·.tokens)).find? (·.isSignificant) = some u) :
    ∃ leading rest, after = .keyed leading u :: rest := by
  cases after with
  | nil => cases hu
  | cons g rest =>
    have hmem : g ∈ groupsOf tokens := by
      rw [h]
      exact List.mem_append_right _ List.mem_cons_self
    obtain ⟨hleading, hkey⟩ := groupsAfter_leading (fun _ ht => absurd ht List.not_mem_nil) g hmem
    have hnone : g.leading.find? (·.isSignificant) = none :=
      List.find?_eq_none.2 fun v hv => by simp [hleading v hv]
    cases g with
    | keyed leading key =>
      have hnone : leading.find? (·.isSignificant) = none := hnone
      have hfound := hkey key rfl
      have hu : key = u := by simpa [List.find?_append, hnone, hfound] using hu
      exact ⟨leading, rest, by rw [hu]⟩
    | trailing first more =>
      obtain rfl := after_of_trailing h rfl
      rw [List.flatMap_singleton] at hu
      cases hnone.symm.trans hu

/-- From its first significant token on, a command has no line end between two of its tokens: its
text is one line unless a string, a name in quotes or a comment in it goes on after a line end. The
next significant token of the script is on a later line. -/
theorem parseSql_command {source : String} {filename : Option String}
    {before after : List SyntaxTree} {t : SyntaxTree}
    (h : (parseSql source filename).trees = before ++ t :: after) (hkind : t.kind = .command) :
    t.text = tokensText t.code ∧
      (∀ v ∈ t.code, v.kind ≠ .newline) ∧
      (Unbroken t.text ∨ ∃ v ∈ t.code, ¬ Unbroken v.text ∧
        v.kind ∈ [SqlKind.string, .quotedIdentifier, .blockComment, .docComment]) ∧
      ∃ last rest, t.code.getLast? = some last ∧
        (lexSql source filename).tokens =
          (before.flatMap (·.groups)).flatMap (·.tokens) ++ (t.leadingTrivia ++ t.code) ++ rest ∧
        ∀ u, rest.find? (·.isSignificant) = some u → last.span.stop.line < u.span.start.line := by
  have hstart : (ParseState.ofLexed (lexSql source filename)).At
      (groupsOf (lexSql source filename).tokens) (lexSql source filename).error 0 :=
    ⟨TokenStream.holds_ofLexed _, rfl⟩
  have hline := statementsUpTo_command _ hstart h hkind
  obtain ⟨left, hcovers⟩ := parseTokens_covers (lexSql source filename)
  have htrees : (parseTokens (lexSql source filename)).trees = before ++ t :: after := h
  have hgroups : groupsOf (lexSql source filename).tokens =
      before.flatMap (·.groups) ++ (t.groups ++ (after.flatMap (·.groups) ++ left)) := by
    rw [hcovers.groups_eq, htrees, List.flatMap_append, List.flatMap_cons, List.append_assoc,
      List.append_assoc]
  rw [hgroups, Nat.zero_add] at hline
  have hlines := hline.lineGroups
  have hkeys : ∀ g ∈ t.groups, ∀ k ∈ g.key?, k.isSignificant = true := by
    intro g hg
    have hmem : g ∈ groupsOf (lexSql source filename).tokens := by
      rw [hgroups]
      exact List.mem_append_right _ (List.mem_append_left _ hg)
    exact (groupsAfter_leading (fun _ ht => absurd ht List.not_mem_nil) g hmem).2
  obtain ⟨htokens, hne, hnewline⟩ := hlines.code hkeys
  obtain ⟨code, last, hcode⟩ : ∃ code last, t.code = code ++ [last] :=
    ⟨_, _, (List.dropLast_concat_getLast hne).symm⟩
  have hall : (lexSql source filename).tokens =
      (before.flatMap (·.groups)).flatMap (·.tokens) ++ (t.leadingTrivia ++ t.code) ++
        (after.flatMap (·.groups) ++ left).flatMap (·.tokens) := by
    rw [← tokens_groupsOf (lexSql source filename).tokens, hgroups, ← htokens,
      List.flatMap_append, List.flatMap_append, List.append_assoc]
  refine ⟨t.text_eq_code, hnewline, ?_, last, _, by rw [hcode, List.getLast?_concat], hall, ?_⟩
  · by_cases hwithin : ∀ v ∈ t.code, Unbroken v.text
    · left
      rw [t.text_eq_code]
      exact unbroken_tokensText hwithin
    · right
      obtain ⟨v, hv, hbroken⟩ : ∃ v, v ∈ t.code ∧ ¬ Unbroken v.text := by
        simpa only [not_forall, exists_prop] using hwithin
      have hmem : v ∈ (lexSql source filename).tokens := by
        rw [hall]
        exact List.mem_append_left _ (List.mem_append_right _ (List.mem_append_right _ hv))
      have hspans := (lexSql_lineEnds hmem).resolve_right hbroken
      have hnot := hnewline v hv
      refine ⟨v, hv, hbroken, ?_⟩
      cases hvkind : v.kind <;> simp_all [SqlKind.spansLines]
  · intro u hu
    rw [← List.append_assoc] at hgroups
    obtain ⟨leading, rest, hrest⟩ := find?_significant hgroups hu
    obtain ⟨v, hv, hvkind⟩ := hlines.ends (.keyed leading u) (by rw [hrest]; rfl) rfl
    have hsplit : (lexSql source filename).tokens =
        ((before.flatMap (·.groups)).flatMap (·.tokens) ++ (t.leadingTrivia ++ code)) ++
          last :: (leading ++ u :: rest.flatMap (·.tokens)) := by
      rw [hall, hrest, hcode]
      simp
    exact lexSql_later hsplit ⟨v, hv, hvkind⟩

/-- The apostrophe in a command begins a string that goes on to the next one. -/
theorem command_holds_string :
    let source := "PROMPT it's\nPROMPT that's\nSHOW x\n"
    ∃ t u, (parseSql source none).trees = [t, u] ∧ t.kind = .command ∧
      t.text = "PROMPT it's\nPROMPT that's" ∧ u.kind = .command ∧ u.text = "SHOW x" := by
  intro source
  have hlist : (parseSql source none).trees.map (fun t => (t.kind, t.text)) =
      [(.command, "PROMPT it's\nPROMPT that's"), (.command, "SHOW x")] := by decide +kernel
  obtain ⟨t, more, htrees, ht, hmore⟩ := List.map_eq_cons_iff.1 hlist
  obtain ⟨u, rfl, hu⟩ := List.map_eq_singleton_iff.1 hmore
  obtain ⟨hkind, htext⟩ := Prod.mk.inj ht
  obtain ⟨hkind', htext'⟩ := Prod.mk.inj hu
  exact ⟨t, u, htrees, hkind, htext, hkind', htext'⟩

/-- The text of the command is two lines, and the command after it is on a later one. -/
theorem parseSql_command_string :
    let source := "PROMPT it's\nPROMPT that's\nSHOW x\n"
    ∃ t after, (parseSql source none).trees = [] ++ t :: after ∧ t.kind = .command ∧
      t.text = "PROMPT it's\nPROMPT that's" ∧ (∀ v ∈ t.code, v.kind ≠ .newline) ∧
      ∃ last rest, t.code.getLast? = some last ∧
        (lexSql source none).tokens = t.leadingTrivia ++ t.code ++ rest ∧
        ∀ u, rest.find? (·.isSignificant) = some u → last.span.stop.line < u.span.start.line := by
  intro source
  obtain ⟨t, u, htrees, hkind, htext, -⟩ := command_holds_string
  have htrees : (parseSql source none).trees = [] ++ t :: [u] := htrees
  obtain ⟨-, hnewline, -, last, rest, hlast, htokens, hlater⟩ := parseSql_command htrees hkind
  exact ⟨t, [u], htrees, hkind, htext, hnewline, last, rest, hlast, htokens, hlater⟩

/-- So not every command is one line. -/
theorem not_command_within_line : ¬ ∀ (source : String) (filename : Option String),
    ∀ t ∈ (parseSql source filename).trees, t.kind = .command → Unbroken t.text := by
  intro h
  obtain ⟨t, u, htrees, hkind, htext, -⟩ := command_holds_string
  have hwithin := h _ none t (htrees ▸ List.mem_cons_self) hkind
  rw [htext] at hwithin
  exact absurd (hwithin '\n' (by decide)) (by decide)

end SqlDoc

/-
# Layout does not decide what is read

A rule glances at significant tokens and asks which of them begin a line. So two runs that have the
same significant tokens ahead, beginning lines alike, stay in step (`inStep_run`): they open the
same nodes, give them the same kinds and names, and give up over the same token. Blanks, comments
and positions make no difference, and neither does trivia at the end (`parseTokens_layout`). Both
runs put their groups in the same places, so where the groups of the one are seen as those of the
other are, so are the trees (`parseTokens_alike`).

Key definitions: `lineStarts`, `Forest.bare`, `Forest.sift`, `Sight`, `InStep`.
Key theorems: `inStep_run`, `statementsUpTo_alike`, `parseTokens_alike`, `parseTokens_layout`.
-/
import SqlDoc.Proofs.Sql.Grouping
import SqlDoc.Syntax.Statement

namespace SqlDoc

/-! ### Trees without their groups -/

namespace Forest

/-- The nodes alone. -/
def bare : Forest → Forest
  | nil => nil
  | group _ rest => rest.bare
  | node kind name below rest => node kind name below.bare rest.bare

/-- The forest with each group as `view` shows it. Groups that it does not show are left out. -/
def sift (view : SqlGroup → Option SqlGroup) : Forest → Forest
  | nil => nil
  | group g rest => (view g).elim (rest.sift view) fun g => group g (rest.sift view)
  | node kind name below rest => node kind name (below.sift view) (rest.sift view)

theorem sift_append (view : SqlGroup → Option SqlGroup) (f g : Forest) :
    (f.append g).sift view = (f.sift view).append (g.sift view) := by
  induction f with
  | nil => rfl
  | group h rest ih =>
    rw [append, sift, sift, ih]
    cases view h <;> rfl
  | node kind name below rest _ ih => rw [append, sift, sift, append, ih]

/-- Where no group is shown the nodes are left. -/
theorem sift_none (f : Forest) : f.sift (fun _ => none) = f.bare := by
  induction f with
  | nil => rfl
  | group _ rest ih => exact ih
  | node kind name below rest ihbelow ihrest => rw [sift, bare, ihbelow, ihrest]

/-- An outline shows the nodes alone. -/
theorem outline_bare (f : Forest) (depth : Nat) : f.bare.outline depth = f.outline depth := by
  induction f generalizing depth with
  | nil => rfl
  | group _ rest ih => exact ih depth
  | node kind name below rest ihbelow ihrest => rw [bare, outline, outline, ihbelow, ihrest]

end Forest

/-- The kinds, the names and the nesting of the nodes of a tree. -/
def SyntaxTree.bare (t : SyntaxTree) : SyntaxTree :=
  { t with below := t.below.bare }

theorem SyntaxTree.outline_bare (t : SyntaxTree) : t.bare.outline = t.outline := by
  show (Forest.node t.kind t.name t.below .nil).bare.outline 0 = _
  exact Forest.outline_bare ..

/-- The tree with each group as `view` shows it. -/
def SyntaxTree.sift (view : SqlGroup → Option SqlGroup) (t : SyntaxTree) : SyntaxTree :=
  { t with below := t.below.sift view }

theorem SyntaxTree.sift_none (t : SyntaxTree) : t.sift (fun _ => none) = t.bare := by
  rw [sift, bare, Forest.sift_none]

namespace OpenNode

variable (view : SqlGroup → Option SqlGroup) (n child : OpenNode)

/-- The open node with each group as `view` shows it. -/
def sift : OpenNode :=
  { n with below := n.below.sift view }

theorem sift_addGroup (g : SqlGroup) :
    (n.addGroup g).sift view = (view g).elim (n.sift view) (n.sift view).addGroup := by
  rw [sift, addGroup, Forest.sift_append, Forest.sift]
  cases view g with
  | none => exact congrArg (OpenNode.mk n.kind n.name) (Forest.append_nil _)
  | some g => rfl

theorem sift_addNode : (n.addNode child).sift view = (n.sift view).addNode (child.sift view) := by
  rw [sift, addNode, Forest.sift_append]
  rfl

end OpenNode

/-! ### Significant tokens and lines -/

/-- For each significant token, whether a line end stands in the trivia just before it. `lineEnd`
tells whether one stands before the first of the tokens. -/
def lineStarts (lineEnd : Bool) : List SqlToken → List Bool
  | [] => []
  | t :: tokens =>
    if t.isSignificant then lineEnd :: lineStarts false tokens
    else lineStarts (lineEnd || t.kind = .newline) tokens

/-- The significant token of the group with index `n`. -/
abbrev keyAt (groups : List SqlGroup) (n : Nat) : Option SqlToken :=
  groups[n]?.bind (·.key?)

/-- The group has a significant token that begins a line. -/
def beginsLine (g : SqlGroup) : Bool :=
  g.key?.isSome && g.leading.any (·.kind = .newline)

/-- The significant token of each group is the next one of the tokens. -/
theorem key_groupsAfter (leading tokens : List SqlToken) (n : Nat) :
    keyAt (groupsAfter leading tokens) n = (tokens.filter (·.isSignificant))[n]? := by
  fun_induction groupsAfter leading tokens generalizing n with
  | case1 => rfl
  | case2 first rest => cases n <;> rfl
  | case3 leading t tokens ht ih =>
    rw [List.filter_cons_of_pos ht]
    cases n with
    | zero => rfl
    | succ n => exact ih n
  | case4 leading t tokens ht ih =>
    rw [List.filter_cons_of_neg ht]
    exact ih n

/-- Which groups begin a line can be read off the tokens. -/
theorem beginsLine_groupsAfter (leading tokens : List SqlToken) (n : Nat) :
    ((groupsAfter leading tokens)[n]?).any beginsLine =
      (lineStarts (leading.any (·.kind = .newline)) tokens)[n]?.getD false := by
  fun_induction groupsAfter leading tokens generalizing n with
  | case1 => rfl
  | case2 first rest => cases n <;> rfl
  | case3 leading t tokens ht ih =>
    rw [lineStarts, if_pos ht]
    cases n with
    | zero => rfl
    | succ n => exact ih n
  | case4 leading t tokens ht ih =>
    rw [lineStarts, if_neg ht, ih n, List.any_append]
    simp

/-! ### Runs in step -/

/-- How a run is looked at: the groups are seen as `view` shows them, and the tokens end in
`error`. -/
structure Sight where
  view : SqlGroup → Option SqlGroup
  error : Option LexError

variable {sight otherSight : Sight}

/-- The groups show a rule the same, and are seen alike. Whether the first begins a line is not
asked before a group has been taken. -/
structure SameAhead (sight otherSight : Sight) (started : Bool) (groups others : List SqlGroup) :
    Prop where
  key : ∀ n, (keyAt groups n).map Token.glance = (keyAt others n).map Token.glance
  line : ∀ n, started = true ∨ n ≠ 0 → groups[n]?.any beginsLine = others[n]?.any beginsLine
  seen : ∀ n : Nat, groups[n]?.bind sight.view = others[n]?.bind otherSight.view

namespace SameAhead

variable {started : Bool} {groups others : List SqlGroup}

/-- After the first group both show the same. -/
theorem tail (h : SameAhead sight otherSight started groups others) :
    SameAhead sight otherSight true groups.tail others.tail where
  key n := by
    rw [keyAt, keyAt, List.getElem?_tail, List.getElem?_tail]
    exact h.key (n + 1)
  line n _ := by
    rw [List.getElem?_tail, List.getElem?_tail]
    exact h.line (n + 1) (Or.inr n.succ_ne_zero)
  seen n := by
    rw [List.getElem?_tail, List.getElem?_tail]
    exact h.seen (n + 1)

/-- A significant token is next in both or in neither. -/
theorem isSome_key (h : SameAhead sight otherSight started groups others) (n : Nat) :
    (keyAt groups n).isSome = (keyAt others n).isSome := by
  have hkey := congrArg Option.isSome (h.key n)
  rwa [Option.isSome_map, Option.isSome_map] at hkey

/-- As many significant tokens are left. -/
theorem countP_key (h : SameAhead sight otherSight started groups others) :
    groups.countP (·.key?.isSome) = others.countP (·.key?.isSome) := by
  -- only keys matter, and those are compared by index
  have hkeys := h.isSome_key
  clear h
  induction groups generalizing others with
  | nil =>
    refine (List.countP_eq_zero.2 fun g hg => ?_).symm
    obtain ⟨n, hn⟩ := List.mem_iff_getElem?.1 hg
    have hkey := hkeys n
    rw [keyAt, keyAt, hn, Option.bind_some] at hkey
    simp [← hkey]
  | cons g groups ih =>
    cases others with
    | nil =>
      refine List.countP_eq_zero.2 fun g' hg => ?_
      obtain ⟨n, hn⟩ := List.mem_iff_getElem?.1 hg
      have hkey := hkeys n
      rw [keyAt, keyAt, hn, Option.bind_some] at hkey
      simp [hkey]
    | cons g' others =>
      have hhead : g.key?.isSome = g'.key?.isSome := hkeys 0
      rw [List.countP_cons, List.countP_cons, hhead, ih fun n => hkeys (n + 1)]

end SameAhead

/-- Reading has come to the same place in both, but for layout. -/
structure SamePlace (sight otherSight : Sight) (s other : ParseState) : Prop where
  started : other.started = s.started
  ahead : ∃ groups others, s.stream.Holds groups sight.error ∧
    other.stream.Holds others otherSight.error ∧
    SameAhead sight otherSight s.started groups others ∧
      -- before the first group is taken one is known to be ahead
      (s.started = false → (keyAt groups 0).isSome = true)

/-- And the same nodes have been read into the open one. -/
structure InStep (sight otherSight : Sight) (s other : ParseState) : Prop
    extends SamePlace sight otherSight s other where
  current : s.current.sift sight.view = other.current.sift otherSight.view

/-- What an error says, but for its place. -/
def SyntaxError.report (e : SyntaxError) : String × String × Option String :=
  (e.expected, e.found, e.context)

/-- Both runs of a rule come to the same, but for layout. -/
inductive SameResult {α : Type} (sight otherSight : Sight) :
    Except SyntaxError α × ParseState → Except SyntaxError α × ParseState → Prop where
  | ok (a : α) {s other : ParseState} (h : InStep sight otherSight s other) :
    SameResult sight otherSight (.ok a, s) (.ok a, other)
  | error {e e' : SyntaxError} {s other : ParseState} (he : e.report = e'.report)
      (h : SamePlace sight otherSight s other) :
    SameResult sight otherSight (.error e, s) (.error e', other)

namespace SamePlace

variable {s other : ParseState}

/-- Looking at a token shows the same and leaves both in place. -/
theorem key (h : SamePlace sight otherSight s other) (n : Nat) :
    (s.key n).1.map Token.glance = (other.key n).1.map Token.glance ∧
      SamePlace sight otherSight (s.key n).2 (other.key n).2 := by
  obtain ⟨groups, others, hs, ho, hahead, hgoing⟩ := h.ahead
  have hkey := hs.peekKey n
  have hother := ho.peekKey n
  refine ⟨?_, h.started, groups, others, hkey.2, hother.2, hahead, hgoing⟩
  show (s.stream.peekKey n).1.map _ = (other.stream.peekKey n).1.map _
  rw [hkey.1, hother.1]
  exact hahead.key n

theorem startsLine (h : SamePlace sight otherSight s other) (n : Nat) :
    (s.startsLine n).1 = (other.startsLine n).1 ∧
      SamePlace sight otherSight (s.startsLine n).2 (other.startsLine n).2 := by
  obtain ⟨groups, others, hs, ho, hahead, hgoing⟩ := h.ahead
  unfold ParseState.startsLine
  rw [h.started]
  by_cases hfirst : n = 0 ∧ !s.started
  · rw [if_pos hfirst, if_pos hfirst]
    exact ⟨rfl, h⟩
  · rw [if_neg hfirst, if_neg hfirst]
    have hpeek := hs.peek n
    have hother := ho.peek n
    refine ⟨?_, h.started, groups, others, hpeek.2, hother.2, hahead, hgoing⟩
    show (s.stream.peek n).1.any beginsLine = (other.stream.peek n).1.any beginsLine
    rw [hpeek.1, hother.1]
    refine hahead.line n ?_
    cases hs : s.started with
    | true => exact Or.inl rfl
    | false => exact Or.inr fun hn => hfirst ⟨hn, by rw [hs]; rfl⟩

theorem remaining (h : SamePlace sight otherSight s other) :
    s.stream.remaining = other.stream.remaining := by
  obtain ⟨groups, others, hs, ho, hahead, -⟩ := h.ahead
  rw [hs.remaining, ho.remaining, hahead.countP_key]

/-- What runs on tokens that end without an error have no such error to report. -/
theorem stream_error (h : SamePlace sight otherSight s other) :
    (sight.error = none → s.stream.error = none) ∧
      (otherSight.error = none → other.stream.error = none) := by
  obtain ⟨groups, others, hs, ho, -⟩ := h.ahead
  have hnone {stream : TokenStream} {groups : List SqlGroup} {error : Option LexError}
      (h : stream.Holds groups error) (herror : error = none) : stream.error = none := by
    cases he : stream.exhausted with
    | true => exact (h.notices.ended he).2.trans herror
    | false => exact (h.notices.going he).2.1
  exact ⟨hnone hs, hnone ho⟩

end SamePlace

/-- Taking a group leaves the groups after it, and reading has started if there was one. -/
theorem bump_stream {s : ParseState} {groups : List SqlGroup} {error : Option LexError}
    (h : s.stream.Holds groups error) :
    s.bump.stream.Holds groups.tail error ∧ s.bump.started = (s.started || groups ≠ []) ∧
      s.bump.current = groups[0]?.elim s.current s.current.addGroup := by
  obtain ⟨hhead, hnext⟩ := h.next
  unfold ParseState.bump
  cases hn : s.stream.next with
  | mk group stream =>
    rw [hn] at hhead hnext
    cases groups with
    | nil =>
      obtain rfl : group = none := hhead
      exact ⟨hnext, by simp, rfl⟩
    | cons g groups =>
      obtain rfl : group = some g := hhead
      exact ⟨hnext, by simp, rfl⟩

/-- The group that is taken is seen in the open node. -/
theorem sift_bump {s : ParseState} {groups : List SqlGroup} {error : Option LexError}
    (h : s.stream.Holds groups error) (view : SqlGroup → Option SqlGroup) :
    s.bump.current.sift view =
      (groups[0]?.bind view).elim (s.current.sift view) (s.current.sift view).addGroup := by
  rw [(bump_stream h).2.2]
  cases groups[0]? with
  | none => rfl
  | some g => exact OpenNode.sift_addGroup ..

/-- A group that is known to be ahead has been taken afterwards. -/
theorem started_bump {s : ParseState} {groups : List SqlGroup} {error : Option LexError}
    (h : s.stream.Holds groups error)
    (hgoing : s.started = false → (keyAt groups 0).isSome = true) :
    s.bump.started = true := by
  rw [(bump_stream h).2.1]
  cases hs : s.started with
  | true => rfl
  | false =>
    have hsome := hgoing hs
    cases groups with
    | nil => cases hsome
    | cons g groups => rfl

namespace InStep

variable {s other : ParseState}

theorem bump (h : InStep sight otherSight s other) :
    InStep sight otherSight s.bump other.bump := by
  obtain ⟨groups, others, hs, ho, hahead, hgoing⟩ := h.ahead
  have hstarted := started_bump hs hgoing
  have hother : other.bump.started = true :=
    started_bump ho fun hstart => by
      rw [← hahead.isSome_key 0]
      exact hgoing (h.started ▸ hstart)
  refine ⟨⟨hother.trans hstarted.symm, _, _, (bump_stream hs).1, (bump_stream ho).1, ?_, ?_⟩, ?_⟩
  · rw [hstarted]
    exact hahead.tail
  · intro hstart
    rw [hstarted] at hstart
    cases hstart
  · rw [sift_bump hs, sift_bump ho, hahead.seen 0, h.current]

theorem key (h : InStep sight otherSight s other) (n : Nat) :
    InStep sight otherSight (s.key n).2 (other.key n).2 :=
  ⟨(h.toSamePlace.key n).2, h.current⟩

theorem startsLine (h : InStep sight otherSight s other) (n : Nat) :
    InStep sight otherSight (s.startsLine n).2 (other.startsLine n).2 := by
  refine ⟨(h.toSamePlace.startsLine n).2, ?_⟩
  rw [ParseState.startsLine_current, ParseState.startsLine_current, h.current]

/-- The place of a run does not depend on the node that is open. -/
theorem withNode {inner otherInner : ParseState} (h : SamePlace sight otherSight inner otherInner)
    {n m : OpenNode} (hcurrent : n.sift sight.view = m.sift otherSight.view) :
    InStep sight otherSight { inner with current := n } { otherInner with current := m } :=
  ⟨⟨h.started, h.ahead⟩, hcurrent⟩

end InStep

/-- The errors over two tokens that look alike say the same. -/
theorem report_atToken (expected : String) {next other : Option SqlToken} (stop stop' : Position)
    (h : next.map Token.glance = other.map Token.glance) :
    (SyntaxError.atToken expected next stop).report =
      (SyntaxError.atToken expected other stop').report := by
  cases next with
  | none => rw [Option.map_eq_none_iff.1 h.symm]; rfl
  | some t =>
    obtain ⟨t', rfl, ht⟩ := Option.map_eq_some_iff.1 h.symm
    have htext : t'.text = t.text := congrArg Glance.text ht
    simp only [SyntaxError.atToken, SyntaxError.report, htext]

theorem report_inside {e e' : SyntaxError} (h : e.report = e'.report) (construct : String) :
    (e.inside construct).report = (e'.inside construct).report := by
  simp only [SyntaxError.report, SyntaxError.inside, Prod.mk.injEq] at h ⊢
  exact ⟨h.1, h.2.1, by rw [h.2.2]⟩

/-- Whatever rule is carried out, both runs stay in step. -/
theorem inStep_run {α : Type} (r : GrammarRule α) {s other : ParseState}
    (h : InStep sight otherSight s other) :
    SameResult sight otherSight (r.run s) (r.run other) := by
  induction r generalizing s other with
  | done a => exact .ok a h
  | missing expected =>
    obtain ⟨hglance, hplace⟩ := h.toSamePlace.key 0
    exact .error (report_atToken expected _ _ hglance) hplace
  | look n next ih =>
    show SameResult _ _ ((next ((s.key n).1.map Token.glance)).run (s.key n).2)
      ((next ((other.key n).1.map Token.glance)).run (other.key n).2)
    rw [(h.toSamePlace.key n).1]
    exact ih _ (h.key n)
  | lineStart n next ih =>
    show SameResult _ _ ((next (s.startsLine n).1).run (s.startsLine n).2)
      ((next (other.startsLine n).1).run (other.startsLine n).2)
    rw [(h.toSamePlace.startsLine n).1]
    exact ih _ (h.startsLine n)
  | remaining next ih =>
    rw [GrammarRule.run, GrammarRule.run, h.remaining]
    exact ih _ h
  | bump next ih => exact ih h.bump
  | node kind inside next ihinside ihnext =>
    have hinside := ihinside (InStep.withNode h.toSamePlace (n := { kind }) rfl)
    rw [GrammarRule.run, GrammarRule.run]
    generalize inside.run { s with current := { kind } } = ran at hinside ⊢
    generalize inside.run { other with current := { kind } } = ran' at hinside ⊢
    cases hinside with
    | ok b hinner =>
      refine ihnext b (InStep.withNode hinner.toSamePlace ?_)
      rw [OpenNode.sift_addNode, OpenNode.sift_addNode, h.current, hinner.current]
    | error he hinner => exact .error he hinner
  | setName name next ih =>
    refine ih (InStep.withNode h.toSamePlace ?_)
    exact congrArg (fun n : OpenNode => { n with name := some name }) h.current
  | setKind kind next ih =>
    refine ih (InStep.withNode h.toSamePlace ?_)
    exact congrArg (fun n : OpenNode => { n with kind }) h.current
  | within construct inside next ihinside ihnext =>
    have hinside := ihinside h
    rw [GrammarRule.run, GrammarRule.run]
    generalize inside.run s = ran at hinside ⊢
    generalize inside.run other = ran' at hinside ⊢
    cases hinside with
    | ok b hinner => exact ihnext b hinner
    | error he hinner => exact .error (report_inside he construct) hinner

/-! ### Statements -/

/-- Reading has ended without an error in both, or over the same token that was missing. -/
def SameEnding (error other : Option ParseError) : Prop :=
  error = none ∧ other = none ∨
    ∃ e e' : SyntaxError, error = some (.grammar e) ∧ other = some (.grammar e') ∧
      e.expected = e'.expected ∧ e.found = e'.found ∧ e.context = e'.context

/-- The statements are seen alike, and reading has ended alike if the tokens do not end in an
error. -/
structure SameStatements (sight otherSight : Sight) (parsed other : Parsed) : Prop where
  trees : parsed.trees.map (SyntaxTree.sift sight.view) =
    other.trees.map (SyntaxTree.sift otherSight.view)
  error : sight.error = none → otherSight.error = none → SameEnding parsed.error other.error

/-- Two runs at the same place read the same statements. -/
theorem statementsUpTo_alike (n : Nat) {s other : ParseState}
    (h : SamePlace sight otherSight s other) :
    SameStatements sight otherSight (s.statementsUpTo n) (other.statementsUpTo n) := by
  induction n generalizing s other with
  | zero => exact ⟨rfl, fun _ _ => Or.inl ⟨rfl, rfl⟩⟩
  | succ n ih =>
    obtain ⟨hglance, hplace⟩ := h.key 0
    unfold ParseState.statementsUpTo
    generalize s.key 0 = looked at hglance hplace ⊢
    generalize other.key 0 = looked' at hglance hplace ⊢
    obtain ⟨token, s⟩ := looked
    obtain ⟨token', other⟩ := looked'
    obtain ⟨herror, herror'⟩ := hplace.stream_error
    cases token with
    | none =>
      obtain rfl : token' = none := Option.map_eq_none_iff.1 hglance.symm
      dsimp only at herror herror' ⊢
      refine ⟨rfl, fun hnone hnone' => ?_⟩
      rw [herror hnone, herror' hnone']
      exact Or.inl ⟨rfl, rfl⟩
    | some t =>
      obtain ⟨t', rfl, -⟩ := Option.map_eq_some_iff.1 hglance.symm
      have hrun := inStep_run GrammarRule.statement
        (InStep.withNode hplace (n := { kind := .unhandled }) rfl)
      dsimp only
      change SameResult _ _ (GrammarRule.statement.run s.openNode)
        (GrammarRule.statement.run other.openNode) at hrun
      generalize GrammarRule.statement.run s.openNode = ran at hrun ⊢
      generalize GrammarRule.statement.run other.openNode = ran' at hrun ⊢
      cases hrun with
      | ok a hnext =>
        obtain ⟨htrees, hend⟩ := ih hnext.toSamePlace
        refine ⟨?_, hend⟩
        rw [List.map_cons, List.map_cons, htrees]
        exact congrArg (· :: _) (congrArg OpenNode.toTree hnext.current)
      | error he hnext =>
        obtain ⟨hstream, hstream'⟩ := hnext.stream_error
        refine ⟨rfl, fun hnone hnone' => ?_⟩
        dsimp only
        rw [hstream hnone, hstream' hnone']
        simp only [SyntaxError.report, Prod.mk.injEq] at he
        exact Or.inr ⟨_, _, rfl, rfl, he.1, he.2.1, he.2.2⟩

/-! ### Scripts -/

variable {tokens others : List SqlToken}

/-- The groups of two lists of tokens show the same, if the tokens do. They need not be seen. -/
theorem sameAhead_groupsOf
    (hkeys : (tokens.filter (·.isSignificant)).map Token.glance =
      (others.filter (·.isSignificant)).map Token.glance)
    (hlines : (lineStarts false tokens).tail = (lineStarts false others).tail) :
    SameAhead ⟨fun _ => none, none⟩ ⟨fun _ => none, none⟩ false (groupsOf tokens)
      (groupsOf others) where
  key n := by
    rw [groupsOf, groupsOf, key_groupsAfter, key_groupsAfter, ← List.getElem?_map,
      ← List.getElem?_map, hkeys]
  line n hn := by
    obtain ⟨n, rfl⟩ := Nat.exists_eq_succ_of_ne_zero (hn.resolve_left Bool.false_ne_true)
    have hline (tokens : List SqlToken) : ((groupsOf tokens)[n + 1]?).any beginsLine =
        ((lineStarts false tokens).tail)[n]?.getD false := by
      rw [groupsOf, beginsLine_groupsAfter, List.getElem?_tail]
      rfl
    rw [hline, hline, hlines]
  seen n := by rw [Option.bind_fun_none, Option.bind_fun_none]

/-- Where no significant token is next, there is no statement. -/
theorem statementsUpTo_of_ended {s : ParseState} {groups : List SqlGroup}
    {error : Option LexError} (n : Nat) (h : s.stream.Holds groups error)
    (hkey : keyAt groups 0 = none) :
    s.statementsUpTo (n + 1) = { trees := [], error := error.map .lex } := by
  unfold ParseState.statementsUpTo
  have hnone : (s.key 0).1 = none := (h.peekKey 0).1.trans hkey
  have herror : (s.key 0).2.stream.error = error := h.error_of_peekKey hnone
  cases hk : s.key 0 with
  | mk token s' =>
    rw [hk] at hnone herror
    obtain rfl : token = none := hnone
    dsimp only at herror ⊢
    rw [herror]

/-- Scripts whose groups show a rule the same and are seen alike have trees that are seen alike. -/
theorem parseTokens_alike {lexed other : Lexed} {view otherView : SqlGroup → Option SqlGroup}
    (hahead : SameAhead ⟨view, lexed.error⟩ ⟨otherView, other.error⟩ false (groupsOf lexed.tokens)
      (groupsOf other.tokens)) :
    SameStatements ⟨view, lexed.error⟩ ⟨otherView, other.error⟩ (parseTokens lexed)
      (parseTokens other) := by
  have hs := TokenStream.holds_ofLexed lexed
  have ho := TokenStream.holds_ofLexed other
  by_cases hfirst : (keyAt (groupsOf lexed.tokens) 0).isSome = true
  · have hplace : SamePlace ⟨view, lexed.error⟩ ⟨otherView, other.error⟩ (.ofLexed lexed)
        (.ofLexed other) :=
      ⟨rfl, _, _, hs, ho, hahead, fun _ => hfirst⟩
    have hcount : (TokenStream.ofLexed lexed).remaining = (TokenStream.ofLexed other).remaining :=
      hplace.remaining
    unfold parseTokens ParseState.statements
    show SameStatements _ _ (ParseState.statementsUpTo (TokenStream.remaining _ + 1) _)
      (ParseState.statementsUpTo (TokenStream.remaining _ + 1) _)
    rw [show (ParseState.ofLexed lexed).stream.remaining = _ from hcount]
    exact statementsUpTo_alike _ hplace
  · have hother := hfirst
    rw [hahead.isSome_key 0] at hother
    have hnone : parseTokens lexed = { trees := [], error := lexed.error.map .lex } :=
      statementsUpTo_of_ended _ hs (by simpa using hfirst)
    have hnone' : parseTokens other = { trees := [], error := other.error.map .lex } :=
      statementsUpTo_of_ended _ ho (by simpa using hother)
    rw [hnone, hnone']
    refine ⟨rfl, fun herror herror' => Or.inl ⟨?_, ?_⟩⟩
    · exact congrArg (Option.map ParseError.lex) herror
    · exact congrArg (Option.map ParseError.lex) herror'

/-- Scripts that have the same significant tokens, of which all but the first begin lines alike, are
read alike: to the same nodes and outlines, and to the same end. -/
theorem parseTokens_layout
    (hkeys : (tokens.filter (·.isSignificant)).map Token.glance =
      (others.filter (·.isSignificant)).map Token.glance)
    (hlines : (lineStarts false tokens).tail = (lineStarts false others).tail) :
    let parsed := parseTokens { tokens, error := none }
    let other := parseTokens { tokens := others, error := none }
    parsed.trees.map SyntaxTree.bare = other.trees.map SyntaxTree.bare ∧
      parsed.trees.map SyntaxTree.outline = other.trees.map SyntaxTree.outline ∧
      SameEnding parsed.error other.error := by
  have hahead : SameAhead ⟨fun _ => none, none⟩ ⟨fun _ => none, none⟩ false (groupsOf tokens)
      (groupsOf others) := sameAhead_groupsOf hkeys hlines
  have hsame := @parseTokens_alike { tokens, error := none } { tokens := others, error := none } _ _
    hahead
  have htrees := hsame.trees
  dsimp only at htrees
  rw [funext SyntaxTree.sift_none] at htrees
  refine ⟨htrees, ?_, hsame.error rfl rfl⟩
  have houtlines := congrArg (List.map SyntaxTree.outline) htrees
  rw [List.map_map, List.map_map] at houtlines
  have hbare : SyntaxTree.outline ∘ SyntaxTree.bare = SyntaxTree.outline :=
    funext SyntaxTree.outline_bare
  rwa [hbare] at houtlines

/-- A comment within a command and a line end after the last statement. -/
theorem parseTokens_layout_comment :
    let token := fun kind text => (Token.plain kind text (.between .start .start) : SqlToken)
    let command := [token .identifier "SHOW", token .whitespace " ", token .identifier "x"]
    let commented :=
      [token .identifier "SHOW", token .blockComment "/* y */", token .identifier "x"]
    let mark := [token .newline "\n", token .semicolon ";"]
    (parseTokens { tokens := command ++ mark, error := none }).trees.map SyntaxTree.outline =
      (parseTokens
        { tokens := commented ++ mark ++ [token .newline "\n"], error := none }).trees.map
          SyntaxTree.outline := by
  intro token command commented mark
  exact (parseTokens_layout (by decide) (by decide)).2.1

end SqlDoc

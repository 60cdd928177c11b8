/-
# Rules look no further than one group past the next

A rule is nearsighted if, carried out where at most the next two groups have been looked at, it ends
at such a place again, and gives up at no other (`GrammarRule.Nearsighted`). A rule that looks at the
next two groups only is nearsighted, and so is what is put together from such rules. Most of the
grammar is.

A rule goes further in two places only. To find the word that tells what a member of an object type
is, it passes all the words that may stand before a method; and after `RETURN` it looks for
`SELF AS RESULT`. There it may give up where it has looked further (`Reach.MayStop`).

Key definitions: `Reach.Near`, `Reach.MayStop`, `GrammarRule.Nearsighted`.
Key theorems: `Nearsighted.take`, `Nearsighted.iterate`, `nearsighted_typeExpr`,
`nearsighted_returnClause`.
-/
import SqlDoc.Proofs.Syntax.Reaching

namespace SqlDoc

/-- The token may stand before a method. -/
def Glance.isMethodPrefix (t : Glance) : Bool :=
  t.kind.isWord && ("NOT" :: GrammarRule.methodModifiers).contains t.value

/-- The token is `SELF` but can name nothing. -/
def Glance.isStraySelf (t : Glance) : Bool :=
  t.kind.isWord && ["SELF"].contains t.value && !t.kind.isName

namespace Reach

/-- At most the next two groups have been looked at. -/
def Near (p : Reach) : Prop :=
  p.seen ≤ p.taken + 2

/-- Where a rule may give up: at most the next two groups have been looked at, or all groups that
have been looked at, up to the last of them, may stand before a method. -/
def MayStop (groups : List SqlGroup) (p : Reach) : Prop :=
  p.Near ∨ (∀ i, p.taken ≤ i → i + 1 < p.seen →
    (glanceAt groups i).any Glance.isMethodPrefix = true) ∨
    (glanceAt groups p.taken).any Glance.isStraySelf = true

/-- At most the next two groups have been looked at, or the next three if `SELF` is next. -/
def NearSelf (groups : List SqlGroup) (p : Reach) : Prop :=
  p.Near ∨ p.seen ≤ p.taken + 3 ∧
    (glanceAt groups p.taken).any (fun t => t.kind.isWord && ["SELF"].contains t.value) = true

variable {groups : List SqlGroup} {p q : Reach}

theorem Near.looked (h : p.Near) (hq : p.Looked 2 q) : q.Near := by
  have htaken := hq.taken
  have hseen := hq.seen
  unfold Near at *
  omega

theorem Near.look (h : p.Near) {k : Nat} (hk : k < 2) : (p.look k).Near :=
  h.looked (p.looked_look hk)

/-- Taking a group brings what has been looked at nearer, unless none is left. -/
theorem Near.take (h : p.Near) : (p.take groups).Near := by
  have hplace : p.taken ≤ placeAfter groups p.taken := by
    unfold placeAfter
    split <;> omega
  unfold Near at *
  rw [take_seen, take_taken]
  omega

/-- A rule that may give up here may still look at the next token before it does. -/
theorem MayStop.looked (h : p.MayStop groups) (hq : p.Looked 1 q) : q.MayStop groups := by
  have htaken := hq.taken
  have hseen := hq.seen
  rcases h with hnear | hpassed | hstray
  · left
    unfold Near at *
    omega
  · right
    left
    intro i hi hlt
    exact hpassed i (by omega) (by omega)
  · right
    right
    rwa [htaken]

theorem take_near (h : p.seen ≤ p.taken + 3) (hsome : (glanceAt groups p.taken).isSome = true) :
    (p.take groups).Near := by
  rw [Near, take_seen, take_taken, placeAfter_of_isSome hsome]
  omega

end Reach

namespace GrammarRule

variable {α β σ : Type} {groups : List SqlGroup} {p : Reach}

/-- Where at most the next two groups have been looked at, the rule ends so again. -/
def Nearsighted (groups : List SqlGroup) (r : GrammarRule α) : Prop :=
  ∀ p : Reach, p.Near → r.Reaches groups (Reach.MayStop groups) (fun _ q => q.Near) p

/-! ### What is put together -/

theorem Peeks.nearsighted {r : GrammarRule α} {f : Nat → α} (h : r.Peeks groups 2 f) :
    r.Nearsighted groups :=
  fun p hp => h _ _ p fun _ hq => hp.looked hq

namespace Nearsighted

theorem pure (a : α) : (Pure.pure a : GrammarRule α).Nearsighted groups :=
  fun _ hp => hp

theorem missing (expected : String) :
    (GrammarRule.missing expected : GrammarRule α).Nearsighted groups :=
  fun _ hp => Or.inl (hp.look Nat.two_pos)

theorem look {k : Nat} {next : Option Glance → GrammarRule α} (hk : k < 2)
    (h : ∀ seen, (next seen).Nearsighted groups) : (GrammarRule.look k next).Nearsighted groups :=
  fun _ hp => h _ _ (hp.look hk)

theorem setName (name : Name) (a : α) :
    (GrammarRule.setName name (.done a)).Nearsighted groups :=
  fun _ hp => hp

theorem setKind {kind : NodeKind} {r : GrammarRule α} (h : r.Nearsighted groups) :
    (GrammarRule.setKind kind r).Nearsighted groups :=
  h

theorem bind {r : GrammarRule α} {f : α → GrammarRule β} (hr : r.Nearsighted groups)
    (hf : ∀ a, (f a).Nearsighted groups) : (r >>= f).Nearsighted groups :=
  fun p hp => (hr p hp).bind hf

theorem ite {c : Prop} [Decidable c] {r r' : GrammarRule α} (hr : r.Nearsighted groups)
    (hr' : r'.Nearsighted groups) : (if c then r else r').Nearsighted groups := by
  split
  · exact hr
  · exact hr'

/-- A test, and what is done as it succeeds or fails. -/
theorem test {test : GrammarRule Bool} {r r' : GrammarRule α} (h : test.Nearsighted groups)
    (hr : r.Nearsighted groups) (hr' : r'.Nearsighted groups) :
    (test >>= fun b => if b then r else r').Nearsighted groups :=
  h.bind fun _ => .ite hr hr'

theorem and {r r' : GrammarRule Bool} (h : r.Nearsighted groups) (h' : r'.Nearsighted groups) :
    (r <&&> r').Nearsighted groups := by
  refine h.bind fun b => ?_
  cases b with
  | false => exact .pure _
  | true => exact h'

theorem or {r r' : GrammarRule Bool} (h : r.Nearsighted groups) (h' : r'.Nearsighted groups) :
    (r <||> r').Nearsighted groups := by
  refine h.bind fun b => ?_
  cases b with
  | false => exact h'
  | true => exact .pure _

theorem map {r : GrammarRule α} (h : r.Nearsighted groups) (g : α → β) :
    (g <$> r).Nearsighted groups := by
  rw [map_eq_pure_bind]
  exact h.bind fun _ => .pure _

theorem node {kind : NodeKind} {inside : GrammarRule α} (h : inside.Nearsighted groups) :
    (GrammarRule.node kind inside .done).Nearsighted groups :=
  h

theorem within (construct : String) {r : GrammarRule α} (h : r.Nearsighted groups) :
    (GrammarRule.within construct r .done).Nearsighted groups :=
  h

theorem take : GrammarRule.take.Nearsighted groups :=
  fun _ hp => hp.take

theorem iterate {step : σ → GrammarRule (Option σ)} (h : ∀ s, (step s).Nearsighted groups) (s : σ) :
    (GrammarRule.iterate step s).Nearsighted groups :=
  fun _ hp => reaches_iterate_keeps (fun s q hq => h s q hq) hp

theorem repeatWhile {step : GrammarRule Bool} (h : step.Nearsighted groups) :
    (GrammarRule.repeatWhile step).Nearsighted groups :=
  iterate (fun _ => h.bind fun _ => .pure _) ()

theorem times {rule : GrammarRule Unit} (h : rule.Nearsighted groups) (count : Nat) :
    (GrammarRule.times count rule).Nearsighted groups := by
  induction count with
  | zero => exact .pure ()
  | succ count ih => exact h.bind fun _ => ih

end Nearsighted

/-! ### Taking what is there -/

theorem nearsighted_at {k : Nat} {test : Glance → Bool} (hk : k < 2) :
    (at? k test).Nearsighted groups :=
  (peeks_at hk).nearsighted

theorem nearsighted_atFirst {test : Glance → Bool} : (at? 0 test).Nearsighted groups :=
  nearsighted_at Nat.two_pos

theorem nearsighted_atSecond {test : Glance → Bool} : (at? 1 test).Nearsighted groups :=
  nearsighted_at Nat.one_lt_two

theorem nearsighted_key {k : Nat} (hk : k < 2) : (key k).Nearsighted groups :=
  (peeks_key hk).nearsighted

theorem nearsighted_atEnd : atEnd.Nearsighted groups :=
  (peeks_atEnd Nat.two_pos).nearsighted

theorem nearsighted_atTerminator : (atTerminator 0).Nearsighted groups :=
  (peeks_atTerminator Nat.one_lt_two).nearsighted

theorem nearsighted_atCreate : (atCreate 0).Nearsighted groups :=
  (peeks_atCreate Nat.two_pos).nearsighted

theorem nearsighted_takeIf {test : GrammarRule Bool} (h : test.Nearsighted groups) :
    (takeIf test).Nearsighted groups :=
  h.test (.bind .take fun _ => .pure _) (.pure _)

theorem nearsighted_takeWord (word : String) : (takeWord word).Nearsighted groups :=
  nearsighted_takeIf nearsighted_atFirst

theorem nearsighted_takeKind (kind : SqlKind) : (takeKind kind).Nearsighted groups :=
  nearsighted_takeIf nearsighted_atFirst

theorem nearsighted_expectWord (word : String) : (expectWord word).Nearsighted groups :=
  (nearsighted_takeWord word).test (.pure _) (.missing _)

theorem nearsighted_expectKind (kind : SqlKind) (what : String) :
    (expectKind kind what).Nearsighted groups :=
  (nearsighted_takeKind kind).test (.pure _) (.missing _)

theorem nearsighted_takeWords (first second : String) :
    (takeWord first <||> takeWord second).Nearsighted groups :=
  .or (nearsighted_takeWord first) (nearsighted_takeWord second)

theorem nearsighted_expectIsOrAs : expectIsOrAs.Nearsighted groups :=
  (nearsighted_takeWords _ _).test (.pure _) (.missing _)

/-! ### Taking runs -/

theorem nearsighted_skipParens : skipParens.Nearsighted groups := by
  refine nearsighted_atFirst.test (.bind (.iterate (fun depth => ?_) 0) fun _ => .pure _) (.pure _)
  refine (nearsighted_key Nat.two_pos).bind fun seen => ?_
  cases seen with
  | none => exact .pure _
  | some t => exact .bind .take fun _ => .pure _

theorem nearsighted_skipUntil (stop : SqlKind → Bool) : (skipUntil stop).Nearsighted groups := by
  refine .bind (.iterate (fun depth => ?_) 0) fun _ => .pure _
  refine nearsighted_atTerminator.test (.pure _) ((nearsighted_key Nat.two_pos).bind fun seen => ?_)
  cases seen with
  | none => exact .pure _
  | some t => exact .ite (.pure _) (.bind .take fun _ => .pure _)

theorem nearsighted_skipStatement : skipStatement.Nearsighted groups :=
  (nearsighted_skipUntil _).bind fun _ => (nearsighted_takeKind _).bind fun _ => .pure _

theorem nearsighted_skipToTerminator : skipToTerminator.Nearsighted groups :=
  .repeatWhile <| Nearsighted.test
    (.or nearsighted_atEnd (.or nearsighted_atTerminator nearsighted_atCreate)) (.pure _)
    (.bind .take fun _ => .pure _)

theorem nearsighted_skipLine : skipLine.Nearsighted groups :=
  .bind .take fun _ => .repeatWhile <| Nearsighted.test
    (.or nearsighted_atEnd (peeks_startsLine Nat.two_pos).nearsighted) (.pure _)
    (.bind .take fun _ => .pure _)

/-! ### Names -/

theorem nearsighted_namePart (name : Name) : (namePart name).Nearsighted groups :=
  .look Nat.two_pos fun _ _ hq => hq.take

/-- A name may be read where one more group has been looked at. -/
theorem reaches_name (hseen : p.seen ≤ p.taken + 3)
    (hstop : (glanceAt groups p.taken).any (·.kind.isName) = false → p.MayStop groups) :
    name.Reaches groups (Reach.MayStop groups) (fun _ q => q.Near) p := by
  have hmore (first : Name) : (iterate (fun name => do
      if ← atKind 0 .dot <&&> atName 1 then
        take
        some <$> namePart name
      else return none : Name → GrammarRule (Option Name)) first).Nearsighted groups :=
    .iterate (fun name => Nearsighted.test (.and nearsighted_atFirst nearsighted_atSecond)
      (.bind .take fun _ => .map (nearsighted_namePart name) _) (.pure _)) first
  refine (peeks_at Nat.one_pos).ite (fun hname q hq => ?_) fun hname q hq => ?_
  · have hsome : (glanceAt groups q.taken).isSome = true :=
      hq.taken ▸ Option.isSome_of_any hname
    have hseen : q.seen ≤ q.taken + 3 := by
      have htaken := hq.taken
      have hlooked := hq.seen
      omega
    have hfirst : (namePart .empty).Reaches groups (Reach.MayStop groups) (fun _ w => w.Near) q :=
      Reach.take_near (p := q.look 0) (Nat.max_le.2 ⟨hseen, by simp⟩) hsome
    exact hfirst.bind hmore
  · exact (hstop hname).looked (hq.trans (q.looked_look Nat.one_pos))

theorem nearsighted_name : name.Nearsighted groups :=
  fun _ hp => reaches_name (Nat.le_succ_of_le hp) fun _ => Or.inl hp

theorem nearsighted_declaredName : declaredName.Nearsighted groups := by
  have hidentifier : identifier.Nearsighted groups :=
    .node (nearsighted_name.bind fun n => .setName n n)
  exact hidentifier.bind fun n => .setName n ()

/-! ### Modifiers and datatypes -/

theorem nearsighted_modifier {inside : GrammarRule Unit} (h : inside.Nearsighted groups) :
    (modifier inside).Nearsighted groups := by
  refine .node ((nearsighted_key Nat.two_pos).bind fun first => ?_)
  cases first with
  | none => exact h
  | some t =>
    exact (nearsighted_key Nat.one_lt_two).bind fun second => .bind (.setName _ ()) fun _ => h

theorem nearsighted_typeWords (base : Name) : (typeWords base).Nearsighted groups := by
  have hvarying (words : List String) : (repeatWhile do
      if ← atAnyWord 0 words <&&> (not <$> atWord 1 "SET") then
        take
        return true
      else return false).Nearsighted groups :=
    .repeatWhile <| Nearsighted.test (.and nearsighted_atFirst (.map nearsighted_atSecond _))
      (.bind .take fun _ => .pure _) (.pure _)
  unfold typeWords
  split
  case h_1 | h_2 => exact (nearsighted_takeWord _).test (.pure _) (.pure _)
  case h_3 | h_4 | h_5 => exact (hvarying _).bind fun _ => .pure _
  case h_6 =>
    exact .bind .take fun _ => nearsighted_skipParens.bind fun _ =>
      (nearsighted_expectWord _).bind fun _ => .bind .take fun _ => .pure _
  case h_7 => exact .pure _

theorem nearsighted_timeZone (base : Name) : (timeZone base).Nearsighted groups :=
  .ite ((nearsighted_takeWord _).test ((nearsighted_takeWord _).bind fun _ =>
    (nearsighted_expectWord _).bind fun _ => nearsighted_expectWord _) (.pure _)) (.pure _)

theorem nearsighted_typeAttribute (n : Name) : (typeAttribute n).Nearsighted groups :=
  Nearsighted.test (.and nearsighted_atFirst nearsighted_atSecond)
    (.bind .take fun _ => .look Nat.two_pos fun _ _ hq => hq.take) (.pure _)

theorem nearsighted_databaseLink : databaseLink.Nearsighted groups :=
  Nearsighted.test (.and nearsighted_atFirst nearsighted_atSecond)
    (.bind .take fun _ => nearsighted_name.bind fun _ => .pure _) (.pure _)

theorem nearsighted_characterSet : characterSet.Nearsighted groups :=
  Nearsighted.test (.and nearsighted_atFirst nearsighted_atSecond)
    (.bind .take fun _ => .bind .take fun _ => nearsighted_name.bind fun _ =>
      (nearsighted_takeKind _).test .take (.pure _)) (.pure _)

/-- A datatype may also be read where one more group has been looked at, if `SELF` is next. -/
theorem reaches_typeExpr (h : p.NearSelf groups) :
    typeExpr.Reaches groups (Reach.MayStop groups) (fun _ q => q.Near) p := by
  have hrest (base : Name) : (do
      let full ← typeWords base
      skipParens
      timeZone base
      let full ← typeAttribute full
      databaseLink
      characterSet
      setName full (.done ()) : GrammarRule Unit).Nearsighted groups :=
    (nearsighted_typeWords base).bind fun full => nearsighted_skipParens.bind fun _ =>
      (nearsighted_timeZone base).bind fun _ => (nearsighted_typeAttribute full).bind fun full =>
      nearsighted_databaseLink.bind fun _ => nearsighted_characterSet.bind fun _ => .setName full ()
  rcases h with hnear | ⟨hseen, hself⟩
  · exact (nearsighted_takeIf (.and nearsighted_atFirst (.map nearsighted_atSecond _))).bind
      (fun _ => nearsighted_name.bind hrest) p hnear
  have hname : (takeIf (atWord 0 "REF" <&&> (not <$> atWord 1 "CURSOR"))).Reaches groups
      (Reach.MayStop groups) (fun _ q => p.Looked 2 q) p := by
    refine ((peeks_at Nat.two_pos).and ((peeks_at Nat.one_lt_two).map not)).ite
      (fun href => ?_) fun _ q hq => hq
    -- `SELF` is not `REF`, so it is the first part of the name
    obtain ⟨t, ht, hself⟩ := (Option.any_eq_true ..).1 hself
    rw [Nat.add_zero, ht] at href
    simp at href hself
    simp [href.1.2] at hself
  refine hname.bind fun _ q hq => Reaches.bind (reaches_name ?_ fun hnot => ?_) hrest
  · have htaken := hq.taken
    have hlooked := hq.seen
    omega
  · rw [← hq.taken] at hself
    obtain ⟨t, ht, hself⟩ := (Option.any_eq_true ..).1 hself
    rw [ht, Option.any_some] at hnot
    right
    right
    simpa [ht, Glance.isStraySelf, hnot] using hself

theorem nearsighted_typeExpr : typeExpr.Nearsighted groups :=
  fun _ hp => reaches_typeExpr (Or.inl hp)

theorem nearsighted_notNull : notNull.Nearsighted groups :=
  Nearsighted.test (.and nearsighted_atFirst nearsighted_atSecond)
    (nearsighted_modifier (.bind .take fun _ => .take)) (.pure _)

theorem nearsighted_collectionType : collectionType.Nearsighted groups := by
  have hrest : (do typeExpr; notNull : GrammarRule Unit).Nearsighted groups :=
    nearsighted_typeExpr.bind fun _ => nearsighted_notNull
  have hof : (do expectWord "OF"; typeExpr; notNull : GrammarRule Unit).Nearsighted groups :=
    (nearsighted_expectWord _).bind fun _ => hrest
  have harray : (do
      if ← atKind 0 .lparen then node .literal skipParens .done
      expectWord "OF"
      typeExpr
      notNull : GrammarRule Unit).Nearsighted groups :=
    nearsighted_atFirst.test (.bind (.node nearsighted_skipParens) fun _ => hof) hof
  exact (nearsighted_takeWord _).test hof <| (nearsighted_takeWord _).test
    ((nearsighted_expectWord _).bind fun _ => harray)
    ((nearsighted_expectWord _).bind fun _ => harray)

theorem nearsighted_expression : expression.Nearsighted groups :=
  Nearsighted.test (.or nearsighted_atEnd nearsighted_atFirst)
    (.bind (.missing _) fun _ => .node (nearsighted_skipUntil _)) (.node (nearsighted_skipUntil _))

theorem nearsighted_defaultValue : defaultValue.Nearsighted groups :=
  nearsighted_notNull.bind fun _ =>
    (nearsighted_takeIf (.or nearsighted_atFirst nearsighted_atFirst)).test nearsighted_expression
      (.pure _)

/-! ### Routines -/

theorem nearsighted_leaf (kind : NodeKind) : (leaf kind).Nearsighted groups :=
  .node .take

theorem nearsighted_keywordNode (word : String) : (keywordNode word).Nearsighted groups :=
  nearsighted_atFirst.test ((nearsighted_leaf _).bind fun _ => .pure _) (.pure _)

theorem nearsighted_separatedByCommas {item : GrammarRule Unit} (h : item.Nearsighted groups) :
    (separatedByCommas item).Nearsighted groups :=
  .repeatWhile (h.bind fun _ => nearsighted_takeKind _)

theorem nearsighted_parenthesised {item : GrammarRule Unit} (h : item.Nearsighted groups) :
    (parenthesised item).Nearsighted groups :=
  (nearsighted_expectKind _ _).bind fun _ => (nearsighted_separatedByCommas h).bind fun _ =>
    nearsighted_expectKind _ _

theorem nearsighted_parameter : parameter.Nearsighted groups := by
  have hvalue : (do typeExpr; defaultValue : GrammarRule Unit).Nearsighted groups :=
    nearsighted_typeExpr.bind fun _ => nearsighted_defaultValue
  have hrest : (do
      if ← atWord 0 "NOCOPY" then modifier take
      typeExpr
      defaultValue : GrammarRule Unit).Nearsighted groups :=
    nearsighted_atFirst.test ((nearsighted_modifier .take).bind fun _ => hvalue) hvalue
  refine .node (nearsighted_declaredName.bind fun _ => ?_)
  exact (nearsighted_keywordNode _).bind fun input => (nearsighted_keywordNode _).bind fun output =>
    .ite (.setKind hrest) hrest

theorem nearsighted_parameterList : parameterList.Nearsighted groups :=
  nearsighted_atFirst.test (.node (nearsighted_parenthesised nearsighted_parameter)) (.pure _)

/-- Three groups are looked at for `SELF AS RESULT`, if `SELF` is next. -/
theorem nearsighted_returnClause : returnClause.Nearsighted groups := by
  refine .node ((nearsighted_expectWord _).bind fun _ p hp => ?_)
  have htest : (atWord 0 "SELF" <&&> atWord 1 "AS" <&&> atWord 2 "RESULT").Reaches groups
      (Reach.MayStop groups) (fun _ q => q.NearSelf groups) p := by
    refine (peeks_at Nat.two_pos).bind fun q hq => ?_
    cases hself : (glanceAt groups (p.taken + 0)).any
        (fun t => t.kind.isWord && ["SELF"].contains t.value) with
    | false => exact Or.inl (hp.looked hq)
    | true =>
      have hthree : (atWord 1 "AS" <&&> atWord 2 "RESULT").Peeks groups 3 _ :=
        (peeks_at (by decide)).and (peeks_at (by decide))
      refine hthree _ _ q fun w hw => Or.inr ⟨?_, by rwa [hw.taken, hq.taken]⟩
      have hfirst := hq.taken
      have hthen := hw.taken
      have hseen := hw.seen
      have hnear := hp.looked hq
      unfold Reach.Near at hnear
      omega
  refine htest.bind fun found q hq => ?_
  cases found with
  | false => exact reaches_typeExpr hq
  | true =>
    have hrest : (do
        times 2 take
        setName ⟨["SELF AS RESULT"]⟩ (.done ()) : GrammarRule Unit).Nearsighted groups :=
      (Nearsighted.times .take 2).bind fun _ => .setName _ ()
    refine hrest (q.take groups) ?_
    rcases hq with hnear | ⟨hseen, hself⟩
    · exact hnear.take
    · exact Reach.take_near hseen (Option.isSome_of_any hself)

theorem nearsighted_routineModifiers : routineModifiers.Nearsighted groups := by
  have hwords (more : Nat) : (do
      let more ← Pure.pure more
      times (more + 1) take
      skipParens : GrammarRule Unit).Nearsighted groups :=
    (Nearsighted.pure more).bind fun more => (Nearsighted.times .take _).bind fun _ =>
      nearsighted_skipParens
  have hmodifier : routineModifier.Nearsighted groups :=
    nearsighted_modifier <| nearsighted_atFirst.bind fun _ => nearsighted_atFirst.bind fun _ =>
      .ite (hwords 1) (.ite (hwords 2) (hwords 0))
  exact .repeatWhile <| Nearsighted.test (.or nearsighted_atEnd <| .or nearsighted_atTerminator <|
    .or nearsighted_atFirst nearsighted_atFirst) (.pure _) (hmodifier.bind fun _ => .pure _)

theorem nearsighted_cursor : cursor.Nearsighted groups := by
  have hquery : (do
      if ← takeWord "IS" then node .expression skipToSemicolon .done
      expectSemicolon : GrammarRule Unit).Nearsighted groups :=
    (nearsighted_takeWord _).test
      (.bind (.node (nearsighted_skipUntil _)) fun _ => nearsighted_expectKind _ _)
      (nearsighted_expectKind _ _)
  refine .within _ (.node ?_)
  exact (nearsighted_expectWord _).bind fun _ => nearsighted_declaredName.bind fun _ =>
    nearsighted_parameterList.bind fun _ => nearsighted_atFirst.test
      (nearsighted_returnClause.bind fun _ => hquery) hquery

/-! ### Declarations -/

theorem nearsighted_variableDecl : variableDecl.Nearsighted groups := by
  have hrest : (do typeExpr; defaultValue; expectSemicolon).Nearsighted groups :=
    nearsighted_typeExpr.bind fun _ => nearsighted_defaultValue.bind fun _ =>
      nearsighted_expectKind _ _
  refine nearsighted_atSecond.bind fun constant => .within _ (.node ?_)
  exact nearsighted_declaredName.bind fun _ => .ite (.bind (nearsighted_leaf _) fun _ => hrest) hrest

theorem nearsighted_exceptionDecl : exceptionDecl.Nearsighted groups :=
  .node (nearsighted_declaredName.bind fun _ => (nearsighted_expectWord _).bind fun _ =>
    nearsighted_expectKind _ _)

theorem nearsighted_subtypeDecl : subtypeDecl.Nearsighted groups := by
  have hconstraint : (do
      unless ← atKind 0 .semicolon <||> atEnd do modifier skipToSemicolon
      expectSemicolon : GrammarRule Unit).Nearsighted groups :=
    Nearsighted.test (.or nearsighted_atFirst nearsighted_atEnd) (nearsighted_expectKind _ _)
      ((nearsighted_modifier (nearsighted_skipUntil _)).bind fun _ => nearsighted_expectKind _ _)
  exact .within _ <| .node <| (nearsighted_expectWord _).bind fun _ =>
    nearsighted_declaredName.bind fun _ => (nearsighted_expectWord _).bind fun _ =>
      nearsighted_typeExpr.bind fun _ => hconstraint

theorem nearsighted_typeDefinition : typeDefinition.Nearsighted groups := by
  have hfield : recordField.Nearsighted groups :=
    .node (nearsighted_declaredName.bind fun _ => nearsighted_typeExpr.bind fun _ =>
      nearsighted_defaultValue)
  have hindexBy : indexBy.Nearsighted groups :=
    .node (.bind (.setName _ ()) fun _ => .bind .take fun _ =>
      (nearsighted_expectWord _).bind fun _ => nearsighted_typeExpr)
  have hrecord : (do
      leaf .keyword
      parenthesised recordField
      return .record : GrammarRule TypeShape).Nearsighted groups :=
    (nearsighted_leaf _).bind fun _ => (nearsighted_parenthesised hfield).bind fun _ => .pure _
  have htable : (do
      collectionType
      if ← atWord 0 "INDEX" then
        indexBy
        return .associativeArray
      else return .nestedTable : GrammarRule TypeShape).Nearsighted groups :=
    nearsighted_collectionType.bind fun _ => nearsighted_atFirst.test
      (hindexBy.bind fun _ => .pure _) (.pure _)
  have hcursor : (do
      times 2 take
      if ← atWord 0 "RETURN" then returnClause
      return .refCursor : GrammarRule TypeShape).Nearsighted groups :=
    (Nearsighted.times .take 2).bind fun _ => nearsighted_atFirst.test
      (nearsighted_returnClause.bind fun _ => .pure _) (.pure _)
  exact nearsighted_atFirst.test hrecord <| nearsighted_atFirst.test htable <|
    nearsighted_atFirst.test (nearsighted_collectionType.bind fun _ => .pure _) <|
    Nearsighted.test (.and nearsighted_atFirst nearsighted_atSecond) hcursor <|
    nearsighted_expression.bind fun _ => .pure _

theorem nearsighted_typeDecl : typeDecl.Nearsighted groups :=
  .within _ <| .node <| (nearsighted_expectWord _).bind fun _ =>
    nearsighted_declaredName.bind fun _ => nearsighted_expectIsOrAs.bind fun _ =>
      nearsighted_typeDefinition.bind fun _ => .setKind (nearsighted_expectKind _ _)

theorem nearsighted_pragma (terminated : Bool) : (pragma terminated).Nearsighted groups := by
  have hrest : (do
      take
      skipParens
      if terminated then expectSemicolon : GrammarRule Unit).Nearsighted groups :=
    .bind .take fun _ => nearsighted_skipParens.bind fun _ =>
      .ite (nearsighted_expectKind _ _) (.pure _)
  refine .node ((nearsighted_expectWord _).bind fun _ =>
    (nearsighted_key Nat.two_pos).bind fun seen => ?_)
  cases seen with
  | none => exact hrest
  | some t => exact .bind (.setName _ ()) fun _ => hrest

end GrammarRule
end SqlDoc

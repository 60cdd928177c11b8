/-
# Pieces of declarations heed terminators

Most rules heed terminators wherever they are carried out (`GrammarRule.Heedful`): before a rule
takes a group, it has looked at the token for a word, a name or a mark, which is no `/`, or it has
asked for a terminator. Inside the nodes that may hold terminators there is nothing to heed.

Key definitions: `GrammarRule.Tells`, `GrammarRule.Heedful`.
Key theorems: `heeds_iterate`, `Heedful.takeIf`, `heeds_name`, `heedful_skipUntil`,
`heedful_typeExpr`.
-/
import SqlDoc.Proofs.Syntax.Heeding
import SqlDoc.Syntax.Statement

namespace SqlDoc.GrammarRule

variable {α β σ : Type} {groups : List SqlGroup} {lax : Bool} {n : Nat}

/-! ### Rules that only look -/

/-- The rule only looks, and gives `f n` at the place `n`. -/
def Tells (groups : List SqlGroup) (r : GrammarRule α) (f : Nat → α) : Prop :=
  ∀ (lax : Bool) (Q : α → Nat → Prop) (n : Nat), r.Heeds groups lax Q n ↔ Q (f n) n

theorem tells_key (k : Nat) : (key k).Tells groups fun n => glanceAt groups (n + k) :=
  fun _ _ _ => Iff.rfl

theorem tells_at {k : Nat} {p : Glance → Bool} :
    (at? k p).Tells groups fun n => (glanceAt groups (n + k)).any p :=
  fun _ _ _ => Iff.rfl

theorem tells_isNone {k : Nat} :
    (look k fun seen => done seen.isNone).Tells groups fun n => (glanceAt groups (n + k)).isNone :=
  fun _ _ _ => Iff.rfl

theorem tells_atEnd : atEnd.Tells groups fun n => (glanceAt groups n).isNone :=
  fun _ _ _ => Iff.rfl

theorem tells_startsLine {k : Nat} :
    (startsLine k).Tells groups fun n => startsLineAt groups (n + k) :=
  fun _ _ _ => Iff.rfl

namespace Tells

variable {p q : Nat → Bool}

/-- What is done after a look depends on what has been seen. -/
theorem bind {r : GrammarRule α} {f : Nat → α} (h : r.Tells groups f) (g : α → GrammarRule β)
    (Q : β → Nat → Prop) (n : Nat) :
    (r >>= g).Heeds groups lax Q n ↔ (g (f n)).Heeds groups lax Q n :=
  (heeds_bind ..).trans (h ..)

theorem and {r r' : GrammarRule Bool} (h : r.Tells groups p) (h' : r'.Tells groups q) :
    (r <&&> r').Tells groups fun n => p n && q n := by
  intro lax Q n
  refine (h.bind _ Q n).trans ?_
  show _ ↔ Q (p n && q n) n
  cases p n
  · exact Iff.rfl
  · exact h' lax Q n

theorem or {r r' : GrammarRule Bool} (h : r.Tells groups p) (h' : r'.Tells groups q) :
    (r <||> r').Tells groups fun n => p n || q n := by
  intro lax Q n
  refine (h.bind _ Q n).trans ?_
  show _ ↔ Q (p n || q n) n
  cases p n
  · exact h' lax Q n
  · exact Iff.rfl

theorem map {r : GrammarRule α} {f : Nat → α} (h : r.Tells groups f) (g : α → β) :
    (g <$> r).Tells groups fun n => g (f n) := by
  intro lax Q n
  rw [map_eq_pure_bind]
  exact h.bind _ Q n

/-- Whether the test succeeds is known on both ways. -/
theorem heeds_ite {test : GrammarRule Bool} {r r' : GrammarRule α} {Q : α → Nat → Prop}
    (h : test.Tells groups p) (hr : p n = true → r.Heeds groups lax Q n)
    (hr' : p n = false → r'.Heeds groups lax Q n) :
    (test >>= fun b => if b then r else r').Heeds groups lax Q n := by
  refine (h.bind _ Q n).2 ?_
  cases hp : p n with
  | true => exact hr hp
  | false => exact hr' hp

end Tells

theorem tells_atTerminator (k : Nat) :
    (atTerminator k).Tells groups fun n => isTerminatorAt groups (n + k) :=
  tells_at.and (tells_startsLine.and (tells_isNone.or tells_startsLine))

theorem tells_atCreate (k : Nat) : (atCreate k).Tells groups fun n =>
    (glanceAt groups (n + k)).any (fun t => t.kind.isWord && ["CREATE"].contains t.value) &&
      startsLineAt groups (n + k) :=
  tells_at.and tells_startsLine

/-! ### Rules that heed terminators everywhere -/

/-- Wherever it is carried out, the rule heeds terminators. -/
def Heedful (groups : List SqlGroup) (lax : Bool) (r : GrammarRule α) : Prop :=
  ∀ n, r.Heeds groups lax (fun _ _ => True) n

/-- First a rule that ends at a place with `P`, then one that may begin there. -/
theorem Heeds.bind {r : GrammarRule α} {f : α → GrammarRule β} {P : α → Nat → Prop}
    {Q : β → Nat → Prop} (hr : r.Heeds groups lax P n)
    (hf : ∀ a m, P a m → (f a).Heeds groups lax Q m) : (r >>= f).Heeds groups lax Q n :=
  (heeds_bind ..).2 (hr.mono hf)

theorem Tells.heedful {r : GrammarRule α} {f : Nat → α} (h : r.Tells groups f) :
    r.Heedful groups lax :=
  fun _ => (h ..).2 trivial

theorem Tells.ite {test : GrammarRule Bool} {p : Nat → Bool} {r r' : GrammarRule α}
    (h : test.Tells groups p) (hr : r.Heedful groups lax) (hr' : r'.Heedful groups lax) :
    (test >>= fun b => if b then r else r').Heedful groups lax :=
  fun n => h.heeds_ite (fun _ => hr n) (fun _ => hr' n)

namespace Heedful

theorem pure (a : α) : (Pure.pure a : GrammarRule α).Heedful groups lax :=
  fun _ => trivial

theorem missing (expected : String) :
    (GrammarRule.missing expected : GrammarRule α).Heedful groups lax :=
  fun _ => trivial

theorem setName (name : Name) (a : α) :
    (GrammarRule.setName name (.done a)).Heedful groups lax :=
  fun _ => trivial

theorem bind {r : GrammarRule α} {f : α → GrammarRule β} (hr : r.Heedful groups lax)
    (hf : ∀ a, (f a).Heedful groups lax) : (r >>= f).Heedful groups lax :=
  fun n => (hr n).bind fun a m _ => hf a m

theorem ite {c : Prop} [Decidable c] {r r' : GrammarRule α} (hr : r.Heedful groups lax)
    (hr' : r'.Heedful groups lax) : (if c then r else r').Heedful groups lax := by
  split
  · exact hr
  · exact hr'

/-- Nodes of the kind tell whether there is something to heed inside. -/
theorem node {kind : NodeKind} {inside : GrammarRule α}
    (h : inside.Heedful groups kind.mayHoldTerminator) :
    (GrammarRule.node kind inside .done).Heedful groups lax :=
  h

theorem within (construct : String) {r : GrammarRule α} (h : r.Heedful groups lax) :
    (GrammarRule.within construct r .done).Heedful groups lax :=
  h

end Heedful

/-- What every step keeps is true of the last state and the place where it was reached. -/
theorem heeds_iterateUpTo {step : σ → GrammarRule (Option σ)} {I : σ → Nat → Prop}
    (h : ∀ s n, I s n → (step s).Heeds groups lax (fun next m => I (next.getD s) m) n)
    (count : Nat) {s : σ} (hs : I s n) : (iterateUpTo step count s).Heeds groups lax I n := by
  induction count generalizing s n with
  | zero => exact hs
  | succ count ih =>
    rw [iterateUpTo_succ]
    refine Heeds.bind (h s n hs) fun next m hm => ?_
    cases next with
    | none => exact hm
    | some s => exact ih hm

theorem heeds_iterate {step : σ → GrammarRule (Option σ)} {I : σ → Nat → Prop}
    (h : ∀ s n, I s n → (step s).Heeds groups lax (fun next m => I (next.getD s) m) n) {s : σ}
    (hs : I s n) : (iterate step s).Heeds groups lax I n :=
  fun count => heeds_iterateUpTo h (count + 1) hs

namespace Heedful

theorem iterate {step : σ → GrammarRule (Option σ)} (h : ∀ s, (step s).Heedful groups lax)
    (s : σ) : (GrammarRule.iterate step s).Heedful groups lax :=
  fun _ => heeds_iterate (fun s n _ => h s n) trivial

theorem repeatWhile {step : GrammarRule Bool} (h : step.Heedful groups lax) :
    (GrammarRule.repeatWhile step).Heedful groups lax :=
  iterate (fun _ => h.bind fun _ => .pure _) ()

theorem times {rule : GrammarRule Unit} (h : rule.Heedful groups lax) (count : Nat) :
    (GrammarRule.times count rule).Heedful groups lax := by
  induction count with
  | zero => exact .pure ()
  | succ count ih => exact h.bind fun _ => ih

end Heedful

/-! ### Taking what is there -/

theorem ne_slash_of_kind {kind : SqlKind} (hkind : kind ≠ .slash) {t : Glance}
    (h : decide (t.kind = kind) = true) : t.kind ≠ .slash :=
  of_decide_eq_true h ▸ hkind

theorem ne_slash_of_word {words : List String} {t : Glance}
    (h : (t.kind.isWord && words.contains t.value) = true) : t.kind ≠ .slash := by
  intro hslash
  rw [hslash] at h
  cases h

theorem ne_slash_of_name {t : Glance} (h : t.kind.isName = true) : t.kind ≠ .slash := by
  intro hslash
  rw [hslash] at h
  cases h

theorem ne_slash_of_operator {text : String} {t : Glance}
    (h : (decide (t.kind = .operator) && decide (t.text = text)) = true) : t.kind ≠ .slash := by
  intro hslash
  rw [hslash] at h
  cases h

/-- What is not a terminator may be taken. -/
theorem heeds_take (h : isTerminatorAt groups n = false) :
    take.Heeds groups lax (fun _ m => m = placeAfter groups n) n :=
  ⟨fun _ => h, rfl⟩

/-- In a node that may hold terminators everything may be taken. -/
theorem heedful_take : take.Heedful groups true :=
  fun _ => ⟨Bool.noConfusion, trivial⟩

/-- A test that no terminator passes lets none be taken. -/
theorem Heedful.takeIf {test : GrammarRule Bool} {p : Nat → Bool} (ht : test.Tells groups p)
    (hp : ∀ n, p n = true → isTerminatorAt groups n = false) :
    (takeIf test).Heedful groups lax :=
  fun n => ht.heeds_ite (fun h => (heeds_take (hp n h)).bind fun _ _ _ => trivial) fun _ => trivial

theorem heedful_takeIf_at {p : Glance → Bool} (hp : ∀ t, p t = true → t.kind ≠ .slash) :
    (takeIf (at? 0 p)).Heedful groups lax :=
  .takeIf tells_at fun _ h => isTerminatorAt_of_any h hp

theorem heedful_takeWord (word : String) : (takeWord word).Heedful groups lax :=
  heedful_takeIf_at fun _ => ne_slash_of_word

theorem heedful_takeKind {kind : SqlKind} (hkind : kind ≠ .slash) :
    (takeKind kind).Heedful groups lax :=
  heedful_takeIf_at fun _ => ne_slash_of_kind hkind

theorem heedful_expectWord (word : String) : (expectWord word).Heedful groups lax :=
  (heedful_takeWord word).bind fun _ => .ite (.pure _) (.missing _)

theorem heedful_expectKind {kind : SqlKind} (what : String) (hkind : kind ≠ .slash) :
    (expectKind kind what).Heedful groups lax :=
  (heedful_takeKind hkind).bind fun _ => .ite (.pure _) (.missing _)

theorem heedful_expectSemicolon : expectSemicolon.Heedful groups lax :=
  heedful_expectKind _ (by decide)

/-- The first of two words, or else the second. -/
theorem heedful_takeWords (first second : String) :
    (takeWord first <||> takeWord second).Heedful groups lax := by
  refine (heedful_takeWord first).bind fun b => ?_
  cases b
  · exact heedful_takeWord second
  · exact .pure _

theorem heedful_expectIsOrAs : expectIsOrAs.Heedful groups lax :=
  (heedful_takeWords _ _).bind fun _ => .ite (.pure _) (.missing _)

/-- A node for a token that is no terminator ends after it. -/
theorem heeds_leaf {kind : NodeKind} (h : isTerminatorAt groups n = false) :
    (leaf kind).Heeds groups lax (fun _ m => m = placeAfter groups n) n :=
  heeds_take h

/-! ### Taking runs -/

theorem heedful_skipParens : skipParens.Heedful groups true := by
  refine tells_at.ite (Heedful.bind (.iterate (fun depth => ?_) 0) fun _ => .pure _) (.pure _)
  refine (tells_key 0).heedful.bind fun seen => ?_
  cases seen with
  | none => exact .pure _
  | some t => exact heedful_take.bind fun _ => .pure _

/-- A run asks for a terminator before each group. -/
theorem heedful_skipUntil (stop : SqlKind → Bool) : (skipUntil stop).Heedful groups lax := by
  refine Heedful.bind (.iterate (fun depth n => ?_) 0) fun _ => .pure _
  refine (tells_atTerminator 0).heeds_ite (fun _ => trivial) fun hnot => ?_
  refine ((tells_key 0).bind ..).2 ?_
  cases glanceAt groups (n + 0) with
  | none => exact trivial
  | some t =>
    dsimp only
    split
    · exact trivial
    · exact (heeds_take hnot).bind fun _ _ _ => trivial

theorem heedful_skipStatement : skipStatement.Heedful groups lax :=
  (heedful_skipUntil _).bind fun _ => (heedful_takeKind (by decide)).bind fun _ => .pure _

theorem heedful_skipToTerminator : skipToTerminator.Heedful groups lax := by
  refine .repeatWhile fun n => (tells_atEnd.or ((tells_atTerminator 0).or
    (tells_atCreate 0))).heeds_ite (fun _ => trivial) fun hnot => ?_
  have hterminator : isTerminatorAt groups n = false :=
    (Bool.or_eq_false_iff.1 (Bool.or_eq_false_iff.1 hnot).2).1
  exact (heeds_take hterminator).bind fun _ _ _ => trivial

/-- No other token of a line begins it, so none is a terminator. -/
theorem heeds_skipLine (h : isTerminatorAt groups n = false) :
    skipLine.Heeds groups lax (fun _ _ => True) n := by
  refine (heeds_take h).bind fun _ m _ => Heedful.repeatWhile (fun k => ?_) m
  refine (tells_atEnd.or tells_startsLine).heeds_ite (fun _ => trivial) fun hnot => ?_
  have hline : startsLineAt groups k = false := (Bool.or_eq_false_iff.1 hnot).2
  exact (heeds_take (isTerminatorAt_of_not_startsLine hline)).bind fun _ _ _ => trivial

/-! ### Names -/

theorem heeds_namePart {name : Name} (h : isTerminatorAt groups n = false) :
    (namePart name).Heeds groups lax (fun _ m => m = placeAfter groups n) n :=
  ⟨fun _ => h, rfl⟩

/-- A name ends after its first part, unless there is a dot. -/
theorem heeds_name : name.Heeds groups lax (fun _ m => m = placeAfter groups n ∨
    (glanceAt groups (n + 1)).any (·.kind = .dot) = true) n := by
  have hstep (name : Name) (m : Nat) (hm : m = placeAfter groups n ∨
      (glanceAt groups (n + 1)).any (·.kind = .dot) = true) :
      (do
        if ← atKind 0 .dot <&&> atName 1 then
          take
          some <$> namePart name
        else return none : GrammarRule (Option Name)).Heeds groups lax (fun _ m =>
          m = placeAfter groups n ∨ (glanceAt groups (n + 1)).any (·.kind = .dot) = true) m := by
    refine (tells_at.and tells_at).heeds_ite (fun htest => ?_) fun _ => hm
    obtain ⟨hdot, hname⟩ := Bool.and_eq_true_iff.1 htest
    have hfirst : (glanceAt groups (n + 1)).any (·.kind = .dot) = true := by
      rcases hm with rfl | hm
      · rwa [glanceAt_placeAfter] at hdot
      · exact hm
    have hnotDot : isTerminatorAt groups m = false :=
      isTerminatorAt_of_any hdot fun _ => ne_slash_of_kind (by decide)
    refine (heeds_take hnotDot).bind fun _ k hk => ?_
    have hnotName : isTerminatorAt groups k = false := by
      refine isTerminatorAt_of_any (p := (·.kind.isName)) ?_ fun _ => ne_slash_of_name
      rw [hk, ← Nat.add_zero (placeAfter groups m), glanceAt_placeAfter]
      exact hname
    rw [map_eq_pure_bind]
    exact (heeds_namePart hnotName).bind fun _ _ _ => Or.inr hfirst
  refine tells_at.heeds_ite (fun hname => ?_) fun _ => trivial
  have hnotName : isTerminatorAt groups n = false := isTerminatorAt_of_any hname fun _ =>
    ne_slash_of_name
  exact (heeds_namePart hnotName).bind fun name m hm => heeds_iterate hstep (Or.inl hm)

theorem heedful_name : name.Heedful groups lax :=
  fun _ => heeds_name.mono fun _ _ _ => trivial

/-- A declared name ends where a name does. -/
theorem heeds_declaredName : declaredName.Heeds groups lax (fun _ m => m = placeAfter groups n ∨
    (glanceAt groups (n + 1)).any (·.kind = .dot) = true) n :=
  (heeds_bind ..).2 ((heeds_bind ..).2 heeds_name)

theorem heedful_declaredName : declaredName.Heedful groups lax :=
  fun _ => heeds_declaredName.mono fun _ _ _ => trivial

/-! ### Modifiers and datatypes -/

theorem heedful_modifier {inside : GrammarRule Unit} (h : inside.Heedful groups true) :
    (modifier inside).Heedful groups lax := by
  refine Heedful.node ((tells_key 0).heedful.bind fun first => ?_)
  cases first with
  | none => exact h
  | some t =>
    exact (tells_key 1).heedful.bind fun second => Heedful.bind (.setName _ ()) fun _ => h

theorem heedful_typeWords (base : Name) : (typeWords base).Heedful groups true := by
  have hvarying (words : List String) : (repeatWhile do
      if ← atAnyWord 0 words <&&> (not <$> atWord 1 "SET") then
        take
        return true
      else return false).Heedful groups true :=
    .repeatWhile <| (tells_at.and (tells_at.map not)).ite (heedful_take.bind fun _ => .pure _)
      (.pure _)
  unfold typeWords
  split
  case h_1 | h_2 => exact (heedful_takeWord _).bind fun _ => .ite (.pure _) (.pure _)
  case h_3 | h_4 | h_5 => exact (hvarying _).bind fun _ => .pure _
  case h_6 =>
    exact heedful_take.bind fun _ => heedful_skipParens.bind fun _ =>
      (heedful_expectWord _).bind fun _ => heedful_take.bind fun _ => .pure _
  case h_7 => exact .pure _

theorem heedful_timeZone (base : Name) : (timeZone base).Heedful groups lax :=
  .ite ((heedful_takeWord _).bind fun _ => .ite ((heedful_takeWord _).bind fun _ =>
    (heedful_expectWord _).bind fun _ => heedful_expectWord _) (.pure _)) (.pure _)

theorem heedful_typeAttribute (n : Name) : (typeAttribute n).Heedful groups true :=
  (tells_at.and tells_at).ite (heedful_take.bind fun _ _ => ⟨Bool.noConfusion, trivial⟩) (.pure _)

theorem heedful_databaseLink : databaseLink.Heedful groups true :=
  (tells_at.and tells_at).ite (heedful_take.bind fun _ => heedful_name.bind fun _ => .pure _)
    (.pure _)

theorem heedful_characterSet : characterSet.Heedful groups true :=
  (tells_at.and tells_at).ite (heedful_take.bind fun _ => heedful_take.bind fun _ =>
    heedful_name.bind fun _ => (heedful_takeKind (by decide)).bind fun _ =>
      .ite heedful_take (.pure _)) (.pure _)

/-- Datatypes are read without asking for terminators. -/
theorem heedful_typeExpr : typeExpr.Heedful groups lax := by
  refine Heedful.node ?_
  have href : (takeIf (atWord 0 "REF" <&&> (not <$> atWord 1 "CURSOR"))).Heedful groups true :=
    .takeIf (tells_at.and (tells_at.map not)) fun n h =>
      isTerminatorAt_of_any (Bool.and_eq_true_iff.1 h).1 fun _ => ne_slash_of_word
  exact href.bind fun _ => heedful_name.bind fun base => (heedful_typeWords base).bind fun full =>
    heedful_skipParens.bind fun _ => (heedful_timeZone base).bind fun _ =>
    (heedful_typeAttribute full).bind fun full => heedful_databaseLink.bind fun _ =>
    heedful_characterSet.bind fun _ => .setName full ()

theorem heedful_notNull : notNull.Heedful groups lax :=
  (tells_at.and tells_at).ite (heedful_modifier (heedful_take.bind fun _ => heedful_take)) (.pure _)

theorem heedful_collectionType : collectionType.Heedful groups lax := by
  have hrest : (do typeExpr; notNull : GrammarRule Unit).Heedful groups lax :=
    heedful_typeExpr.bind fun _ => heedful_notNull
  refine (heedful_takeWord _).bind fun _ => .ite ((heedful_expectWord _).bind fun _ => hrest) ?_
  have harray : (do
      if ← atKind 0 .lparen then node .literal skipParens .done
      expectWord "OF"
      typeExpr
      notNull : GrammarRule Unit).Heedful groups lax :=
    tells_at.ite ((Heedful.node heedful_skipParens).bind fun _ =>
      (heedful_expectWord _).bind fun _ => hrest) ((heedful_expectWord _).bind fun _ => hrest)
  exact (heedful_takeWord _).bind fun _ =>
    .ite ((heedful_expectWord _).bind fun _ => harray) ((heedful_expectWord _).bind fun _ => harray)

theorem heedful_expression : expression.Heedful groups lax :=
  (tells_atEnd.or tells_at).ite
    ((Heedful.missing _).bind fun _ => .node (heedful_skipUntil _)) (.node (heedful_skipUntil _))

theorem heedful_defaultValue : defaultValue.Heedful groups lax := by
  have hmark : (takeIf (atOperator 0 ":=" <||> atWord 0 "DEFAULT")).Heedful groups lax := by
    refine .takeIf (tells_at.or tells_at) fun n h => ?_
    rcases Bool.or_eq_true_iff.1 h with h | h
    · exact isTerminatorAt_of_any h fun _ => ne_slash_of_operator
    · exact isTerminatorAt_of_any h fun _ => ne_slash_of_word
  exact heedful_notNull.bind fun _ => hmark.bind fun _ => .ite heedful_expression (.pure _)

/-! ### Routines -/

theorem heedful_keywordNode (word : String) : (keywordNode word).Heedful groups lax := by
  refine fun n => tells_at.heeds_ite (fun hword => ?_) fun _ => trivial
  have hnot : isTerminatorAt groups n = false :=
    isTerminatorAt_of_any hword fun _ => ne_slash_of_word
  exact (heeds_leaf hnot).bind fun _ _ _ => trivial

/-- One item, and one more after every comma. -/
theorem heedful_separatedByCommas {item : GrammarRule Unit} (h : item.Heedful groups lax) :
    (separatedByCommas item).Heedful groups lax :=
  .repeatWhile (h.bind fun _ => heedful_takeKind (by decide))

theorem heedful_parenthesised {item : GrammarRule Unit} (h : item.Heedful groups lax) :
    (parenthesised item).Heedful groups lax :=
  (heedful_expectKind _ (by decide)).bind fun _ => (heedful_separatedByCommas h).bind fun _ =>
    heedful_expectKind _ (by decide)

theorem heedful_parameter : parameter.Heedful groups lax := by
  have hvalue : (do typeExpr; defaultValue : GrammarRule Unit).Heedful groups false :=
    heedful_typeExpr.bind fun _ => heedful_defaultValue
  have hrest : (do
      if ← atWord 0 "NOCOPY" then modifier take
      typeExpr
      defaultValue : GrammarRule Unit).Heedful groups false :=
    tells_at.ite ((heedful_modifier heedful_take).bind fun _ => hvalue) hvalue
  have hmode (mode : ParamMode) : (do
      setKind (.parameter mode) (.done ())
      if ← atWord 0 "NOCOPY" then modifier take
      typeExpr
      defaultValue : GrammarRule Unit).Heedful groups false :=
    fun n => ⟨rfl, hrest n⟩
  refine Heedful.node (heedful_declaredName.bind fun _ => ?_)
  exact (heedful_keywordNode _).bind fun input => (heedful_keywordNode _).bind fun output =>
    .ite (hmode _) hrest

theorem heedful_parameterList : parameterList.Heedful groups lax :=
  tells_at.ite (Heedful.node (heedful_parenthesised heedful_parameter)) (.pure _)

theorem heedful_returnClause : returnClause.Heedful groups lax := by
  have hself : (do
      times 3 take
      setName ⟨["SELF AS RESULT"]⟩ (.done ()) : GrammarRule Unit).Heedful groups true :=
    (Heedful.times heedful_take 3).bind fun _ => .setName _ ()
  refine Heedful.node ((heedful_expectWord _).bind fun _ => ?_)
  exact (tells_at.and (tells_at.and tells_at)).ite (.node hself) heedful_typeExpr

/-- Between two modifiers a terminator is asked for, but not inside one. -/
theorem heedful_routineModifiers : routineModifiers.Heedful groups lax := by
  have hwords (more : Nat) : (do
      let more ← Pure.pure more
      times (more + 1) take
      skipParens : GrammarRule Unit).Heedful groups true :=
    (Heedful.pure more).bind fun more => (Heedful.times heedful_take _).bind fun _ =>
      heedful_skipParens
  have hmodifier : routineModifier.Heedful groups lax :=
    heedful_modifier <| tells_at.heedful.bind fun _ => tells_at.heedful.bind fun _ =>
      .ite (hwords 1) (.ite (hwords 2) (hwords 0))
  exact .repeatWhile <| (tells_atEnd.or ((tells_atTerminator 0).or (tells_at.or tells_at))).ite
    (.pure _) (hmodifier.bind fun _ => .pure _)

/-- A modifier of a method, such as `NOT FINAL`. -/
theorem heedful_negatable : (modifier do
    let _ ← takeWord "NOT"
    take).Heedful groups lax :=
  heedful_modifier ((heedful_takeWord _).bind fun _ => heedful_take)

theorem heedful_methodWords (kind : MethodKind) : (methodWords kind).Heedful groups lax :=
  .ite ((heedful_expectWord _).bind fun _ => heedful_expectWord _)
    ((heedful_takeWords _ _).bind fun _ => .ite (.pure _) (.missing _))

theorem heedful_methodHead (kind : MethodKind) (inObject : Bool) :
    (methodHead kind inObject).Heedful groups false := by
  have hend : (do
      routineModifiers
      unless inObject do expectSemicolon : GrammarRule Unit).Heedful groups false :=
    heedful_routineModifiers.bind fun _ => .ite (.pure _) heedful_expectSemicolon
  exact heedful_declaredName.bind fun _ => heedful_parameterList.bind fun _ =>
    .ite (heedful_returnClause.bind fun _ => hend) hend

theorem heedful_method (modifiers offset : Nat) (inObject : Bool) :
    (method modifiers offset inObject).Heedful groups lax := by
  rw [method_eq]
  refine tells_at.heedful.bind fun _ => tells_at.heedful.bind fun _ => .within _ (.node ?_)
  exact (Heedful.times heedful_negatable modifiers).bind fun _ =>
    (heedful_methodWords _).bind fun _ => heedful_methodHead _ inObject

theorem heedful_cursor : cursor.Heedful groups lax := by
  have hquery : (do
      if ← takeWord "IS" then node .expression skipToSemicolon .done
      expectSemicolon : GrammarRule Unit).Heedful groups false :=
    (heedful_takeWord _).bind fun _ =>
      .ite ((Heedful.node (heedful_skipUntil _)).bind fun _ => heedful_expectSemicolon)
        heedful_expectSemicolon
  refine .within _ (.node ?_)
  exact (heedful_expectWord _).bind fun _ => heedful_declaredName.bind fun _ =>
    heedful_parameterList.bind fun _ => tells_at.ite
      (heedful_returnClause.bind fun _ => hquery) hquery

end SqlDoc.GrammarRule

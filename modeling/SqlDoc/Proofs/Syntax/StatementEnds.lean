/-
# A terminator ends the statement

Declarations, members of object types and the other parts of statements ask for a terminator before
they take what may be one, so in a statement that is not itself a terminator a `/` alone on its line
stands in a modifier, a datatype, a pragma or the bounds of an array only
(`parseSql_terminators`). These four are read without asking.

Key definition: `StatementForm.IsNext`.
Key theorems: `heeds_statementForm`, `heeds_statementInside`, `statementsUpTo_heeds`,
`parseSql_terminators`.
-/
import SqlDoc.Proofs.Syntax.Terminators

namespace SqlDoc
namespace GrammarRule

variable {groups : List SqlGroup} {lax : Bool} {n : Nat}

/-! ### Words in a row -/

/-- A word is the significant token of the group with index `n`. -/
def isWordAt (groups : List SqlGroup) (n : Nat) : Bool :=
  (glanceAt groups n).any (·.kind.isWord)

theorem isWordAt_of_any {words : List String}
    (h : (glanceAt groups n).any (fun t => t.kind.isWord && words.contains t.value) = true) :
    isWordAt groups n = true := by
  obtain ⟨t, ht, hword⟩ := (Option.any_eq_true ..).1 h
  exact (Option.any_eq_true ..).2 ⟨t, ht, (Bool.and_eq_true_iff.1 hword).1⟩

theorem isTerminatorAt_of_isWordAt (h : isWordAt groups n = true) :
    isTerminatorAt groups n = false := by
  refine isTerminatorAt_of_any h fun t ht hslash => ?_
  rw [hslash] at ht
  cases ht

/-- A word may be taken, and the next token is one further. -/
theorem heeds_take_word (h : isWordAt groups n = true) :
    take.Heeds groups lax (fun _ m => m = n + 1) n := by
  have hsome : (glanceAt groups n).isSome = true := by
    obtain ⟨t, ht, -⟩ := (Option.any_eq_true ..).1 h
    rw [ht]
    rfl
  exact (heeds_take (isTerminatorAt_of_isWordAt h)).mono fun _ m hm =>
    hm.trans (placeAfter_of_isSome hsome)

theorem heeds_times_take {count : Nat} (h : ∀ i < count, isWordAt groups (n + i) = true) :
    (times count take).Heeds groups lax (fun _ m => m = n + count) n := by
  induction count generalizing n with
  | zero => rfl
  | succ count ih =>
    have hfirst : isWordAt groups n = true := h 0 (Nat.succ_pos _)
    refine (heeds_take_word hfirst).bind fun _ m hm => ?_
    subst hm
    refine (ih fun i hi => ?_).mono fun _ m hm => ?_
    · rw [Nat.add_assoc, Nat.add_comm 1]
      exact h (i + 1) (Nat.succ_lt_succ hi)
    · rw [hm, Nat.add_assoc, Nat.add_comm 1]

/-! ### Declarations -/

/-- The word after the name is `CONSTANT`, so the name has one part and `CONSTANT` is next. -/
theorem heedful_variableDecl : variableDecl.Heedful groups lax := by
  have hrest (constant : Bool) : (do typeExpr; defaultValue; expectSemicolon).Heedful groups
      (NodeKind.variableDecl constant).mayHoldTerminator :=
    heedful_typeExpr.bind fun _ => heedful_defaultValue.bind fun _ => heedful_expectSemicolon
  intro n
  refine (tells_at.bind ..).2 ?_
  cases hconstant : (glanceAt groups (n + 1)).any
    (fun t => t.kind.isWord && ["CONSTANT"].contains t.value) with
  | false => exact Heedful.within _ (.node (heedful_declaredName.bind fun _ => hrest false)) n
  | true =>
    show Heeds groups (do declaredName; leaf .keyword; typeExpr; defaultValue; expectSemicolon)
      false _ n
    refine heeds_declaredName.bind fun _ m hm => ?_
    have hplace : m = placeAfter groups n := by
      refine hm.resolve_right fun hdot => ?_
      obtain ⟨t, ht, hword⟩ := (Option.any_eq_true ..).1 hconstant
      rw [ht, Option.any_some] at hdot
      rw [of_decide_eq_true hdot] at hword
      cases hword
    have hnot : isTerminatorAt groups m = false := by
      have hword : isWordAt groups (n + 1) = true := isWordAt_of_any hconstant
      refine isTerminatorAt_of_isWordAt ?_
      rwa [hplace, isWordAt, ← Nat.add_zero (placeAfter groups n), glanceAt_placeAfter]
    exact (heeds_leaf hnot).bind fun _ m _ => hrest true m

theorem heedful_exceptionDecl : exceptionDecl.Heedful groups lax :=
  .node (heedful_declaredName.bind fun _ => (heedful_expectWord _).bind fun _ =>
    heedful_expectSemicolon)

theorem heedful_subtypeDecl : subtypeDecl.Heedful groups lax := by
  have hconstraint : (do
      unless ← atKind 0 .semicolon <||> atEnd do modifier skipToSemicolon
      expectSemicolon : GrammarRule Unit).Heedful groups false :=
    (tells_at.or tells_atEnd).ite heedful_expectSemicolon
      ((heedful_modifier (heedful_skipUntil _)).bind fun _ => heedful_expectSemicolon)
  exact .within _ <| .node <| (heedful_expectWord _).bind fun _ =>
    heedful_declaredName.bind fun _ => (heedful_expectWord _).bind fun _ =>
      heedful_typeExpr.bind fun _ => hconstraint

theorem heedful_typeDefinition : typeDefinition.Heedful groups lax := by
  have hfield : recordField.Heedful groups lax :=
    .node (heedful_declaredName.bind fun _ => heedful_typeExpr.bind fun _ => heedful_defaultValue)
  have hindexBy : indexBy.Heedful groups lax :=
    .node (Heedful.bind (.setName _ ()) fun _ => heedful_take.bind fun _ =>
      (heedful_expectWord _).bind fun _ => heedful_typeExpr)
  have hreturn : (do
      if ← atWord 0 "RETURN" then returnClause
      return .refCursor : GrammarRule TypeShape).Heedful groups lax :=
    tells_at.ite (heedful_returnClause.bind fun _ => .pure _) (.pure _)
  intro n
  refine tells_at.heeds_ite (fun hrecord => ?_) fun _ => ?_
  · refine (heeds_leaf (isTerminatorAt_of_isWordAt (isWordAt_of_any hrecord))).bind fun _ m _ => ?_
    exact ((heedful_parenthesised hfield).bind fun _ => .pure _) m
  refine tells_at.heeds_ite (fun _ => ?_) fun _ => ?_
  · exact (heedful_collectionType.bind fun _ =>
      tells_at.ite (hindexBy.bind fun _ => .pure _) (.pure _)) n
  refine tells_at.heeds_ite (fun _ => ?_) fun _ => ?_
  · exact (heedful_collectionType.bind fun _ => .pure _) n
  refine (tells_at.and tells_at).heeds_ite (fun htest => ?_) fun _ => ?_
  · obtain ⟨href, hcursor⟩ := Bool.and_eq_true_iff.1 htest
    refine Heeds.bind (heeds_times_take fun i hi => ?_) fun _ m _ => hreturn m
    match i, hi with
    | 0, _ => exact isWordAt_of_any href
    | 1, _ => exact isWordAt_of_any hcursor
  · exact (heedful_expression.bind fun _ => .pure _) n

theorem heedful_typeDecl : typeDecl.Heedful groups lax := by
  have hend (shape : TypeShape) : (do
      setKind (.typeDecl shape) (.done ())
      expectSemicolon : GrammarRule Unit).Heedful groups false :=
    fun n => ⟨rfl, heedful_expectSemicolon n⟩
  exact .within _ <| .node <| (heedful_expectWord _).bind fun _ =>
    heedful_declaredName.bind fun _ => heedful_expectIsOrAs.bind fun _ =>
      heedful_typeDefinition.bind hend

/-- Pragmas are read without asking for terminators. -/
theorem heedful_pragma (terminated : Bool) : (pragma terminated).Heedful groups lax := by
  have hrest : (do
      take
      skipParens
      if terminated then expectSemicolon : GrammarRule Unit).Heedful groups true :=
    heedful_take.bind fun _ => heedful_skipParens.bind fun _ =>
      .ite heedful_expectSemicolon (.pure _)
  refine .node ((heedful_expectWord _).bind fun _ => (tells_key 0).heedful.bind fun seen => ?_)
  cases seen with
  | none => exact hrest
  | some t => exact Heedful.bind (.setName _ ()) fun _ => hrest

/-- Before a declaration that may be of any kind a terminator has been asked for. -/
theorem heeds_declaration (h : isTerminatorAt groups n = false) :
    declaration.Heeds groups lax (fun _ _ => True) n := by
  refine tells_at.heeds_ite (fun _ => heedful_subtypeDecl n) fun _ => ?_
  refine tells_at.heeds_ite (fun _ => heedful_typeDecl n) fun _ => ?_
  refine tells_at.heeds_ite (fun _ => heedful_pragma true n) fun _ => ?_
  refine tells_at.heeds_ite (fun _ => heedful_method 0 0 false n) fun _ => ?_
  refine tells_at.heeds_ite (fun _ => heedful_cursor n) fun _ => ?_
  refine (tells_at.and tells_at).heeds_ite (fun _ => heedful_exceptionDecl n) fun _ => ?_
  refine (tells_at.and (tells_at.or tells_at)).heeds_ite (fun _ => heedful_variableDecl n)
    fun _ => ?_
  exact Heeds.bind (heeds_take h) fun _ m _ => heedful_skipStatement m

theorem heedful_declarations : declarations.Heedful groups lax := by
  refine .repeatWhile (tells_at.ite (.pure _) fun n => ?_)
  refine (tells_atEnd.or ((tells_atTerminator 0).or (tells_atCreate 0))).heeds_ite
    (fun _ => trivial) fun hnot => ?_
  have hterminator : isTerminatorAt groups n = false :=
    (Bool.or_eq_false_iff.1 (Bool.or_eq_false_iff.1 hnot).2).1
  exact (heeds_declaration hterminator).bind fun _ _ _ => trivial

/-! ### Object types -/

theorem heedful_objectMember : objectMember.Heedful groups lax := by
  have hcount : countModifiers.Heedful groups lax :=
    .iterate (fun _ => (tells_at.and tells_at).ite (.pure _) (tells_at.ite (.pure _) (.pure _))) _
  have hattribute : attributeDecl.Heedful groups lax :=
    .within _ (.node (heedful_declaredName.bind fun _ => heedful_typeExpr))
  exact hcount.bind fun place => tells_at.ite (heedful_method place.2 place.1 true) <|
    .ite (.missing _) <| tells_at.ite (heedful_pragma false) hattribute

theorem heedful_under : under.Heedful groups lax := by
  have hname : (do
      if ← atName 0 then setName (← name) (.done ()) : GrammarRule Unit).Heedful groups true :=
    tells_at.ite (heedful_name.bind fun n => .setName n ()) (.pure _)
  exact heedful_modifier (heedful_take.bind fun _ => .node hname)

theorem heedful_typeBasis : typeBasis.Heedful groups lax := by
  intro n
  refine tells_at.heeds_ite (fun hobject => ?_) fun _ => ?_
  · exact (heeds_leaf (isTerminatorAt_of_isWordAt (isWordAt_of_any hobject))).mono
      fun _ _ _ => trivial
  · exact tells_at.ite heedful_collectionType (.missing _) n

theorem heedful_typeModifiers : typeModifiers.Heedful groups lax := by
  refine Heedful.bind (.repeatWhile ?_) fun _ => (heedful_takeKind (by decide)).bind fun _ =>
    .pure _
  exact (tells_atEnd.or ((tells_atTerminator 0).or (tells_at.or (tells_atCreate 0)))).ite (.pure _)
    (heedful_negatable.bind fun _ => .pure _)

theorem heedful_objectType : objectType.Heedful groups lax := by
  have hmembers : objectMembers.Heedful groups lax :=
    tells_at.ite (.pure _) (heedful_separatedByCommas heedful_objectMember)
  have hrest : (do
      if ← takeKind .lparen then
        objectMembers
        expectKind .rparen "`)`"
      typeModifiers).Heedful groups lax :=
    (heedful_takeKind (by decide)).bind fun _ => .ite (hmembers.bind fun _ =>
      (heedful_expectKind _ (by decide)).bind fun _ => heedful_typeModifiers) heedful_typeModifiers
  have hforward : (takeKind .semicolon <||> atEnd <||> atTerminator 0).Heedful groups lax := by
    refine (heedful_takeKind (by decide)).bind fun b => ?_
    cases b
    · exact (tells_atEnd.or (tells_atTerminator 0)).heedful
    · exact .pure _
  exact hforward.bind fun _ => .ite (.pure _) <|
    tells_at.ite (heedful_under.bind fun _ => hrest) <|
    (heedful_takeWords _ _).bind fun _ =>
      .ite (heedful_typeBasis.bind fun _ => hrest) ((Heedful.missing _).bind fun _ => hrest)

/-! ### Units -/

theorem heedful_unitClauses : unitClauses.Heedful groups lax := by
  have hclause {inside : GrammarRule Unit} (h : inside.Heedful groups true) :
      (modifier inside >>= fun _ => Pure.pure true).Heedful groups lax :=
    (heedful_modifier h).bind fun _ => .pure _
  have hsharing : (do
      take
      let _ ← takeIf (atOperator 0 "=")
      take).Heedful groups true :=
    heedful_take.bind fun _ => (heedful_takeIf_at fun _ => ne_slash_of_operator).bind fun _ =>
      heedful_take
  have haccessible : (do
      times 2 take
      skipParens).Heedful groups true :=
    (Heedful.times heedful_take 2).bind fun _ => heedful_skipParens
  refine .repeatWhile ?_
  exact tells_at.ite (hclause hsharing) <| tells_at.ite (hclause (.times heedful_take 2)) <|
    (tells_at.and tells_at).ite (hclause haccessible) <|
    (tells_at.and tells_at).ite (hclause (.times heedful_take 3)) <|
    tells_at.ite (hclause heedful_take) <|
    tells_at.ite (hclause (.times heedful_take 2)) (.pure _)

theorem heedful_endClause : endClause.Heedful groups lax := by
  have hmark : (do let _ ← takeKind .semicolon : GrammarRule Unit).Heedful groups false :=
    (heedful_takeKind (by decide)).bind fun _ => .pure _
  exact .node <| (heedful_expectWord _).bind fun _ => tells_at.ite
    (heedful_name.bind fun n => Heedful.bind (.setName n ()) fun _ => hmark) hmark

theorem heedful_opaqueBody : opaqueBody.Heedful groups lax :=
  (tells_atEnd.or (tells_atTerminator 0)).ite (.pure _) (.node heedful_skipToTerminator)

theorem heedful_unitBody : unitBody.Heedful groups lax :=
  heedful_unitClauses.bind fun _ => heedful_expectIsOrAs.bind fun _ => heedful_opaqueBody

theorem heedful_standaloneRoutine (isFunction : Bool) :
    (standaloneRoutine isFunction).Heedful groups lax := by
  have hrest : (do
      routineModifiers
      if ← takeWord "IS" <||> takeWord "AS" then opaqueBody
      else
        let _ ← takeKind .semicolon : GrammarRule Unit).Heedful groups lax :=
    heedful_routineModifiers.bind fun _ => (heedful_takeWords _ _).bind fun _ =>
      .ite heedful_opaqueBody ((heedful_takeKind (by decide)).bind fun _ => .pure _)
  exact heedful_parameterList.bind fun _ => .ite (heedful_returnClause.bind fun _ => hrest) hrest

theorem heedful_unitRest (unit : UnitKind) : (unitRest unit).Heedful groups lax := by
  cases unit with
  | package =>
    exact heedful_unitClauses.bind fun _ => heedful_expectIsOrAs.bind fun _ =>
      heedful_declarations.bind fun _ => heedful_endClause
  | packageBody | typeBody => exact heedful_unitBody
  | objectType => exact heedful_unitClauses.bind fun _ => heedful_objectType
  | procedure | function => exact heedful_standaloneRoutine _

end GrammarRule

/-! ### Statements -/

/-- What stands where a statement of the form begins, so that its first tokens can be taken. -/
def StatementForm.IsNext (groups : List SqlGroup) (n : Nat) : StatementForm → Prop
  | create _ offset isBody => (∀ i ≤ offset, GrammarRule.isWordAt groups (n + i) = true) ∧
    (isBody = true → GrammarRule.isWordAt groups (n + (offset + 1)) = true)
  | terminator => True
  | command | unknown => isTerminatorAt groups n = false

namespace GrammarRule

variable {groups : List SqlGroup} {lax : Bool} {n : Nat}

/-- There are words up to the one that tells what is created. -/
theorem heeds_createOffset : createOffset.Heeds groups lax (fun offset m => m = n ∧
    ∀ i, 1 ≤ i → i < offset → isWordAt groups (n + i) = true) n := by
  have hedition (offset : Nat) (h : ∀ i, 1 ≤ i → i < offset → isWordAt groups (n + i) = true) :
      (do
        return if ← atAnyWord offset ["EDITIONABLE", "NONEDITIONABLE", "EDITIONING"] then offset + 1
          else offset : GrammarRule Nat).Heeds groups lax (fun offset m => m = n ∧
            ∀ i, 1 ≤ i → i < offset → isWordAt groups (n + i) = true) n := by
    refine (tells_at.bind ..).2 ?_
    cases hword : (glanceAt groups (n + offset)).any (fun t => t.kind.isWord &&
      ["EDITIONABLE", "NONEDITIONABLE", "EDITIONING"].contains t.value) with
    | false => exact ⟨rfl, h⟩
    | true =>
      refine ⟨rfl, fun i hi hlt => ?_⟩
      rcases Nat.lt_succ_iff_lt_or_eq.1 hlt with hlt | rfl
      · exact h i hi hlt
      · exact isWordAt_of_any hword
  refine ((tells_at.and tells_at).bind ..).2 ?_
  cases htest : (glanceAt groups (n + 1)).any
      (fun t => t.kind.isWord && ["OR"].contains t.value) &&
    (glanceAt groups (n + 2)).any (fun t => t.kind.isWord && ["REPLACE"].contains t.value) with
  | false => exact hedition 1 fun i hi hlt => absurd hi (Nat.not_le_of_lt hlt)
  | true =>
    obtain ⟨hor, hreplace⟩ := Bool.and_eq_true_iff.1 htest
    refine hedition 3 fun i hi hlt => ?_
    match i, hi, hlt with
    | 1, _, _ => exact isWordAt_of_any hor
    | 2, _, _ => exact isWordAt_of_any hreplace

/-- The kind of unit is told by a word. -/
theorem heeds_unitKind (offset : Nat) (isBody : Bool) : (unitKind offset isBody).Heeds groups lax
    (fun unit m => m = n ∧ (unit.isSome = true → isWordAt groups (n + offset) = true)) n := by
  refine tells_at.heeds_ite (fun h => ⟨rfl, fun _ => isWordAt_of_any h⟩) fun _ => ?_
  refine tells_at.heeds_ite (fun h => ⟨rfl, fun _ => isWordAt_of_any h⟩) fun _ => ?_
  refine tells_at.heeds_ite (fun h => ⟨rfl, fun _ => isWordAt_of_any h⟩) fun _ => ?_
  refine tells_at.heeds_ite (fun h => ⟨rfl, fun _ => isWordAt_of_any h⟩) fun _ => ?_
  exact ⟨rfl, fun h => Bool.noConfusion h⟩

/-- The form of a statement is told by looks alone. -/
theorem heeds_statementForm :
    statementForm.Heeds groups lax (fun form m => m = n ∧ form.IsNext groups n) n := by
  refine tells_at.heeds_ite (fun hcreate => ?_) fun _ => ?_
  · have hcreate : isWordAt groups n = true := isWordAt_of_any hcreate
    refine heeds_createOffset.bind fun offset m ⟨hm, hwords⟩ => ?_
    subst hm
    refine (tells_at.bind ..).2 ?_
    cases hbody : (glanceAt groups (m + (offset + 1))).any
      (fun t => t.kind.isWord && ["BODY"].contains t.value) <;>
    · refine (heeds_unitKind offset _).bind fun unit k ⟨hk, hunit⟩ => ?_
      subst hk
      cases unit with
      | none => exact ⟨rfl, isTerminatorAt_of_isWordAt hcreate⟩
      | some unit =>
        refine ⟨rfl, fun i hi => ?_, ?_⟩
        · rcases Nat.eq_zero_or_pos i with rfl | hpos
          · exact hcreate
          · rcases Nat.lt_or_eq_of_le hi with hlt | rfl
            · exact hwords i hpos hlt
            · exact hunit rfl
        · first
          | exact fun _ => isWordAt_of_any hbody
          | exact fun h => Bool.noConfusion h
  · refine ((tells_atTerminator 0).or tells_at).heeds_ite (fun _ => ⟨rfl, trivial⟩) fun hnot => ?_
    have hterminator : isTerminatorAt groups n = false := (Bool.or_eq_false_iff.1 hnot).1
    exact (tells_at.or tells_at).heeds_ite (fun _ => ⟨rfl, hterminator⟩)
      fun _ => ⟨rfl, hterminator⟩

/-- Only a terminator on its own takes one. -/
theorem heeds_statementInside {form : StatementForm} (h : form.IsNext groups n) :
    (statementInside form).Heeds groups (decide (form = .terminator)) (fun _ _ => True) n := by
  cases form with
  | create unit offset isBody =>
    have hname : (do declaredName; unitRest unit).Heedful groups false :=
      heedful_declaredName.bind fun _ => heedful_unitRest unit
    refine Heeds.bind (heeds_times_take fun i hi => h.1 i (Nat.le_of_lt_succ hi)) fun _ m hm => ?_
    subst hm
    cases isBody with
    | false => exact hname _
    | true => exact (heeds_take_word (h.2 rfl)).bind fun _ m _ => hname m
  | terminator => exact heedful_take n
  | command =>
    refine ((tells_key 0).bind ..).2 ?_
    cases glanceAt groups (n + 0) with
    | none => exact heeds_skipLine h
    | some t => exact heeds_skipLine h
  | unknown =>
    have hblock : (atAnyWord 0 ["DECLARE", "BEGIN"] <||> atForeignBody).Heeds groups false
        (fun _ m => m = n) n := by
      refine (tells_at.bind ..).2 ?_
      cases (glanceAt groups (n + 0)).any
        (fun t => t.kind.isWord && ["DECLARE", "BEGIN"].contains t.value) with
      | true => rfl
      | false =>
        refine heeds_createOffset.bind fun offset m ⟨hm, _⟩ => ?_
        have hcreate : (atWord 0 "CREATE" <&&> atAnyWord offset ["TRIGGER", "JAVA",
            "LIBRARY"]).Tells groups _ := tells_at.and tells_at
        exact (hcreate ..).2 hm
    refine hblock.bind fun isBlock m hm => ?_
    subst hm
    refine Heeds.bind (heeds_take h) fun _ m _ => ?_
    cases isBlock with
    | true => exact heedful_skipToTerminator m
    | false => exact heedful_skipStatement m

end GrammarRule

/-- Nothing but the open node's kind is another. -/
theorem Heeded.setKind {groups : List SqlGroup} {error : Option LexError} {lax : Bool}
    {s next : ParseState} {n m : Nat} (h : Heeded groups error lax s next n m) (kind : NodeKind) :
    Heeded groups error lax { s with current := { s.current with kind } }
      { next with current := { next.current with kind } } n m :=
  ⟨⟨h.place.holds, h.place.started⟩, Or.inl rfl, h.below⟩

/-- The tree of a statement has the groups from `first` on, and unless it is a terminator itself it
heeds terminators. -/
structure SyntaxTree.HeedsFrom (groups : List SqlGroup) (first : Nat) (t : SyntaxTree) : Prop where
  groups_prefix : t.groups <+: groups.drop first
  heeds : t.kind ≠ .terminator → t.below.Heeds groups t.kind.mayHoldTerminator first

theorem mayHoldTerminator_kind (form : StatementForm) : form.kind.mayHoldTerminator = false := by
  cases form <;> rfl

/-- A statement that is read heeds terminators, and the next begins after its groups. -/
theorem heeds_statement {groups : List SqlGroup} {error : Option LexError} {s next : ParseState}
    {n : Nat} (hs : s.At groups error n)
    (hrun : GrammarRule.statement.run s.openNode = (.ok (), next)) :
    next.At groups error (n + next.current.toTree.groups.length) ∧
      next.current.toTree.HeedsFrom groups n := by
  have hopen : s.openNode.At groups error n := ⟨hs.holds, hs.started⟩
  obtain ⟨form, mid, hform, hrun⟩ := GrammarRule.ok_of_statement hrun
  obtain ⟨m, ⟨rfl, hnext⟩, hlooked⟩ := heeds_run hopen GrammarRule.heeds_statementForm hform
  have hlooked := hlooked.setKind form.kind
  obtain ⟨k, -, hinside⟩ :=
    heeds_run hlooked.place (GrammarRule.heeds_statementInside hnext) hrun
  obtain ⟨f, hbelow, hgroups, hk, hheeds⟩ := (hlooked.trans hinside).below
  have hbelow : next.current.below = f := hbelow
  have htree : next.current.toTree.groups = f.groups := congrArg Forest.groups hbelow
  rw [htree, ← hk]
  refine ⟨hinside.place, ?_, fun hkind => ?_⟩
  · rw [htree, ← hgroups]
    exact List.prefix_append ..
  · show Forest.Heeds _ next.current.kind.mayHoldTerminator _ next.current.below
    have hlax : next.current.kind.mayHoldTerminator = decide (form = .terminator) := by
      rcases (hlooked.trans hinside).kind with hsame | hlax
      · have hsame : next.current.kind = form.kind := hsame
        have hform : form ≠ .terminator := fun hform => hkind (hsame.trans (hform ▸ rfl))
        rw [hsame, mayHoldTerminator_kind, decide_eq_false hform]
      · exact hlax
    rw [hlax, hbelow]
    exact hheeds

/-- Every statement that is read heeds terminators, and has the groups after those of the ones
before it. -/
theorem statementsUpTo_heeds {groups : List SqlGroup} {error : Option LexError} (count : Nat)
    {s : ParseState} {n : Nat} (hs : s.At groups error n) {before after : List SyntaxTree}
    {t : SyntaxTree} (h : (s.statementsUpTo count).trees = before ++ t :: after) :
    t.HeedsFrom groups (n + (before.flatMap (·.groups)).length) := by
  refine ParseState.split_statementsUpTo
    (I := fun before s => s.At groups error (n + (before.flatMap (·.groups)).length))
    (Q := fun before t => t.HeedsFrom groups (n + (before.flatMap (·.groups)).length))
    (fun hs _ hrun => ?_) hs h
  obtain ⟨hnext, hheeds⟩ := heeds_statement (hs.key 0).2 hrun
  refine ⟨hheeds, ?_⟩
  rwa [List.flatMap_append, List.length_append, List.flatMap_singleton, ← Nat.add_assoc]

/-- The groups of a script go to its statements in order. In a statement that is not a terminator
itself, a `/` alone on its line stands in a modifier, a datatype, a pragma or the bounds of an array
only. -/
theorem parseSql_terminators (source : String) (filename : Option String)
    {before after : List SyntaxTree} {t : SyntaxTree}
    (h : (parseSql source filename).trees = before ++ t :: after) :
    let groups := groupsOf (lexSql source filename).tokens
    let first := (before.flatMap (·.groups)).length
    t.groups <+: groups.drop first ∧
      (t.kind ≠ .terminator → ∀ (i : Nat) (kind : NodeKind),
        (t.below.holders t.kind)[i]? = some kind → isTerminatorAt groups (first + i) = true →
          kind = .modifier ∨ kind = .typeExpr ∨ kind = .pragma ∨ kind = .literal) := by
  intro groups first
  have hstart : (ParseState.ofLexed (lexSql source filename)).At groups
      (lexSql source filename).error 0 :=
    ⟨TokenStream.holds_ofLexed _, rfl⟩
  have hheeds := statementsUpTo_heeds _ hstart h
  rw [Nat.zero_add] at hheeds
  refine ⟨hheeds.groups_prefix, fun hkind i kind hholder hi => ?_⟩
  exact NodeKind.mayHoldTerminator_iff.1 ((hheeds.heeds hkind).of_holders hholder hi)

/-- A function whose modifier is followed by a `/` that is alone on its line. -/
theorem function_holds_slash :
    let source := "CREATE FUNCTION f RETURN NUMBER AUTHID\n/\n"
    isTerminatorAt (groupsOf (lexSql source none).tokens) 6 = true ∧
      ∃ t, (parseSql source none).trees = [t] ∧ t.kind = .createUnit .function ∧
        t.groups.length = 7 ∧ (t.below.holders t.kind)[6]? = some .modifier := by
  intro source
  have hlist : (parseSql source none).trees.map (fun t =>
      (t.kind, t.groups.length, (t.below.holders t.kind)[6]?)) =
      [(.createUnit .function, 7, some .modifier)] := by decide +kernel
  obtain ⟨t, ht, hparts⟩ := List.map_eq_singleton_iff.1 hlist
  obtain ⟨hkind, hparts⟩ := Prod.mk.inj hparts
  exact ⟨by decide +kernel, t, ht, hkind, Prod.mk.inj hparts⟩

/-- A modifier takes the `/` after it for its argument. -/
theorem parseSql_terminators_modifier :
    let source := "CREATE FUNCTION f RETURN NUMBER AUTHID\n/\n"
    let groups := groupsOf (lexSql source none).tokens
    ∃ t, (parseSql source none).trees = [] ++ t :: [] ∧ t.kind ≠ .terminator ∧
      isTerminatorAt groups 6 = true ∧ (t.below.holders t.kind)[6]? = some .modifier ∧
      t.groups <+: groups ∧ ∀ (i : Nat) (kind : NodeKind),
        (t.below.holders t.kind)[i]? = some kind → isTerminatorAt groups (0 + i) = true →
          kind = .modifier ∨ kind = .typeExpr ∨ kind = .pragma ∨ kind = .literal := by
  intro source groups
  obtain ⟨hslash, t, ht, hkind, -, hholder⟩ := function_holds_slash
  have ht : (parseSql source none).trees = [] ++ t :: [] := ht
  have hne : t.kind ≠ .terminator := by
    rw [hkind]
    exact NodeKind.noConfusion
  obtain ⟨hgroups, hholders⟩ := parseSql_terminators source none ht
  exact ⟨t, ht, hne, hslash, hholder, hgroups, hholders hne⟩

/-- So not every `/` that is alone on its line ends the statement. -/
theorem not_ends_at_terminator : ¬ ∀ (source : String) (filename : Option String)
    (before after : List SyntaxTree) (t : SyntaxTree),
    (parseSql source filename).trees = before ++ t :: after → t.kind ≠ .terminator →
      ∀ i < t.groups.length, isTerminatorAt (groupsOf (lexSql source filename).tokens)
        ((before.flatMap (·.groups)).length + i) = false := by
  intro h
  let source := "CREATE FUNCTION f RETURN NUMBER AUTHID\n/\n"
  obtain ⟨hslash, t, ht, hkind, hlength, -⟩ := function_holds_slash
  have hne : t.kind ≠ .terminator := by
    rw [hkind]
    exact NodeKind.noConfusion
  have hfalse := h source none [] [] t ht hne 6 (by rw [hlength]; decide)
  rw [List.flatMap_nil, List.length_nil, Nat.zero_add, hslash] at hfalse
  cases hfalse

end SqlDoc

/-
# Where rules give up

The rules of packages, object types and units look no further than one group past the next, so they
give up where no more has been looked at. A member of an object type is the exception: the words that
may stand before a method are passed to find out whether there is one, and are taken with it if there
is (`reaches_method`). If there is none, all that has been looked at may stand before a method. A
`CREATE` statement is told by looking further, too; but either the words that have been looked at are
taken as soon as it is known what is created, or the statement is not understood, and it goes on past
them (`reaches_unknownStatement`).

Key definitions: `afterPrefix`, `Prefixes`.
Key theorems: `reaches_countModifiers`, `nearsighted_objectMember`, `reaches_statement`.
-/
import Mathlib.Order.Iterate
import SqlDoc.Proofs.Syntax.Nearsighted
import SqlDoc.Proofs.Syntax.StatementEnds

namespace SqlDoc

/-! ### Words before a method -/

/-- The place after a word before a method, with the `NOT` in front of it if there is one. -/
def afterPrefix (groups : List SqlGroup) (n : Nat) : Nat :=
  if (glanceAt groups n).any (fun t => t.kind.isWord && ["NOT"].contains t.value) then n + 2
  else n + 1

/-- From the place `n` on there are `count` modifiers of a method, which are `offset` words. -/
structure Prefixes (groups : List SqlGroup) (n count offset : Nat) : Prop where
  place : (afterPrefix groups)^[count] n = n + offset
  words : ∀ i < offset, (glanceAt groups (n + i)).any Glance.isMethodPrefix = true

namespace Prefixes

variable {groups : List SqlGroup} {n count offset : Nat}

theorem none : Prefixes groups n 0 0 where
  place := rfl
  words _ h := absurd h (Nat.not_lt_zero _)

theorem isMethodPrefix_of_any {words : List String} {n : Nat}
    (hwords : ∀ w ∈ words, w ∈ "NOT" :: GrammarRule.methodModifiers)
    (h : (glanceAt groups n).any (fun t => t.kind.isWord && words.contains t.value) = true) :
    (glanceAt groups n).any Glance.isMethodPrefix = true := by
  obtain ⟨t, ht, hword⟩ := (Option.any_eq_true ..).1 h
  obtain ⟨hkind, hvalue⟩ := Bool.and_eq_true_iff.1 hword
  rw [ht, Option.any_some, Glance.isMethodPrefix, hkind, Bool.true_and, List.contains_iff_mem]
  exact hwords _ (List.contains_iff_mem.1 hvalue)

/-- One more word, which is no `NOT`. -/
theorem word (h : Prefixes groups n count offset)
    (hword : (glanceAt groups (n + offset)).any (fun t => t.kind.isWord &&
      GrammarRule.methodModifiers.contains t.value) = true) :
    Prefixes groups n (count + 1) (offset + 1) where
  place := by
    have hnot : (glanceAt groups (n + offset)).any
        (fun t => t.kind.isWord && ["NOT"].contains t.value) = false := by
      obtain ⟨t, ht, hvalue⟩ := (Option.any_eq_true ..).1 hword
      obtain ⟨-, hvalue⟩ := Bool.and_eq_true_iff.1 hvalue
      rw [ht, Option.any_some, Bool.and_eq_false_iff]
      right
      revert hvalue
      generalize t.value = value
      simp [GrammarRule.methodModifiers]
      rintro (rfl | rfl | rfl | rfl | rfl | rfl | rfl) <;> decide
    rw [Function.iterate_succ_apply', h.place, afterPrefix, hnot]
    rfl
  words i hi := by
    by_cases hbefore : i < offset
    · exact h.words i hbefore
    · obtain rfl : i = offset := by omega
      exact isMethodPrefix_of_any (fun w hw => List.mem_cons_of_mem _ hw) hword

/-- One more word with a `NOT` in front of it. -/
theorem not (h : Prefixes groups n count offset)
    (hnot : (glanceAt groups (n + offset)).any
      (fun t => t.kind.isWord && ["NOT"].contains t.value) = true)
    (hword : (glanceAt groups (n + (offset + 1))).any (fun t => t.kind.isWord &&
      GrammarRule.negatableModifiers.contains t.value) = true) :
    Prefixes groups n (count + 1) (offset + 2) where
  place := by
    rw [Function.iterate_succ_apply', h.place, afterPrefix, hnot]
    rfl
  words i hi := by
    by_cases hbefore : i < offset
    · exact h.words i hbefore
    by_cases hfirst : i = offset
    · subst hfirst
      exact isMethodPrefix_of_any (by simp) hnot
    · obtain rfl : i = offset + 1 := by omega
      exact isMethodPrefix_of_any (fun w hw => List.mem_cons_of_mem _ (List.mem_of_mem_take hw))
        hword

end Prefixes

namespace GrammarRule

variable {groups : List SqlGroup} {p q : Reach}

/-- After `count` modifiers, which are `offset` words, have been passed. Only if there is none, or if
there is one more word of their sort, has the group after the next one been looked at. -/
structure Passed (groups : List SqlGroup) (p : Reach) (offset count : Nat) (q : Reach) : Prop where
  taken : q.taken = p.taken
  prefixes : Prefixes groups p.taken count offset
  seen : q.seen ≤ p.taken + offset + 2
  last : q.seen ≤ p.taken + offset + 1 ∨ count = 0 ∨
    (glanceAt groups (p.taken + offset)).any Glance.isMethodPrefix = true

namespace Passed

variable {offset count : Nat} {w : Reach}

/-- The group that comes after these words may be looked at again. -/
theorem looked (h : Passed groups p offset count q) (hw : q.Looked (offset + 1) w) :
    Passed groups p offset count w := by
  have htaken := h.taken
  have hseen := h.seen
  have hlooked := hw.seen
  refine ⟨hw.taken.trans htaken, h.prefixes, by omega, ?_⟩
  rcases h.last with hnear | hlast
  · left
    omega
  · exact Or.inr hlast

/-- If a rule gives up after it has passed a word, all that it has passed may stand before a
method. -/
theorem mayStop (h : Passed groups p offset count q) (hcount : 0 < count) : q.MayStop groups := by
  right
  left
  intro i hi hlt
  have htaken := h.taken
  have hseen := h.seen
  have hword (hbefore : i < p.taken + offset) :
      (glanceAt groups i).any Glance.isMethodPrefix = true := by
    have hat := h.prefixes.words (i - p.taken) (by omega)
    rwa [show p.taken + (i - p.taken) = i by omega] at hat
  rcases h.last with hnear | hnone | hlast
  · exact hword (by omega)
  · omega
  · by_cases hbefore : i < p.taken + offset
    · exact hword hbefore
    · obtain rfl : i = p.taken + offset := by omega
      exact hlast

/-- If it has passed none, it has not looked far. -/
theorem near (h : Passed groups p offset 0 q) : q.Near := by
  have hplace : p.taken = p.taken + offset := h.prefixes.place
  have htaken := h.taken
  have hseen := h.seen
  unfold Reach.Near
  omega

end Passed

theorem reaches_countModifiers (hp : p.Near) : countModifiers.Reaches groups (Reach.MayStop groups)
    (fun (state : Nat × Nat) q => Passed groups p state.1 state.2 q) p := by
  refine reaches_iterate_keeps (I := fun (state : Nat × Nat) q => Passed groups p state.1 state.2 q)
    (fun (offset, count) q h => ?_) ⟨rfl, .none, hp, Or.inr (Or.inl rfl)⟩
  have h : Passed groups p offset count q := h
  have htest : (atWord offset "NOT" <&&> atAnyWord (offset + 1) negatableModifiers).Reaches groups
      (Reach.MayStop groups) (fun found w => if found then Passed groups p (offset + 2) (count + 1) w
        else Passed groups p offset count w) q := by
    refine (peeks_at (Nat.lt_succ_self offset)).bind fun w hw => ?_
    have hpassed := h.looked hw
    cases hnot : (glanceAt groups (q.taken + offset)).any
        (fun t => t.kind.isWord && ["NOT"].contains t.value) with
    | false => exact hpassed
    | true =>
      refine peeks_at (Nat.lt_succ_self (offset + 1)) _ _ w fun v hv => ?_
      have htaken := hpassed.taken
      have hseen := hpassed.seen
      have hlooked := hv.seen
      rw [h.taken] at hnot
      dsimp only
      split
      · rename_i hword
        rw [htaken] at hword
        exact ⟨hv.taken.trans htaken, h.prefixes.not hnot hword, by omega, Or.inl (by omega)⟩
      · refine ⟨hv.taken.trans htaken, h.prefixes, by omega, Or.inr (Or.inr ?_)⟩
        exact Prefixes.isMethodPrefix_of_any (by simp) hnot
  refine htest.bind fun found w hw => ?_
  cases found with
  | true => exact hw
  | false =>
    have hw : Passed groups p offset count w := hw
    refine (peeks_at (Nat.lt_succ_self offset)).ite (fun hword v hv => ?_) fun _ v hv =>
      hw.looked hv
    have htaken := hw.taken
    have hseen := hw.seen
    have hlooked := hv.seen
    rw [htaken] at hword
    show Passed groups p (offset + 1) (count + 1) v
    exact ⟨hv.taken.trans htaken, hw.prefixes.word hword, by omega, Or.inl (by omega)⟩

theorem reaches_modifier {E Q : Reach → Prop} {inside : GrammarRule Unit}
    (h : ∀ q, p.Looked 2 q → inside.Reaches groups E (fun _ => Q) q) :
    (modifier inside).Reaches groups E (fun _ => Q) p := by
  refine reaches_node ((peeks_key Nat.two_pos).bind fun q hq => ?_)
  cases glanceAt groups (p.taken + 0) with
  | none => exact h q hq
  | some t =>
    refine (peeks_key Nat.one_lt_two).bind fun w hw => ?_
    exact h w (hq.trans hw)

/-- A significant token is taken. -/
theorem reaches_take_some {E : Reach → Prop} {bound : Nat}
    (hsome : (glanceAt groups p.taken).isSome = true) (hseen : p.seen ≤ bound)
    (hbound : p.taken + 1 ≤ bound) :
    take.Reaches groups E (fun _ q => q.taken = p.taken + 1 ∧ q.seen ≤ bound) p :=
  ⟨placeAfter_of_isSome hsome, Nat.max_le.2 ⟨hseen, hbound⟩⟩

/-- A modifier of a method ends after its word. -/
theorem reaches_oneModifier {E : Reach → Prop} {bound : Nat}
    (hsome : ∀ i, p.taken ≤ i → i < afterPrefix groups p.taken →
      (glanceAt groups i).isSome = true)
    (hseen : p.seen ≤ bound) (hbound : p.taken + 2 ≤ bound) :
    (modifier do
      let _ ← takeWord "NOT"
      take).Reaches groups E (fun _ q =>
        q.taken = afterPrefix groups p.taken ∧ q.seen ≤ bound) p := by
  refine reaches_modifier fun q hq => ?_
  have hword : (takeWord "NOT").Reaches groups E (fun _ w => p.taken ≤ w.taken ∧
      w.taken + 1 = afterPrefix groups p.taken ∧ w.taken + 1 ≤ bound ∧ w.seen ≤ bound) q := by
    refine reaches_takeIf (peeks_at Nat.two_pos) (fun hnot w hw => ?_) fun hnot w hw => ?_
    all_goals
      rw [Nat.add_zero, hq.taken] at hnot
      have htaken := hw.taken.trans hq.taken
      have hlooked := (hq.trans hw).seen
    · have hafter : afterPrefix groups p.taken = p.taken + 2 := if_pos hnot
      have hplace := placeAfter_of_isSome (hsome p.taken (Nat.le_refl _) (by omega))
      rw [Reach.take_taken, Reach.take_seen, htaken, hplace]
      omega
    · have hafter : afterPrefix groups p.taken = p.taken + 1 := if_neg (by rw [hnot]; decide)
      omega
  refine hword.bind fun _ w ⟨hle, hlast, hw, hseen⟩ => ?_
  exact (reaches_take_some (hsome w.taken hle (by omega)) hseen hw).mono fun _ v hv =>
    ⟨hv.1.trans hlast, hv.2⟩

/-- All words before a method are taken as its modifiers. -/
theorem reaches_prefixes {count offset : Nat} (h : Prefixes groups p.taken count offset)
    (hseen : p.seen ≤ p.taken + offset + 2) :
    (times count <| modifier do
      let _ ← takeWord "NOT"
      take).Reaches groups (Reach.MayStop groups) (fun _ q => q.Near) p := by
  induction count generalizing p offset with
  | zero =>
    have hplace : p.taken = p.taken + offset := h.place
    show p.seen ≤ p.taken + 2
    omega
  | succ count ih =>
    have hplace := h.place
    rw [Function.iterate_succ_apply] at hplace
    have hpos : p.taken < afterPrefix groups p.taken := by
      unfold afterPrefix
      split <;> omega
    have hle : afterPrefix groups p.taken ≤ p.taken + offset := by
      have hid : id ≤ afterPrefix groups := fun n => by
        unfold afterPrefix
        split <;> simp
      exact Nat.le_trans (Function.id_le_iterate_of_id_le hid count _) hplace.le
    have hsome (i : Nat) (hi : p.taken ≤ i) (hlt : i < p.taken + offset) :
        (glanceAt groups i).any Glance.isMethodPrefix = true := by
      have hword := h.words (i - p.taken) (by omega)
      rwa [show p.taken + (i - p.taken) = i by omega] at hword
    refine Reaches.bind (reaches_oneModifier (fun i hi hlt => ?_) hseen (by omega)) fun _ q hq => ?_
    · exact Option.isSome_of_any (hsome i hi (by omega))
    · obtain ⟨htaken, hq⟩ := hq
      have hrest : Prefixes groups q.taken count (p.taken + offset - q.taken) := by
        refine ⟨?_, fun i hi => hsome (q.taken + i) (by omega) (by omega)⟩
        rw [htaken, hplace]
        omega
      exact ih hrest (by omega)

theorem nearsighted_negatable : (modifier do
    let _ ← takeWord "NOT"
    take).Nearsighted groups :=
  nearsighted_modifier ((nearsighted_takeWord _).bind fun _ => .take)

theorem nearsighted_methodWords (kind : MethodKind) : (methodWords kind).Nearsighted groups :=
  .ite ((nearsighted_expectWord _).bind fun _ => nearsighted_expectWord _)
    ((nearsighted_takeWords _ _).test (.pure _) (.missing _))

theorem nearsighted_methodHead (kind : MethodKind) (inObject : Bool) :
    (methodHead kind inObject).Nearsighted groups := by
  have hend : (do
      routineModifiers
      unless inObject do expectSemicolon : GrammarRule Unit).Nearsighted groups :=
    nearsighted_routineModifiers.bind fun _ => .ite (.pure _) (nearsighted_expectKind _ _)
  exact nearsighted_declaredName.bind fun _ => nearsighted_parameterList.bind fun _ =>
    .ite (nearsighted_returnClause.bind fun _ => hend) hend

/-- A method may be read where its modifiers have been looked at. -/
theorem reaches_method {count offset : Nat} (inObject : Bool)
    (h : Prefixes groups p.taken count offset) (hseen : p.seen ≤ p.taken + offset + 2) :
    (method count offset inObject).Reaches groups (Reach.MayStop groups) (fun _ q => q.Near) p := by
  have hoffset := Nat.lt_succ_self offset
  rw [method_eq]
  refine (peeks_at hoffset).bind fun q hq => (peeks_at hoffset).bind fun w hw => ?_
  have hlooked := hq.trans hw
  have htaken := hlooked.taken
  have hlast := hlooked.seen
  exact Reaches.bind (reaches_prefixes (htaken ▸ h) (by omega)) fun _ =>
    (nearsighted_methodWords _).bind fun _ => nearsighted_methodHead _ inObject

theorem nearsighted_method : (method 0 0 false).Nearsighted groups :=
  fun _ hp => reaches_method false .none hp

/-! ### Packages -/

theorem nearsighted_declaration : declaration.Nearsighted groups := by
  have hunknown : unknownDeclaration.Nearsighted groups :=
    .node (.bind .take fun _ => nearsighted_skipStatement)
  exact nearsighted_atFirst.test nearsighted_subtypeDecl <|
    nearsighted_atFirst.test nearsighted_typeDecl <|
    nearsighted_atFirst.test (nearsighted_pragma true) <|
    nearsighted_atFirst.test nearsighted_method <|
    nearsighted_atFirst.test nearsighted_cursor <|
    Nearsighted.test (.and nearsighted_atFirst nearsighted_atSecond) nearsighted_exceptionDecl <|
    Nearsighted.test (.and nearsighted_atFirst (.or nearsighted_atSecond nearsighted_atSecond))
      nearsighted_variableDecl hunknown

theorem nearsighted_declarations : declarations.Nearsighted groups := by
  have hnext : (do
      declaration
      return true : GrammarRule Bool).Nearsighted groups :=
    nearsighted_declaration.bind fun _ => .pure _
  exact .repeatWhile <| nearsighted_atFirst.test (.pure _) <| Nearsighted.test
    (.or nearsighted_atEnd (.or nearsighted_atTerminator nearsighted_atCreate))
    ((Nearsighted.missing _).bind fun _ => hnext) hnext

/-! ### Object types -/

/-- A member may give up over the words that it has passed. -/
theorem nearsighted_objectMember : objectMember.Nearsighted groups := by
  have hattribute : attributeDecl.Nearsighted groups :=
    .within _ (.node (nearsighted_declaredName.bind fun _ => nearsighted_typeExpr))
  intro p hp
  refine (reaches_countModifiers hp).bind fun (offset, count) q hq => ?_
  have hq : Passed groups p offset count q := hq
  refine (peeks_at (Nat.lt_succ_self offset)).ite (fun _ w hw => ?_) fun _ w hw => ?_
  · have hpassed := hq.looked hw
    have htaken := hpassed.taken
    have hseen := hpassed.seen
    exact reaches_method true (htaken ▸ hpassed.prefixes) (by omega)
  · have hpassed := hq.looked hw
    refine Reaches.ite (fun hcount => ?_) fun hcount => ?_
    · exact (hpassed.mayStop hcount).looked (w.looked_look Nat.one_pos)
    · obtain rfl : count = 0 := Nat.eq_zero_of_not_pos hcount
      exact nearsighted_atFirst.test (nearsighted_pragma false) hattribute w hpassed.near

theorem nearsighted_under : under.Nearsighted groups := by
  have hname : (do
      if ← atName 0 then setName (← name) (.done ()) : GrammarRule Unit).Nearsighted groups :=
    nearsighted_atFirst.test (nearsighted_name.bind fun n => .setName n ()) (.pure _)
  exact nearsighted_modifier (.bind .take fun _ => .node hname)

theorem nearsighted_typeBasis : typeBasis.Nearsighted groups :=
  nearsighted_atFirst.test (nearsighted_leaf _) <|
    nearsighted_atFirst.test nearsighted_collectionType (.missing _)

theorem nearsighted_typeModifiers : typeModifiers.Nearsighted groups :=
  .bind (.repeatWhile <| Nearsighted.test (.or nearsighted_atEnd <| .or nearsighted_atTerminator <|
    .or nearsighted_atFirst nearsighted_atCreate) (.pure _)
    (nearsighted_negatable.bind fun _ => .pure _)) fun _ =>
      (nearsighted_takeKind _).bind fun _ => .pure _

theorem nearsighted_objectType : objectType.Nearsighted groups := by
  have hmembers : objectMembers.Nearsighted groups :=
    nearsighted_atFirst.test (.pure _) (nearsighted_separatedByCommas nearsighted_objectMember)
  have hrest : (do
      if ← takeKind .lparen then
        objectMembers
        expectKind .rparen "`)`"
      typeModifiers).Nearsighted groups :=
    (nearsighted_takeKind _).test (hmembers.bind fun _ => (nearsighted_expectKind _ _).bind fun _ =>
      nearsighted_typeModifiers) nearsighted_typeModifiers
  exact Nearsighted.test
    (.or (nearsighted_takeKind _) (.or nearsighted_atEnd nearsighted_atTerminator)) (.pure _) <|
    nearsighted_atFirst.test (nearsighted_under.bind fun _ => hrest) <|
    (nearsighted_takeWords _ _).test (nearsighted_typeBasis.bind fun _ => hrest)
      ((Nearsighted.missing _).bind fun _ => hrest)

/-! ### Units -/

theorem nearsighted_unitClauses : unitClauses.Nearsighted groups := by
  have hclause {inside : GrammarRule Unit} (h : inside.Nearsighted groups) :
      (modifier inside >>= fun _ => Pure.pure true).Nearsighted groups :=
    (nearsighted_modifier h).bind fun _ => .pure _
  have hsharing : (do
      take
      let _ ← takeIf (atOperator 0 "=")
      take : GrammarRule Unit).Nearsighted groups :=
    .bind .take fun _ => (nearsighted_takeIf nearsighted_atFirst).bind fun _ => .take
  have haccessible : (do
      times 2 take
      skipParens).Nearsighted groups :=
    (Nearsighted.times .take 2).bind fun _ => nearsighted_skipParens
  exact .repeatWhile <|
    nearsighted_atFirst.test (hclause hsharing) <|
    nearsighted_atFirst.test (hclause (.times .take 2)) <|
    Nearsighted.test (.and nearsighted_atFirst nearsighted_atSecond) (hclause haccessible) <|
    Nearsighted.test (.and nearsighted_atFirst nearsighted_atSecond) (hclause (.times .take 3)) <|
    nearsighted_atFirst.test (hclause .take) <|
    nearsighted_atFirst.test (hclause (.times .take 2)) (.pure _)

theorem nearsighted_endClause : endClause.Nearsighted groups := by
  have hmark : (do let _ ← takeKind .semicolon : GrammarRule Unit).Nearsighted groups :=
    (nearsighted_takeKind _).bind fun _ => .pure _
  exact .node <| (nearsighted_expectWord _).bind fun _ => nearsighted_atFirst.test
    (nearsighted_name.bind fun n => .bind (.setName n ()) fun _ => hmark) hmark

theorem nearsighted_opaqueBody : opaqueBody.Nearsighted groups :=
  Nearsighted.test (.or nearsighted_atEnd nearsighted_atTerminator) (.pure _)
    (.node nearsighted_skipToTerminator)

theorem nearsighted_unitBody : unitBody.Nearsighted groups :=
  nearsighted_unitClauses.bind fun _ => nearsighted_expectIsOrAs.bind fun _ =>
    nearsighted_opaqueBody

theorem nearsighted_standaloneRoutine (isFunction : Bool) :
    (standaloneRoutine isFunction).Nearsighted groups := by
  have hrest : (do
      routineModifiers
      if ← takeWord "IS" <||> takeWord "AS" then opaqueBody
      else
        let _ ← takeKind .semicolon : GrammarRule Unit).Nearsighted groups :=
    nearsighted_routineModifiers.bind fun _ => (nearsighted_takeWords _ _).test
      nearsighted_opaqueBody ((nearsighted_takeKind _).bind fun _ => .pure _)
  exact nearsighted_parameterList.bind fun _ =>
    .ite (nearsighted_returnClause.bind fun _ => hrest) hrest

theorem nearsighted_unitRest (unit : UnitKind) : (unitRest unit).Nearsighted groups := by
  cases unit with
  | package =>
    exact nearsighted_unitClauses.bind fun _ => nearsighted_expectIsOrAs.bind fun _ =>
      nearsighted_declarations.bind fun _ => nearsighted_endClause
  | packageBody | typeBody => exact nearsighted_unitBody
  | objectType => exact nearsighted_unitClauses.bind fun _ => nearsighted_objectType
  | procedure | function => exact nearsighted_standaloneRoutine _

end GrammarRule

/-! ### Statements that are not understood -/

/-- A word at which no run of groups stops. -/
def Glance.isPlainWord (t : Glance) : Bool :=
  t.kind.isWord && t.value != "CREATE"

/-- The groups that have been looked at, from the one with index `first` up to the last two, are
words at which no run stops. -/
def Reach.Through (groups : List SqlGroup) (first : Nat) (p : Reach) : Prop :=
  ∀ i, first ≤ i → i + 2 < p.seen → (glanceAt groups i).any Glance.isPlainWord = true

namespace Reach

variable {groups : List SqlGroup} {p q : Reach} {first : Nat}

theorem Near.through (h : p.Near) (hfirst : p.taken ≤ first) : p.Through groups first := by
  intro i hi hlt
  unfold Near at h
  omega

/-- Where a run stops it has not looked far. -/
theorem Through.near (h : p.Through groups p.taken)
    (hstop : (glanceAt groups p.taken).any Glance.isPlainWord = false) : p.Near := by
  by_contra hfar
  unfold Near at hfar
  rw [h p.taken (Nat.le_refl _) (by omega)] at hstop
  cases hstop

theorem Through.looked (h : p.Through groups first) (hfirst : p.taken ≤ first)
    (hq : p.Looked 2 q) : q.Through groups first := by
  intro i hi hlt
  have hseen := hq.seen
  exact h i hi (by omega)

theorem Through.take (h : p.Through groups (p.taken + 1))
    (hsome : (glanceAt groups p.taken).isSome = true) :
    (p.take groups).Through groups (p.take groups).taken := by
  intro i hi hlt
  rw [take_taken, placeAfter_of_isSome hsome] at hi
  rw [take_seen] at hlt
  exact h i hi (by omega)

end Reach

namespace GrammarRule

variable {groups : List SqlGroup} {p q : Reach}

/-- Through the words that have been looked at a group is taken. -/
theorem reaches_take_through (h : p.Through groups p.taken)
    (hsome : (glanceAt groups p.taken).isSome = true) :
    take.Reaches groups (Reach.MayStop groups) (fun _ q => q.Through groups q.taken ∧
      keyedFrom groups q.taken < keyedFrom groups p.taken) p := by
  refine ⟨Reach.Through.take (fun i hi => h i (Nat.le_of_succ_le hi)) hsome, ?_⟩
  rw [Reach.take_taken, placeAfter_of_isSome hsome]
  exact keyedFrom_succ_lt hsome

theorem not_isPlainWord_of_isTerminatorAt {n : Nat} (h : isTerminatorAt groups n = true) :
    (glanceAt groups n).any Glance.isPlainWord = false := by
  unfold isTerminatorAt at h
  cases ht : glanceAt groups n with
  | none => rfl
  | some t =>
    rw [ht] at h
    simp at h
    simp [Glance.isPlainWord, h.1, SqlKind.isWord]

theorem reaches_skipStatement (h : p.Through groups p.taken) :
    skipStatement.Reaches groups (Reach.MayStop groups) (fun _ q => q.Near) p := by
  have hrun : skipToSemicolon.Reaches groups (Reach.MayStop groups) (fun _ q => q.Near) p := by
    refine Reaches.bind (P := fun _ q => q.Near) ?_ fun _ q hq => hq
    refine reaches_iterate (I := fun _ q => q.Through groups q.taken)
      (fun _ q => keyedFrom groups q.taken) (fun depth q hq => ?_) h (Nat.le_refl _)
    have hstop {w : Reach} (hw : q.Looked 2 w)
        (hplain : (glanceAt groups q.taken).any Glance.isPlainWord = false) : w.Near :=
      Reach.Through.near (hw.taken ▸ hq.looked (Nat.le_refl _) hw) (hw.taken ▸ hplain)
    refine (peeks_atTerminator Nat.one_lt_two).ite
      (fun hslash w hw => hstop hw (not_isPlainWord_of_isTerminatorAt hslash)) fun _ w hw => ?_
    refine (peeks_key Nat.two_pos).bind fun v hv => ?_
    have hlooked := hw.trans hv
    rw [hw.taken, Nat.add_zero]
    cases hnext : glanceAt groups q.taken with
    | none => exact hstop hlooked (by rw [hnext]; rfl)
    | some t =>
      refine Reaches.ite (fun hends => hstop hlooked ?_) fun _ => ?_
      · rw [hnext]
        simp only [decide_eq_true_eq] at hends
        rcases hends.2 with hmark | hparen
        · simp [Glance.isPlainWord, hmark, SqlKind.isWord]
        · simp [Glance.isPlainWord, hparen, SqlKind.isWord]
      · rw [← hlooked.taken] at hnext ⊢
        have hthrough := hq.looked (Nat.le_refl _) hlooked
        rw [← hlooked.taken] at hthrough
        exact (reaches_take_through hthrough (by rw [hnext]; rfl)).bind fun _ u hu => hu
  exact hrun.bind fun _ => (nearsighted_takeKind _).bind fun _ => .pure _

theorem reaches_skipToTerminator (h : p.Through groups p.taken) :
    skipToTerminator.Reaches groups (Reach.MayStop groups) (fun _ q => q.Near) p := by
  refine reaches_repeatWhile (I := fun q => q.Through groups q.taken) (fun q hq => ?_) h
  refine ((peeks_atEnd Nat.two_pos).or ((peeks_atTerminator Nat.one_lt_two).or
    (peeks_atCreate Nat.two_pos))).ite (fun hends w hw => ?_) fun hends w hw => ?_
  all_goals
    have hthrough := hq.looked (Nat.le_refl _) hw
    rw [← hw.taken] at hthrough
  · refine hthrough.near (hw.taken ▸ ?_)
    rcases Bool.or_eq_true_iff.1 hends with hnone | hends
    · rw [Option.isNone_iff_eq_none.1 hnone]
      rfl
    rcases Bool.or_eq_true_iff.1 hends with hslash | hcreate
    · exact not_isPlainWord_of_isTerminatorAt hslash
    · obtain ⟨t, ht, hcreate⟩ := (Option.any_eq_true ..).1 (Bool.and_eq_true_iff.1 hcreate).1
      have ht : glanceAt groups q.taken = some t := ht
      simp at hcreate
      simp [ht, Glance.isPlainWord, hcreate]
  · have hsome : (glanceAt groups w.taken).isSome = true := by
      rw [hw.taken, ← Option.isNone_eq_false_iff]
      exact (Bool.or_eq_false_iff.1 hends).1
    refine (reaches_take_through hthrough hsome).bind fun _ v hv => ?_
    rw [hw.taken] at hv
    exact hv

/-! ### What a statement is -/

theorem isPlainWord_of_any {words : List String} {n : Nat} (hwords : ¬ "CREATE" ∈ words)
    (h : (glanceAt groups n).any (fun t => t.kind.isWord && words.contains t.value) = true) :
    (glanceAt groups n).any Glance.isPlainWord = true := by
  obtain ⟨t, ht, hword⟩ := (Option.any_eq_true ..).1 h
  obtain ⟨hkind, hvalue⟩ := Bool.and_eq_true_iff.1 hword
  have hne : t.value ≠ "CREATE" := by
    rintro heq
    rw [heq] at hvalue
    exact hwords (List.contains_iff_mem.1 hvalue)
  simp [ht, Glance.isPlainWord, hkind, hne]

/-- The word that tells what is created is `offset` groups ahead, after words at which no run stops,
and at most one group after it has been looked at. -/
structure CreatesAt (groups : List SqlGroup) (p : Reach) (offset : Nat) (q : Reach) : Prop where
  taken : q.taken = p.taken
  seen : q.seen ≤ max p.seen (p.taken + offset + 2)
  words : ∀ i, 1 ≤ i → i < offset → (glanceAt groups (p.taken + i)).any Glance.isPlainWord = true

theorem CreatesAt.looked {offset : Nat} {w : Reach} (h : CreatesAt groups p offset q)
    (hw : q.Looked (offset + 2) w) : CreatesAt groups p offset w := by
  have htaken := h.taken
  have hseen := h.seen
  have hlooked := hw.seen
  exact ⟨hw.taken.trans htaken, by omega, h.words⟩

/-- All that has been looked at, up to the last two groups, are words at which no run stops. -/
theorem CreatesAt.through {offset : Nat} (h : CreatesAt groups p offset q)
    (hp : p.Through groups (p.taken + 1)) : q.Through groups (q.taken + 1) := by
  intro i hi hlt
  have htaken := h.taken
  have hseen := h.seen
  by_cases hbefore : i < p.taken + offset
  · have hword := h.words (i - p.taken) (by omega) (by omega)
    rwa [show p.taken + (i - p.taken) = i by omega] at hword
  · exact hp i (by omega) (by omega)

theorem reaches_createOffset {E : Reach → Prop} :
    createOffset.Reaches groups E (fun offset q => CreatesAt groups p offset q) p := by
  have hedition {offset : Nat} {q : Reach} (hq : CreatesAt groups p offset q) : (do
      return if ← atAnyWord offset ["EDITIONABLE", "NONEDITIONABLE", "EDITIONING"] then offset + 1
        else offset : GrammarRule Nat).Reaches groups E
          (fun offset q => CreatesAt groups p offset q) q := by
    refine (peeks_at (Nat.lt_add_of_pos_right Nat.two_pos)).bind fun w hw => ?_
    have hw := hq.looked hw
    show CreatesAt groups p (if _ then _ else _) w
    split
    · rename_i hword
      have hseen := hw.seen
      show CreatesAt groups p (offset + 1) w
      refine ⟨hw.taken, by omega, fun i hi hlt => ?_⟩
      rcases Nat.lt_succ_iff_lt_or_eq.1 hlt with hlt | rfl
      · exact hw.words i hi hlt
      · rw [hq.taken] at hword
        exact isPlainWord_of_any (by decide) hword
    · exact hw
  refine ((peeks_at (show 1 < 3 by decide)).and (peeks_at (by decide))).bind fun q hq => ?_
  have hlooked := hq.seen
  refine hedition (q := q) ?_
  split
  · rename_i hwords
    obtain ⟨hor, hreplace⟩ := Bool.and_eq_true_iff.1 hwords
    refine ⟨hq.taken, by omega, fun i hi hlt => ?_⟩
    match i, hi, hlt with
    | 1, _, _ => exact isPlainWord_of_any (by decide) hor
    | 2, _, _ => exact isPlainWord_of_any (by decide) hreplace
  · exact ⟨hq.taken, by omega, fun i hi hlt => by omega⟩

theorem reaches_unitKind {E : Reach → Prop} (offset : Nat) (isBody : Bool) :
    (unitKind offset isBody).Reaches groups E (fun unit q => p.Looked (offset + 1) q ∧
      (unit.isSome = true → (glanceAt groups (p.taken + offset)).isSome = true)) p := by
  have hoffset := Nat.lt_succ_self offset
  refine (peeks_at hoffset).ite (fun h q hq => ⟨hq, fun _ => Option.isSome_of_any h⟩) fun _ q hq => ?_
  refine (peeks_at hoffset).ite (fun h w hw => ⟨hq.trans hw, fun _ => ?_⟩) fun _ w hw => ?_
  · exact hq.taken ▸ Option.isSome_of_any h
  refine (peeks_at hoffset).ite (fun h v hv => ⟨(hq.trans hw).trans hv, fun _ => ?_⟩) fun _ v hv => ?_
  · exact (hq.trans hw).taken ▸ Option.isSome_of_any h
  have hv := (hq.trans hw).trans hv
  refine (peeks_at hoffset).ite (fun h u hu => ⟨hv.trans hu, fun _ => ?_⟩) fun _ u hu => ?_
  · exact hv.taken ▸ Option.isSome_of_any h
  · exact ⟨hv.trans hu, fun h => Bool.noConfusion h⟩

end GrammarRule

/-- How far has been looked when it is known what the next statement is. -/
def StatementForm.IsReadable (groups : List SqlGroup) (p : Reach) : StatementForm → Prop
  | create _ offset _ => p.seen ≤ p.taken + offset + 2 ∧
    ∀ i ≤ offset, (glanceAt groups (p.taken + i)).isSome = true
  | terminator | command => p.Near
  | unknown => p.Through groups (p.taken + 1)

namespace GrammarRule

variable {groups : List SqlGroup} {p q : Reach}

theorem reaches_statementForm {E : Reach → Prop} (hp : p.Near) : statementForm.Reaches groups E
    (fun form q => q.taken = p.taken ∧ form.IsReadable groups q) p := by
  refine (peeks_at Nat.two_pos).ite (fun hcreate q hq => ?_) fun _ q hq => ?_
  · refine reaches_createOffset.bind fun offset w hw => ?_
    refine (peeks_at (Nat.lt_succ_self (offset + 1))).bind fun v hv => ?_
    have hv := hw.looked hv
    refine (reaches_unitKind offset _).bind fun unit u ⟨hu, hunit⟩ => ?_
    have hu := hv.looked (hu.mono (Nat.le_succ _))
    have htaken := hu.taken.trans hq.taken
    cases unit with
    | none => exact ⟨htaken, hu.through ((hp.looked hq).through (Nat.le_succ _))⟩
    | some unit =>
      have hnear := hp.looked hq
      have hplace := hu.taken
      have hseen := hu.seen
      unfold Reach.Near at hnear
      refine ⟨htaken, by omega, fun i hi => ?_⟩
      rcases Nat.eq_zero_or_pos i with rfl | hpos
      · rw [htaken]
        exact Option.isSome_of_any hcreate
      rw [hplace]
      rcases Nat.lt_or_eq_of_le hi with hlt | rfl
      · exact Option.isSome_of_any (hu.words i hpos hlt)
      · exact hv.taken ▸ hunit rfl
  · have hnear := hp.looked hq
    refine ((peeks_atTerminator Nat.one_lt_two).or (peeks_at Nat.two_pos)).ite
      (fun _ w hw => ⟨hw.taken.trans hq.taken, hnear.looked hw⟩) fun _ w hw => ?_
    have hw := hq.trans hw
    refine ((peeks_at Nat.two_pos).or (peeks_at Nat.two_pos)).ite
      (fun _ v hv => ⟨hv.taken.trans hw.taken, hp.looked (hw.trans hv)⟩) fun _ v hv => ?_
    exact ⟨hv.taken.trans hw.taken, (hp.looked (hw.trans hv)).through (Nat.le_succ _)⟩

theorem reaches_times_take {count : Nat}
    (hsome : ∀ i < count, (glanceAt groups (p.taken + i)).isSome = true)
    (hseen : p.seen ≤ p.taken + count + 2) :
    (times count take).Reaches groups (Reach.MayStop groups) (fun _ q => q.Near) p := by
  induction count generalizing p with
  | zero => exact hseen
  | succ count ih =>
    have hfirst : (glanceAt groups p.taken).isSome = true := hsome 0 (Nat.succ_pos _)
    refine (reaches_take_some hfirst hseen (by omega)).bind fun _ q ⟨htaken, hq⟩ => ?_
    refine ih (fun i hi => ?_) (by omega)
    rw [htaken, Nat.add_assoc, Nat.add_comm 1]
    exact hsome (i + 1) (by omega)

/-- A statement that is not understood is taken through the words that have been looked at. -/
theorem reaches_unknownStatement (h : p.Through groups (p.taken + 1))
    (hsome : (glanceAt groups p.taken).isSome = true) :
    unknownStatement.Reaches groups (Reach.MayStop groups) (fun _ q => q.Near) p := by
  have hblock : (atAnyWord 0 ["DECLARE", "BEGIN"] <||> atForeignBody).Reaches groups
      (Reach.MayStop groups) (fun _ w => w.taken = p.taken ∧ w.Through groups (p.taken + 1)) p := by
    refine (peeks_at Nat.two_pos).bind fun q hq => ?_
    have hthrough := h.looked (Nat.le_succ _) hq
    cases (glanceAt groups (p.taken + 0)).any
        (fun t => t.kind.isWord && ["DECLARE", "BEGIN"].contains t.value) with
    | true => exact ⟨hq.taken, hthrough⟩
    | false =>
      refine reaches_createOffset.bind fun offset w hw => ?_
      have hcreate : (atWord 0 "CREATE" <&&> atAnyWord offset ["TRIGGER", "JAVA",
          "LIBRARY"]).Peeks groups (offset + 2) _ := (peeks_at (by omega)).and (peeks_at (by omega))
      refine hcreate _ _ w fun v hv => ?_
      have hv := hw.looked hv
      have htaken := hv.taken.trans hq.taken
      rw [← hq.taken] at hthrough
      refine ⟨htaken, ?_⟩
      rw [← htaken]
      exact hv.through hthrough
  refine hblock.bind fun isBlock q ⟨htaken, hq⟩ => ?_
  rw [← htaken] at hq hsome
  have htake : take.Reaches groups (Reach.MayStop groups)
      (fun _ w => w.Through groups w.taken) q := hq.take hsome
  exact htake.bind fun _ w hw => .ite (fun _ => reaches_skipToTerminator hw) fun _ =>
    reaches_skipStatement hw

theorem nearsighted_command : command.Nearsighted groups := by
  refine (nearsighted_key Nat.two_pos).bind fun first => ?_
  cases first with
  | none => exact nearsighted_skipLine
  | some t => exact .bind (.setName _ ()) fun _ => nearsighted_skipLine

theorem reaches_statementInside {form : StatementForm} (h : form.IsReadable groups p)
    (hsome : (glanceAt groups p.taken).isSome = true) :
    (statementInside form).Reaches groups (Reach.MayStop groups) (fun _ q => q.Near) p := by
  cases form with
  | create unit offset isBody =>
    obtain ⟨hseen, hkeyed⟩ := h
    have hname : (do declaredName; unitRest unit).Nearsighted groups :=
      nearsighted_declaredName.bind fun _ => nearsighted_unitRest unit
    refine Reaches.bind (reaches_times_take (fun i hi => hkeyed i (by omega)) (by omega)) ?_
    exact fun _ => Nearsighted.ite (.bind .take fun _ => hname) hname
  | terminator => exact Nearsighted.take p h
  | command => exact nearsighted_command p h
  | unknown => exact reaches_unknownStatement h hsome

/-- A statement is read from a place where at most the next two groups have been looked at to
another. -/
theorem reaches_statement (hp : p.Near) (hsome : (glanceAt groups p.taken).isSome = true) :
    statement.Reaches groups (Reach.MayStop groups) (fun _ q => q.Near) p := by
  refine (reaches_statementForm hp).bind fun form q ⟨htaken, hform⟩ => ?_
  exact reaches_statementInside hform (htaken ▸ hsome)

end GrammarRule
end SqlDoc

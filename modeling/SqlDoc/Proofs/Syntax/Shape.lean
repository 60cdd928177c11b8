/-
# The shape of syntax trees

Every declaration and every statement of a script stands where its kind says, and no node has two
lists of parameters (`parseSql_fits`). So a node that is documented is found by looking at the
members of packages and object types, the lists of parameters of routines, and the fields of
records.

Key definition: `SyntaxTree.Fits`.
Key theorems: `adds_declaration`, `adds_statementInside`, `parseSql_fits`.
-/
import SqlDoc.Proofs.Syntax.Adding

namespace SqlDoc
namespace GrammarRule

variable {α : Type} {parent : NodeKind} {lists : Nat}

/-! ### Declarations -/

/-- One item, and one more after every comma. -/
theorem adds_separatedByCommas {item : GrammarRule Unit} (h : item.Adds parent 0) :
    (separatedByCommas item).Adds parent lists :=
  .repeatWhile (h.bind fun _ => adds_takeKind _)

theorem adds_parenthesised {item : GrammarRule Unit} (h : item.Adds parent 0) :
    (parenthesised item).Adds parent lists :=
  (adds_expectKind _ _).bind fun _ => (adds_separatedByCommas h).bind fun _ => adds_expectKind _ _

/-- The mode of a parameter is known after its name. -/
theorem adds_parameter : parameter.Adds .parameterList 0 := by
  have hname : declaredName.Adds .identifier 0 := adds_declaredName
  have hword (word : String) : (keywordNode word).Adds .identifier 0 := adds_keywordNode word
  have hvalue : (do typeExpr; defaultValue : GrammarRule Unit).Adds .identifier 0 :=
    adds_typeExpr.bind fun _ => adds_defaultValue
  have hrest : (do
      if ← atWord 0 "NOCOPY" then modifier take
      typeExpr
      defaultValue : GrammarRule Unit).Adds .identifier 0 :=
    adds_at.bind fun _ => .ite ((adds_modifier adds_take).bind fun _ => hvalue) hvalue
  refine .ofNode ?_
  refine (leaves_bind ..).2 ((hname _).mono fun _ n1 h1 => ?_)
  refine (leaves_bind ..).2 ((hword "IN" n1).mono fun input n2 h2 => ?_)
  refine (leaves_bind ..).2 ((hword "OUT" n2).mono fun output n3 h3 => ?_)
  have h := (h1.trans h2).trans h3
  have hinput : n3.kind = .parameter .input := h.kind
  have hfits (mode : ParamMode) {m : OpenNode}
      (hm : Grown .identifier 0 { n3 with kind := .parameter mode } m) :
      m.Fits .parameterList ∧ (m.kind = .parameterList → 0 < 0) := by
    obtain ⟨hkind, hfits, hlists⟩ := (h.pieces.setKind hm.pieces).holds
    exact ⟨⟨Or.inr (hkind ▸ rfl), hfits, Nat.le_succ_of_le hlists⟩,
      fun hlist => nomatch hkind.symm.trans hlist⟩
  cases output with
  | true => exact (hrest _).mono fun _ m hm => hfits _ hm
  | false =>
    refine (hrest n3).mono fun _ m hm => hfits .input ?_
    rwa [← hinput]

theorem adds_parameterList (hparent : parent.mayHold .parameterList) :
    parameterList.Adds parent 1 :=
  adds_at.bind fun _ => .ite
    ((adds_parenthesised adds_parameter).node (Or.inr hparent) fun _ => Nat.one_pos) (.pure _)

theorem adds_methodWords (kind : MethodKind) : (methodWords kind).Adds parent lists :=
  .ite ((adds_expectWord _).bind fun _ => adds_expectWord _)
    ((Adds.or (adds_takeWord _) (adds_takeWord _)).bind fun _ => .ite (.pure _) (.missing _))

theorem adds_methodHead (kind : MethodKind) (inObject : Bool) :
    (methodHead kind inObject).Adds (.method kind) 1 := by
  have hend : (do
      routineModifiers
      unless inObject do expectSemicolon : GrammarRule Unit).Adds (.method kind) 0 :=
    adds_routineModifiers.bind fun _ => .ite (.pure _) (adds_expectKind _ _)
  exact adds_declaredName.bind fun _ => (adds_parameterList rfl).bind_left fun _ =>
    .ite (adds_returnClause.bind fun _ => hend) hend

theorem adds_method (modifiers offset : Nat) (inObject : Bool)
    (hparent : ∀ kind, parent.mayHold (.method kind)) :
    (method modifiers offset inObject).Adds parent 0 := by
  have hmodifier {kind : MethodKind} : (modifier do
      let _ ← takeWord "NOT"
      take).Adds (.method kind) 0 :=
    adds_modifier ((adds_takeWord _).bind fun _ => adds_take)
  rw [method_eq]
  refine adds_at.bind fun _ => adds_at.bind fun _ =>
    .within _ (Adds.declaration ?_ (hparent _) nofun)
  exact (Adds.times hmodifier modifiers).bind fun _ => (adds_methodWords _).bind fun _ =>
    adds_methodHead _ inObject

theorem adds_cursor (hparent : parent.mayHold (.method .cursor)) : cursor.Adds parent 0 := by
  have hend : expectSemicolon.Adds (.method .cursor) 0 := adds_expectKind _ _
  have hquery : (do
      if ← takeWord "IS" then node .expression skipToSemicolon .done
      expectSemicolon : GrammarRule Unit).Adds (.method .cursor) 0 :=
    (adds_takeWord _).bind fun _ => .ite (((adds_skipUntil _).piece rfl).bind fun _ => hend) hend
  refine .within _ (Adds.declaration ?_ hparent nofun)
  exact (adds_expectWord _).bind fun _ => adds_declaredName.bind fun _ =>
    (adds_parameterList rfl).bind_left fun _ => adds_at.bind fun _ =>
      .ite (adds_returnClause.bind fun _ => hquery) hquery

/-- The rule reads a definition: what it adds may stand in a type of the shape that it gives. -/
def Defines (r : GrammarRule TypeShape) : Prop :=
  ∀ n, r.Leaves (fun shape => Grown (.typeDecl shape) 0 n) n

/-- Pieces may come first, whatever the shape. -/
theorem Defines.bind {r : GrammarRule α} {f : α → GrammarRule TypeShape}
    (hr : r.Adds .identifier 0) (hf : ∀ a, Defines (f a)) : Defines (r >>= f) := by
  intro n
  refine (leaves_bind r f _ n).2 ((hr n).mono fun a m hm => (hf a m).mono fun shape l hl => ?_)
  exact hm.pieces.trans hl

theorem Defines.ite {c : Prop} [Decidable c] {r r' : GrammarRule TypeShape} (hr : Defines r)
    (hr' : Defines r') : Defines (if c then r else r') := by
  split
  · exact hr
  · exact hr'

theorem Defines.pure (shape : TypeShape) : Defines (Pure.pure shape) :=
  fun n => .refl n

/-- Only a record has fields. -/
theorem defines_typeDefinition : Defines typeDefinition := by
  have hfield : recordField.Adds (.typeDecl .record) 0 :=
    (adds_declaredName.bind fun _ => adds_typeExpr.bind fun _ => adds_defaultValue).declaration
      rfl nofun
  have hrecord : Defines (parenthesised recordField >>= fun _ => Pure.pure .record) := fun n =>
    (leaves_bind ..).2 ((adds_parenthesised hfield n).mono fun _ _ hm => hm)
  exact .bind adds_at fun _ => .ite (.bind (adds_leaf rfl) fun _ => hrecord) <|
    .bind adds_at fun _ => .ite (.bind adds_collectionType fun _ => .bind adds_at fun _ =>
      .ite (.bind adds_indexBy fun _ => .pure _) (.pure _)) <|
    .bind adds_at fun _ => .ite (.bind adds_collectionType fun _ => .pure _) <|
    .bind (.and adds_at adds_at) fun _ => .ite (.bind (.times adds_take 2) fun _ =>
      .bind adds_at fun _ => .ite (.bind adds_returnClause fun _ => .pure _) (.pure _)) <|
    .bind adds_expression fun _ => .pure _

theorem adds_typeDecl (hparent : ∀ shape, parent.mayHold (.typeDecl shape)) :
    typeDecl.Adds parent 0 := by
  have hword (word : String) : (expectWord word).Adds .identifier 0 := adds_expectWord word
  have hname : declaredName.Adds .identifier 0 := adds_declaredName
  have his : expectIsOrAs.Adds .identifier 0 := adds_expectIsOrAs
  have hend : expectSemicolon.Adds .identifier 0 := adds_expectKind _ _
  refine .within _ (.ofNode ?_)
  refine (leaves_bind ..).2 ((hword "TYPE" _).mono fun _ n1 h1 => ?_)
  refine (leaves_bind ..).2 ((hname n1).mono fun _ n2 h2 => ?_)
  refine (leaves_bind ..).2 ((his n2).mono fun _ n3 h3 => ?_)
  refine (leaves_bind ..).2 ((defines_typeDefinition n3).mono fun shape n4 h4 => ?_)
  refine (hend { n4 with kind := .typeDecl shape }).mono fun _ m hm => ?_
  have h := ((h1.trans h2).trans h3).pieces.trans h4
  obtain ⟨hkind, hfits, hlists⟩ := (h.setKind hm.pieces).holds
  exact ⟨⟨Or.inr (hkind ▸ hparent shape), hfits, Nat.le_succ_of_le hlists⟩,
    fun hlist => nomatch hkind.symm.trans hlist⟩

/-! ### Members -/

theorem adds_pragma (terminated : Bool) (hparent : parent.mayHold .pragma) :
    (pragma terminated).Adds parent 0 := by
  have hrest : (do
      take
      skipParens
      if terminated then expectSemicolon : GrammarRule Unit).Adds .pragma 1 :=
    adds_take.bind fun _ => adds_skipParens.bind fun _ => .ite (adds_expectKind _ _) (.pure _)
  refine Adds.declaration ?_ hparent nofun
  refine (adds_expectWord _).bind fun _ => (adds_key 0).bind fun seen => ?_
  cases seen with
  | none => exact hrest
  | some t => exact Adds.bind (.setName _ ()) fun _ => hrest

theorem adds_variableDecl : variableDecl.Adds (.createUnit .package) 0 := by
  have hrest {constant : Bool} :
      (do typeExpr; defaultValue; expectSemicolon).Adds (.variableDecl constant) 1 :=
    adds_typeExpr.bind fun _ => adds_defaultValue.bind fun _ => adds_expectKind _ _
  refine adds_at.bind fun constant => .within _ (Adds.declaration ?_ rfl nofun)
  exact adds_declaredName.bind fun _ => .ite ((adds_leaf rfl).bind fun _ => hrest) hrest

theorem adds_exceptionDecl : exceptionDecl.Adds (.createUnit .package) 0 := by
  refine Adds.declaration ?_ rfl nofun
  exact adds_declaredName.bind fun _ => (adds_expectWord _).bind fun _ => adds_expectKind _ _

theorem adds_subtypeDecl : subtypeDecl.Adds (.createUnit .package) 0 := by
  have hend : expectSemicolon.Adds .subtypeDecl 1 := adds_expectKind _ _
  refine .within _ (Adds.declaration ?_ rfl nofun)
  exact (adds_expectWord _).bind fun _ => adds_declaredName.bind fun _ =>
    (adds_expectWord _).bind fun _ => adds_typeExpr.bind fun _ => (Adds.or adds_at adds_atEnd).bind
      fun _ => .ite hend ((adds_modifier (adds_skipUntil _)).bind fun _ => hend)

theorem adds_unknownDeclaration : unknownDeclaration.Adds (.createUnit .package) 0 :=
  (adds_take.bind fun _ => adds_skipStatement).declaration rfl nofun

/-- A declaration adds a member to a package. -/
theorem adds_declaration : declaration.Adds (.createUnit .package) 0 :=
  adds_at.bind fun _ => .ite adds_subtypeDecl <|
    adds_at.bind fun _ => .ite (adds_typeDecl fun _ => rfl) <|
    adds_at.bind fun _ => .ite (adds_pragma true rfl) <|
    adds_at.bind fun _ => .ite (adds_method 0 0 false fun _ => rfl) <|
    adds_at.bind fun _ => .ite (adds_cursor rfl) <|
    (Adds.and adds_at adds_at).bind fun _ => .ite adds_exceptionDecl <|
    (Adds.and adds_at (.or adds_at adds_at)).bind fun _ =>
      .ite adds_variableDecl adds_unknownDeclaration

theorem adds_declarations : declarations.Adds (.createUnit .package) 0 := by
  have hnext : (do declaration; return true : GrammarRule Bool).Adds (.createUnit .package) 0 :=
    adds_declaration.bind fun _ => .pure _
  refine .repeatWhile (adds_at.bind fun _ => .ite (.pure _) ?_)
  exact (Adds.or adds_atEnd (.or (adds_atTerminator 0) (adds_atCreate 0))).bind fun _ =>
    .ite ((Adds.missing _).bind fun _ => hnext) hnext

/-- A method, a pragma or an attribute is added to an object type. -/
theorem adds_objectMember : objectMember.Adds (.createUnit .objectType) 0 := by
  have hcount : countModifiers.Adds (.createUnit .objectType) 0 :=
    .iterate (fun (_, _) => (Adds.and adds_at adds_at).bind fun _ => .ite (.pure _) <|
      adds_at.bind fun _ => .ite (.pure _) (.pure _)) _
  have hattribute : attributeDecl.Adds (.createUnit .objectType) 0 :=
    .within _ ((adds_declaredName.bind fun _ => adds_typeExpr).declaration rfl nofun)
  exact hcount.bind fun (offset, count) => adds_at.bind fun _ =>
    .ite (adds_method count offset true fun _ => rfl) <| .ite (.missing _) <|
    adds_at.bind fun _ => .ite (adds_pragma false rfl) hattribute

/-! ### Units -/

theorem adds_objectType : objectType.Adds (.createUnit .objectType) lists := by
  have hmembers : objectMembers.Adds (.createUnit .objectType) 0 :=
    adds_at.bind fun _ => .ite (.pure _) (adds_separatedByCommas adds_objectMember)
  have hrest : (do
      if ← takeKind .lparen then
        objectMembers
        expectKind .rparen "`)`"
      typeModifiers).Adds (.createUnit .objectType) lists :=
    (adds_takeKind _).bind fun _ => .ite (hmembers.bind fun _ => (adds_expectKind _ _).bind fun _ =>
      adds_typeModifiers) adds_typeModifiers
  exact (Adds.or (adds_takeKind _) (.or adds_atEnd (adds_atTerminator 0))).bind fun _ =>
    .ite (.pure _) <| adds_at.bind fun _ => .ite (adds_under.bind fun _ => hrest) <|
    (Adds.or (adds_takeWord _) (adds_takeWord _)).bind fun _ =>
      .ite (adds_typeBasis.bind fun _ => hrest) ((Adds.missing _).bind fun _ => hrest)

theorem adds_opaqueBody (hparent : parent.mayHold .body) : opaqueBody.Adds parent lists :=
  (Adds.or adds_atEnd (adds_atTerminator 0)).bind fun _ =>
    .ite (.pure _) (adds_skipToTerminator.declaration hparent nofun)

theorem adds_unitBody (hparent : parent.mayHold .body) : unitBody.Adds parent lists :=
  adds_unitClauses.bind fun _ => adds_expectIsOrAs.bind fun _ => adds_opaqueBody hparent

theorem adds_standaloneRoutine (isFunction : Bool) (hlist : parent.mayHold .parameterList)
    (hbody : parent.mayHold .body) : (standaloneRoutine isFunction).Adds parent 1 := by
  have hrest : (do
      routineModifiers
      if ← takeWord "IS" <||> takeWord "AS" then opaqueBody
      else
        let _ ← takeKind .semicolon : GrammarRule Unit).Adds parent 0 :=
    adds_routineModifiers.bind fun _ => (Adds.or (adds_takeWord _) (adds_takeWord _)).bind fun _ =>
      .ite (adds_opaqueBody hbody) ((adds_takeKind _).bind fun _ => .pure _)
  exact (adds_parameterList hlist).bind_left fun _ =>
    .ite (adds_returnClause.bind fun _ => hrest) hrest

/-- What follows the name of a unit may stand in it. -/
theorem adds_unitRest (unit : UnitKind) : (unitRest unit).Adds (.createUnit unit) 1 := by
  cases unit with
  | package =>
    exact adds_unitClauses.bind fun _ => adds_expectIsOrAs.bind fun _ =>
      adds_declarations.bind fun _ => adds_endClause
  | packageBody | typeBody => exact adds_unitBody rfl
  | objectType => exact adds_unitClauses.bind fun _ => adds_objectType
  | procedure | function => exact adds_standaloneRoutine _ rfl rfl

/-- What a statement of a form holds may stand in it. -/
theorem adds_statementInside (form : StatementForm) : (statementInside form).Adds form.kind 1 := by
  cases form with
  | create unit n isBody =>
    have hname : (do declaredName; unitRest unit).Adds (.createUnit unit) 1 :=
      adds_declaredName.bind fun _ => adds_unitRest unit
    exact .within _ <| (Adds.times adds_take _).bind fun _ =>
      .ite (adds_take.bind fun _ => hname) hname
  | terminator => exact adds_take
  | command =>
    refine (adds_key 0).bind fun first => ?_
    cases first with
    | none => exact adds_skipLine
    | some t => exact Adds.bind (.setName _ ()) fun _ => adds_skipLine
  | unknown =>
    exact (Adds.or adds_at adds_atForeignBody).bind fun isBlock => adds_take.bind fun _ =>
      .ite adds_skipToTerminator adds_skipStatement

theorem adds_statementForm : statementForm.Adds parent lists := by
  have hunit {n : Nat} {isBody : Bool} : (do
      let unit ← unitKind n isBody
      return unit.elim .unknown fun unit => .create unit n isBody :
        GrammarRule StatementForm).Adds parent lists := by
    have hkind : (unitKind n isBody).Adds parent 0 :=
      adds_at.bind fun _ => .ite (.pure _) <| adds_at.bind fun _ => .ite (.pure _) <|
      adds_at.bind fun _ => .ite (.pure _) <| adds_at.bind fun _ => .ite (.pure _) (.pure _)
    exact hkind.bind fun _ => .pure _
  exact adds_at.bind fun _ => .ite
    (adds_createOffset.bind fun _ => adds_at.bind fun _ => hunit) <|
    (Adds.or (adds_atTerminator 0) adds_at).bind fun _ => .ite (.pure _) <|
    (Adds.or adds_at adds_at).bind fun _ => .ite (.pure _) (.pure _)

end GrammarRule

/-! ### Statements -/

/-- The kind of a statement's node. -/
def NodeKind.isStatement : NodeKind → Bool
  | createUnit _ | terminator | command | unhandled => true
  | _ => false

/-- A statement with everything below it where it may stand. -/
structure SyntaxTree.Fits (t : SyntaxTree) : Prop where
  isStatement : t.kind.isStatement
  below : t.below.Fits t.kind
  lists : t.below.lists ≤ 1

theorem isStatement_kind (form : StatementForm) : form.kind.isStatement := by
  cases form <;> rfl

/-- The rule for a statement leaves one. -/
theorem leaves_statement :
    GrammarRule.statement.Leaves (fun _ n => n.toTree.Fits) { kind := .unhandled } := by
  have hform : GrammarRule.statementForm.Adds .identifier 0 := GrammarRule.adds_statementForm
  refine (GrammarRule.leaves_bind ..).2 ((hform _).mono fun form n hn => ?_)
  refine (GrammarRule.adds_statementInside form { n with kind := form.kind }).mono fun _ m hm => ?_
  obtain ⟨hkind, hfits, hlists⟩ := (hn.pieces.setKind hm).holds
  have hstatement : m.kind.isStatement := hkind ▸ isStatement_kind form
  exact ⟨hstatement, hfits, hlists⟩

/-- Every statement that is read fits. -/
theorem statementsUpTo_fits (n : Nat) (s : ParseState) : ∀ t ∈ (s.statementsUpTo n).trees, t.Fits :=
  ParseState.forall_statementsUpTo (I := fun _ => True)
    (fun _ _ hrun => ⟨leaves_run leaves_statement hrun, trivial⟩) trivial

theorem parseTokens_fits (lexed : Lexed) : ∀ t ∈ (parseTokens lexed).trees, t.Fits :=
  statementsUpTo_fits _ _

/-- Every statement of a script fits. -/
theorem parseSql_fits (source : String) (filename : Option String) :
    ∀ t ∈ (parseSql source filename).trees, t.Fits :=
  parseTokens_fits _

end SqlDoc

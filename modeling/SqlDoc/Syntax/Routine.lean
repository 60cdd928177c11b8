/-
# Procedures, functions and cursors

The head of a routine is its kind, its name, its parameters, the datatype that it returns and its
modifiers:

    PROCEDURE name [(parameters)] [modifiers]
    FUNCTION name [(parameters)] RETURN type [modifiers]
    CURSOR name [(parameters)] [RETURN type] [IS query]

A parameter is `name [IN] [OUT] [NOCOPY] type [value]`.

Key definitions: `GrammarRule.method`, `GrammarRule.cursor`, `GrammarRule.parameterList`,
`GrammarRule.routineModifiers`.
-/
import SqlDoc.Syntax.Datatype

namespace SqlDoc.GrammarRule

/-- A keyword as a node, if it is next. Tells whether it is. -/
def keywordNode (word : String) : GrammarRule Bool := do
  if ← atWord 0 word then
    leaf .keyword
    return true
  else return false

/-- A parameter. -/
def parameter : GrammarRule Unit :=
  node (.parameter .input) (do
    declaredName
    let input ← keywordNode "IN"
    let output ← keywordNode "OUT"
    if output then setKind (.parameter (if input then .inOut else .output)) (done ())
    if ← atWord 0 "NOCOPY" then modifier take
    typeExpr
    defaultValue) done

/-- Carries out `item`, and again after every `,`. -/
def separatedByCommas (item : GrammarRule Unit) : GrammarRule Unit :=
  repeatWhile do
    item
    takeKind .comma

/-- `( item {, item} )`. -/
def parenthesised (item : GrammarRule Unit) : GrammarRule Unit := do
  expectKind .lparen "`(`"
  separatedByCommas item
  expectKind .rparen "`,` or `)`"

/-- A list of parameters, if one is next. -/
def parameterList : GrammarRule Unit := do
  if ← atKind 0 .lparen then node .parameterList (parenthesised parameter) done

/-- `RETURN type` or `RETURN SELF AS RESULT`. -/
def returnClause : GrammarRule Unit :=
  node .returnClause (do
    expectWord "RETURN"
    if ← atWord 0 "SELF" <&&> atWord 1 "AS" <&&> atWord 2 "RESULT" then
      node .typeExpr (do
        times 3 take
        setName ⟨["SELF AS RESULT"]⟩ (done ())) done
    else typeExpr) done

/-- A modifier of a routine, such as `DETERMINISTIC`, `ACCESSIBLE BY (...)`, `AUTHID name` or
`AGGREGATE USING type`. -/
def routineModifier : GrammarRule Unit :=
  modifier do
    let more ←
      if ← atAnyWord 0 ["ACCESSIBLE", "AUTHID"] then pure 1
      else if ← atWord 0 "AGGREGATE" then pure 2
      else pure 0
    times (more + 1) take
    skipParens

/-- Modifiers up to `IS`, `AS`, a `;`, a `,`, a `)` or a `/` alone on its line. -/
def routineModifiers : GrammarRule Unit :=
  repeatWhile do
    if ← atEnd <||> atTerminator 0 <||> atAnyWord 0 ["IS", "AS"] <||>
        at? 0 (fun t => [.semicolon, .comma, .rparen].contains t.kind) then
      return false
    routineModifier
    return true

/-- The head of a procedure, a function or a constructor. It has `modifiers` modifiers in front, and
the word that tells its kind is `offset` groups ahead. Inside an object type no `;` follows it. -/
def method (modifiers offset : Nat) (inObject : Bool) : GrammarRule Unit := do
  let kind : MethodKind ←
    if ← atWord offset "CONSTRUCTOR" then pure .constructor
    else if ← atWord offset "FUNCTION" then pure .function
    else pure .procedure
  within "a procedure or function declaration" (node (.method kind) (do
    times modifiers <| modifier do
      let _ ← takeWord "NOT"
      take
    if kind = .constructor then
      expectWord "CONSTRUCTOR"
      expectWord "FUNCTION"
    else
      unless ← takeWord "PROCEDURE" <||> takeWord "FUNCTION" do missing "`PROCEDURE` or `FUNCTION`"
    declaredName
    parameterList
    if kind ≠ .procedure then returnClause
    routineModifiers
    unless inObject do expectSemicolon) done) done

/-- A method from its name on. -/
def methodHead (kind : MethodKind) (inObject : Bool) : GrammarRule Unit := do
  declaredName
  parameterList
  if kind ≠ .procedure then returnClause
  routineModifiers
  unless inObject do expectSemicolon

/-- The words before the name of a method of a kind. -/
def methodWords (kind : MethodKind) : GrammarRule Unit := do
  if kind = .constructor then
    expectWord "CONSTRUCTOR"
    expectWord "FUNCTION"
  else
    unless ← takeWord "PROCEDURE" <||> takeWord "FUNCTION" do missing "`PROCEDURE` or `FUNCTION`"

/-- The kind of a method is known before its node is opened, and the words before its name are read
before the rest. -/
theorem method_eq (modifiers offset : Nat) (inObject : Bool) :
    method modifiers offset inObject = (do
      let isConstructor ← atWord offset "CONSTRUCTOR"
      let isFunction ← atWord offset "FUNCTION"
      let kind : MethodKind :=
        if isConstructor then .constructor else if isFunction then .function else .procedure
      within "a procedure or function declaration" (node (.method kind) (do
        times modifiers (modifier do
          let _ ← takeWord "NOT"
          take)
        methodWords kind
        methodHead kind inObject) done) done) := by
  have hwords (kind : MethodKind) : (methodWords kind >>= fun _ => methodHead kind inObject) =
      if kind = .constructor then
        expectWord "CONSTRUCTOR" >>= fun _ => expectWord "FUNCTION" >>= fun _ =>
          methodHead kind inObject
      else
        (takeWord "PROCEDURE" <||> takeWord "FUNCTION") >>= fun found =>
          if found then methodHead kind inObject
          else (missing "`PROCEDURE` or `FUNCTION`" : GrammarRule Unit) >>= fun _ =>
            methodHead kind inObject := by
    unfold methodWords
    split
    · rw [LawfulMonad.bind_assoc]
    · rw [LawfulMonad.bind_assoc]
      refine congrArg (_ >>= ·) (funext fun found => ?_)
      cases found <;> rfl
  simp only [hwords]
  unfold method
  refine congrArg (atWord offset "CONSTRUCTOR" >>= ·) (funext fun isConstructor => ?_)
  refine congrArg (atWord offset "FUNCTION" >>= ·) (funext fun isFunction => ?_)
  cases isConstructor <;> cases isFunction <;> rfl

/-- A cursor, with its query. -/
def cursor : GrammarRule Unit :=
  within "a cursor declaration" (node (.method .cursor) (do
    expectWord "CURSOR"
    declaredName
    parameterList
    if ← atWord 0 "RETURN" then returnClause
    if ← takeWord "IS" then node .expression skipToSemicolon done
    expectSemicolon) done) done

end SqlDoc.GrammarRule

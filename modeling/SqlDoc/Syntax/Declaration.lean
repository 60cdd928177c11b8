/-
# Declarations of a package

A package declares routines, cursors, variables, constants, exceptions, types and subtypes, and
has pragmas among them. What is none of these is kept up to its `;`.

Key definitions: `GrammarRule.declaration`, `GrammarRule.declarations`, `GrammarRule.typeDecl`.
-/
import SqlDoc.Syntax.Routine

namespace SqlDoc.GrammarRule

/-- `name [CONSTANT] type [NOT NULL] [:= value | DEFAULT value];` -/
def variableDecl : GrammarRule Unit := do
  let constant ← atWord 1 "CONSTANT"
  within "a variable declaration" (node (.variableDecl constant) (do
    declaredName
    if constant then leaf .keyword
    typeExpr
    defaultValue
    expectSemicolon) done) done

/-- `name EXCEPTION;` -/
def exceptionDecl : GrammarRule Unit :=
  node .exceptionDecl (do
    declaredName
    expectWord "EXCEPTION"
    expectSemicolon) done

/-- `SUBTYPE name IS type [constraints];` -/
def subtypeDecl : GrammarRule Unit :=
  within "a subtype declaration" (node .subtypeDecl (do
    expectWord "SUBTYPE"
    declaredName
    expectWord "IS"
    typeExpr
    unless ← atKind 0 .semicolon <||> atEnd do modifier skipToSemicolon
    expectSemicolon) done) done

/-- A field of a record: `name type [NOT NULL] [:= value | DEFAULT value]`. -/
def recordField : GrammarRule Unit :=
  node .fieldDecl (do
    declaredName
    typeExpr
    defaultValue) done

/-- `INDEX BY type`. -/
def indexBy : GrammarRule Unit :=
  node .modifier (do
    setName ⟨["INDEX BY"]⟩ (done ())
    take
    expectWord "BY"
    typeExpr) done

/-- What a type is declared to be. Gives its shape. -/
def typeDefinition : GrammarRule TypeShape := do
  if ← atWord 0 "RECORD" then
    leaf .keyword
    parenthesised recordField
    return .record
  else if ← atWord 0 "TABLE" then
    collectionType
    if ← atWord 0 "INDEX" then
      indexBy
      return .associativeArray
    else return .nestedTable
  else if ← atAnyWord 0 ["VARRAY", "VARYING"] then
    collectionType
    return .varray
  else if ← atWord 0 "REF" <&&> atWord 1 "CURSOR" then
    times 2 take
    if ← atWord 0 "RETURN" then returnClause
    return .refCursor
  else
    expression
    return .other

/-- `TYPE name IS definition;` -/
def typeDecl : GrammarRule Unit :=
  within "a type declaration" (node (.typeDecl .other) (do
    expectWord "TYPE"
    declaredName
    expectIsOrAs
    let shape ← typeDefinition
    setKind (.typeDecl shape) (done ())
    expectSemicolon) done) done

/-- `PRAGMA name [(arguments)]`, with a `;` except inside an object type. -/
def pragma (terminated : Bool) : GrammarRule Unit :=
  node .pragma (do
    expectWord "PRAGMA"
    if let some t ← key 0 then setName ⟨[t.value]⟩ (done ())
    take
    skipParens
    if terminated then expectSemicolon) done

/-- A declaration that is not understood, through its `;`. -/
def unknownDeclaration : GrammarRule Unit :=
  node .unhandled (do
    take
    skipStatement) done

/-- One declaration. -/
def declaration : GrammarRule Unit := do
  if ← atWord 0 "SUBTYPE" then subtypeDecl
  else if ← atWord 0 "TYPE" then typeDecl
  else if ← atWord 0 "PRAGMA" then pragma true
  else if ← atAnyWord 0 ["PROCEDURE", "FUNCTION"] then method 0 0 false
  else if ← atWord 0 "CURSOR" then cursor
  else if ← atName 0 <&&> atWord 1 "EXCEPTION" then exceptionDecl
  else if ← atName 0 <&&> (atName 1 <||> atWord 1 "CONSTANT") then variableDecl
  else unknownDeclaration

/-- Declarations up to `END`. -/
def declarations : GrammarRule Unit :=
  repeatWhile do
    if ← atWord 0 "END" then return false
    if ← atEnd <||> atTerminator 0 <||> atCreate 0 then missing "`END`"
    declaration
    return true

end SqlDoc.GrammarRule

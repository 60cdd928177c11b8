/-
# Object types

An object type has attributes and methods with commas between them. Words such as `MEMBER` or
`NOT OVERRIDING` may stand before a method.

    CREATE TYPE name [IS | AS] OBJECT (members) [NOT] FINAL ...
    CREATE TYPE name UNDER parent (members) ...
    CREATE TYPE name [IS | AS] TABLE OF type
    CREATE TYPE name [IS | AS] VARRAY (n) OF type

Key definitions: `GrammarRule.objectMember`, `GrammarRule.objectType`.
-/
import SqlDoc.Syntax.Declaration

namespace SqlDoc.GrammarRule

/-- The words that may stand before a method. -/
def methodModifiers : List String :=
  ["OVERRIDING", "FINAL", "INSTANTIABLE", "MEMBER", "STATIC", "MAP", "ORDER"]

/-- Those that may have a `NOT` before them. -/
def negatableModifiers : List String :=
  methodModifiers.take 3

/-- How many groups ahead the modifiers of a method end, and how many modifiers there are. -/
def countModifiers : GrammarRule (Nat × Nat) :=
  iterate (fun (offset, count) => do
    if ← atWord offset "NOT" <&&> atAnyWord (offset + 1) negatableModifiers then
      return some (offset + 2, count + 1)
    else if ← atAnyWord offset methodModifiers then return some (offset + 1, count + 1)
    else return none) (0, 0)

/-- `name type`. -/
def attributeDecl : GrammarRule Unit :=
  within "an object attribute" (node .attributeDecl (do
    declaredName
    typeExpr) done) done

/-- A method, a pragma or an attribute. -/
def objectMember : GrammarRule Unit := do
  let (offset, count) ← countModifiers
  if ← atAnyWord offset ["PROCEDURE", "FUNCTION", "CONSTRUCTOR"] then method count offset true
  else if count > 0 then missing "`PROCEDURE` or `FUNCTION`"
  else if ← atWord 0 "PRAGMA" then pragma false
  else attributeDecl

/-- Members with commas between them, up to the `)` after them. -/
def objectMembers : GrammarRule Unit := do
  unless ← atKind 0 .rparen do separatedByCommas objectMember

/-- `UNDER parent`. The list of members may follow directly, so the parent has no arguments. -/
def under : GrammarRule Unit :=
  modifier do
    take
    node .typeExpr (do
      if ← atName 0 then setName (← name) (done ())) done

/-- What a type is, after `IS` or `AS`. -/
def typeBasis : GrammarRule Unit := do
  if ← atWord 0 "OBJECT" then leaf .keyword
  else if ← atAnyWord 0 ["TABLE", "VARRAY", "VARYING"] then collectionType
  else missing "`OBJECT`, `TABLE` or `VARRAY`"

/-- `[NOT] FINAL`, `[NOT] INSTANTIABLE` and the like, up to the `;`, a `/` alone on its line or a
`CREATE` that begins a line. -/
def typeModifiers : GrammarRule Unit := do
  repeatWhile do
    if ← atEnd <||> atTerminator 0 <||> atKind 0 .semicolon <||> atCreate 0 then return false
    modifier do
      let _ ← takeWord "NOT"
      take
    return true
  let _ ← takeKind .semicolon

/-- What follows the name of a type and its clauses. A type with nothing is declared forward. -/
def objectType : GrammarRule Unit := do
  unless ← takeKind .semicolon <||> atEnd <||> atTerminator 0 do
    if ← atWord 0 "UNDER" then under
    else if ← takeWord "IS" <||> takeWord "AS" then typeBasis
    else missing "`IS`, `AS` or `UNDER`"
    if ← takeKind .lparen then
      objectMembers
      expectKind .rparen "`)`"
    typeModifiers

end SqlDoc.GrammarRule

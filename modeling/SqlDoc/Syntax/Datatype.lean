/-
# Datatypes and values

A datatype is a name, qualified or built in, with arguments and what may follow it:

    [REF] name [(args)] [%TYPE | %ROWTYPE] [@link] [CHARACTER SET set]
    LONG RAW | DOUBLE PRECISION | CHARACTER VARYING (n)
    TIMESTAMP [(n)] [WITH [LOCAL] TIME ZONE]
    INTERVAL DAY [(n)] TO SECOND [(n)] | INTERVAL YEAR [(n)] TO MONTH

The node of a datatype has its base name, such as `NUMBER` or `EMP%ROWTYPE`. Values are not looked
into: they run to the end of the declaration.

Key definitions: `GrammarRule.typeExpr`, `GrammarRule.collectionType`, `GrammarRule.defaultValue`.
-/
import SqlDoc.Syntax.Lookahead

namespace SqlDoc

/-- The name with `%` and an attribute after its last part. -/
def Name.withAttribute (n : Name) (attr : String) : Name :=
  match n.parts.reverse with
  | [] => n
  | last :: before => ⟨(s!"{last}%{attr}" :: before).reverse⟩

namespace GrammarRule

/-- The words that go on after the base name of a built-in datatype. Gives the name of the
datatype. -/
def typeWords (base : Name) : GrammarRule Name := do
  match base.last with
  | "LONG" =>
    if ← takeWord "RAW" then return ⟨["LONG RAW"]⟩
  | "DOUBLE" =>
    if ← takeWord "PRECISION" then return ⟨["DOUBLE PRECISION"]⟩
  | "CHARACTER" | "CHAR" | "NATIONAL" =>
    repeatWhile do
      if ← atAnyWord 0 ["CHARACTER", "CHAR", "VARYING"] <&&> (not <$> atWord 1 "SET") then
        take
        return true
      else return false
  | "INTERVAL" =>
    take
    skipParens
    expectWord "TO"
    take
  | _ => return base
  return base

/-- `WITH [LOCAL] TIME ZONE`, after a `TIMESTAMP`. -/
def timeZone (base : Name) : GrammarRule Unit := do
  if base.last = "TIMESTAMP" then
    if ← takeWord "WITH" then
      let _ ← takeWord "LOCAL"
      expectWord "TIME"
      expectWord "ZONE"

/-- `%TYPE` or `%ROWTYPE` after a name. Gives the name with it. -/
def typeAttribute (name : Name) : GrammarRule Name := do
  if ← atKind 0 .percent <&&> atAnyWord 1 ["TYPE", "ROWTYPE"] then
    take
    look 0 fun seen => bump (done (seen.elim name (name.withAttribute ·.value)))
  else return name

/-- `@link`: the database that the type is in. -/
def databaseLink : GrammarRule Unit := do
  if ← atKind 0 .atSign <&&> atName 1 then
    take
    let _ ← name

/-- `CHARACTER SET name`, or `CHARACTER SET name%CHARSET`. -/
def characterSet : GrammarRule Unit := do
  if ← atWord 0 "CHARACTER" <&&> atWord 1 "SET" then
    take
    take
    let _ ← name
    if ← takeKind .percent then take

/-- A datatype. -/
def typeExpr : GrammarRule Unit :=
  node .typeExpr (do
    let _ ← takeIf (atWord 0 "REF" <&&> (not <$> atWord 1 "CURSOR"))
    let base ← name
    let full ← typeWords base
    skipParens
    timeZone base
    let full ← typeAttribute full
    databaseLink
    characterSet
    setName full (done ())) done

/-- `NOT NULL`. -/
def notNull : GrammarRule Unit := do
  if ← atWord 0 "NOT" <&&> atWord 1 "NULL" then
    modifier do
      take
      take

/-- `TABLE OF type`, `VARRAY (n) OF type` or `VARYING ARRAY (n) OF type`, with `NOT NULL`. -/
def collectionType : GrammarRule Unit := do
  if ← takeWord "TABLE" then expectWord "OF"
  else
    if ← takeWord "VARYING" then expectWord "ARRAY" else expectWord "VARRAY"
    if ← atKind 0 .lparen then node .literal skipParens done
    expectWord "OF"
  typeExpr
  notNull

/-- An expression: all up to a `,` or a `;` outside parentheses, or a parenthesis that closes
none. -/
def expression : GrammarRule Unit := do
  if ← atEnd <||> at? 0 (fun t => [.comma, .rparen, .semicolon].contains t.kind) then
    missing "an expression"
  node .expression (skipUntil fun kind => kind = .comma ∨ kind = .semicolon) done

/-- `[NOT NULL] [:= value | DEFAULT value]`. -/
def defaultValue : GrammarRule Unit := do
  notNull
  if ← takeIf (atOperator 0 ":=" <||> atWord 0 "DEFAULT") then expression

end GrammarRule
end SqlDoc

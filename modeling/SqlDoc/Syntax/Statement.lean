/-
# Statements of a script

A script is statements one after the other: `CREATE` statements, `/` on its own and `;` on its own,
commands of the script processor, which end with their line, and statements of other kinds, which
are kept up to their `;` or their `/`. Packages and object types are read member by member. The
bodies of packages, types and routines are kept as they are.

Reading ends with the first error. Where the tokens end in an error of their own and the grammar
has noticed it, that one is reported.

Key definitions: `StatementForm`, `GrammarRule.statement`, `Parsed`, `parseSql`.
Key theorems: `ParseState.split_statementsUpTo`, `ParseState.forall_statementsUpTo`.
-/
import SqlDoc.Syntax.ObjectType

namespace SqlDoc
namespace GrammarRule

/-- How many groups ahead the word is that tells what a `CREATE` statement creates: after
`CREATE [OR REPLACE] [EDITIONABLE]`. -/
def createOffset : GrammarRule Nat := do
  let n := if ← atWord 1 "OR" <&&> atWord 2 "REPLACE" then 3 else 1
  return if ← atAnyWord n ["EDITIONABLE", "NONEDITIONABLE", "EDITIONING"] then n + 1 else n

/-- A clause between the name of a unit and its `IS`, if one is next. Tells whether it is. -/
def unitClause : GrammarRule Bool := do
  if ← atWord 0 "SHARING" then
    modifier do
      take
      let _ ← takeIf (atOperator 0 "=")
      take
  else if ← atWord 0 "AUTHID" then modifier (times 2 take)
  else if ← atWord 0 "ACCESSIBLE" <&&> atWord 1 "BY" then
    modifier do
      times 2 take
      skipParens
  else if ← atWord 0 "DEFAULT" <&&> atWord 1 "COLLATION" then modifier (times 3 take)
  else if ← atAnyWord 0 ["FORCE", "WRAPPED"] then modifier take
  else if ← atWord 0 "OID" then modifier (times 2 take)
  else return false
  return true

/-- The clauses between the name of a unit and its `IS`. -/
def unitClauses : GrammarRule Unit :=
  repeatWhile unitClause

/-- `END [name] [;]`. -/
def endClause : GrammarRule Unit :=
  node .keyword (do
    expectWord "END"
    if ← atName 0 then setName (← name) (done ())
    let _ ← takeKind .semicolon) done

/-- The program text after the `IS` of a body, as one node. -/
def opaqueBody : GrammarRule Unit := do
  unless ← atEnd <||> atTerminator 0 do node .body skipToTerminator done

/-- What follows the name of a package: its declarations and `END`. -/
def packageSpec : GrammarRule Unit := do
  unitClauses
  expectIsOrAs
  declarations
  endClause

/-- What follows the name of the body of a package or a type. -/
def unitBody : GrammarRule Unit := do
  unitClauses
  expectIsOrAs
  opaqueBody

/-- What follows the name of a routine that is a unit. -/
def standaloneRoutine (isFunction : Bool) : GrammarRule Unit := do
  parameterList
  if isFunction then returnClause
  routineModifiers
  if ← takeWord "IS" <||> takeWord "AS" then opaqueBody
  else
    let _ ← takeKind .semicolon

/-- What follows the name of a unit. -/
def unitRest : UnitKind → GrammarRule Unit
  | .package => packageSpec
  | .packageBody | .typeBody => unitBody
  | .objectType => do
    unitClauses
    objectType
  | .procedure => standaloneRoutine false
  | .function => standaloneRoutine true

/-- The unit that a `CREATE` statement creates, if it is of a kind that is read. The word for it is
`n` groups ahead. -/
def unitKind (n : Nat) (isBody : Bool) : GrammarRule (Option UnitKind) := do
  if ← atWord n "PACKAGE" then return some (if isBody then .packageBody else .package)
  else if ← atWord n "TYPE" then return some (if isBody then .typeBody else .objectType)
  else if ← atWord n "PROCEDURE" then return some .procedure
  else if ← atWord n "FUNCTION" then return some .function
  else return none

/-- `CREATE TRIGGER`, `JAVA` or `LIBRARY` is next: a body that is not read. -/
def atForeignBody : GrammarRule Bool := do
  let n ← createOffset
  atWord 0 "CREATE" <&&> atAnyWord n ["TRIGGER", "JAVA", "LIBRARY"]

/-- A statement that is not understood, up to its `;`, or up to its `/` if it is a block. -/
def unknownStatement : GrammarRule Unit := do
  let isBlock ← atAnyWord 0 ["DECLARE", "BEGIN"] <||> atForeignBody
  take
  if isBlock then skipToTerminator else skipStatement

/-- The words that begin a command of the script processor. -/
def commandWords : List String :=
  ["SET", "PROMPT", "SHOW", "SPOOL", "EXEC", "EXECUTE", "DEFINE", "UNDEFINE", "WHENEVER", "CONNECT",
    "REM", "REMARK", "COLUMN", "START", "PAUSE", "ACCEPT", "VARIABLE", "CLEAR"]

/-- A command: everything to the end of its line. -/
def command : GrammarRule Unit := do
  if let some t ← key 0 then setName ⟨[t.value]⟩ (done ())
  skipLine

end GrammarRule

/-- What a statement is. -/
inductive StatementForm where
  /-- It creates a unit. The word for the unit is `n` groups ahead. -/
  | create (unit : UnitKind) (n : Nat) (isBody : Bool)
  | terminator
  | command
  | unknown
  deriving DecidableEq, Repr

/-- The kind of a statement's node. -/
def StatementForm.kind : StatementForm → NodeKind
  | create unit _ _ => .createUnit unit
  | terminator => .terminator
  | command => .command
  | unknown => .unhandled

namespace GrammarRule

/-- What the next statement is. -/
def statementForm : GrammarRule StatementForm := do
  if ← atWord 0 "CREATE" then
    let n ← createOffset
    let isBody ← atWord (n + 1) "BODY"
    let unit ← unitKind n isBody
    return unit.elim .unknown fun unit => .create unit n isBody
  else if ← atTerminator 0 <||> atKind 0 .semicolon then return .terminator
  else if ← atKind 0 .atSign <||> atAnyWord 0 commandWords then return .command
  else return .unknown

/-- The inside of a statement of a form. -/
def statementInside : StatementForm → GrammarRule Unit
  | .create unit n isBody =>
    within unit.words (do
      times (n + 1) take
      if isBody then take
      declaredName
      unitRest unit) done
  | .terminator => take
  | .command => command
  | .unknown => unknownStatement

/-- One statement, read into the open node. -/
def statement : GrammarRule Unit := do
  let form ← statementForm
  setKind form.kind (statementInside form)

/-- A statement that is read has a form, and its inside is read into a node of that kind. -/
theorem ok_of_statement {s next : ParseState} (h : statement.run s = (.ok (), next)) :
    ∃ form mid, statementForm.run s = (.ok form, mid) ∧
      (statementInside form).run { mid with current := { mid.current with kind := form.kind } } =
        (.ok (), next) :=
  ok_of_bind h

/-- One statement, read into a node of its own. -/
def statementNode : GrammarRule Unit := do
  let form ← statementForm
  node form.kind (statementInside form) done

end GrammarRule

/-- Why a script cannot be read to its end. -/
inductive ParseError where
  /-- It cannot be split into tokens. -/
  | lex (error : LexError)
  /-- A token that the grammar requires is missing. -/
  | grammar (error : SyntaxError)
  deriving DecidableEq, Repr

namespace ParseError

/-- The error in words. -/
def message : ParseError → String
  | lex e => e.message
  | grammar e => e.message

/-- Where the error is. -/
def position : ParseError → Position
  | lex e => e.position
  | grammar e => e.place

/-- The error as a diagnostic. -/
def toDiagnostic : ParseError → Diagnostic
  | lex e => e.toDiagnostic
  | grammar e => e.toDiagnostic

end ParseError

/-- The statements of a script, and the error that ends them, if there is one. -/
structure Parsed where
  trees : List SyntaxTree
  error : Option ParseError
  deriving DecidableEq, Repr

namespace ParseState

/-- Where reading begins. -/
def ofLexed (lexed : Lexed) : ParseState where
  stream := .ofLexed lexed
  started := false
  stop := .start
  current := { kind := .unhandled }

/-- The same place, with an empty node open. -/
def openNode (s : ParseState) : ParseState :=
  { s with current := { kind := .unhandled } }

/-- Reads at most `n` statements. -/
def statementsUpTo : Nat → ParseState → Parsed
  | 0, _ => { trees := [], error := none }
  | n + 1, s =>
    match s.key 0 with
    | (none, s) => { trees := [], error := s.stream.error.map .lex }
    | (some _, s) =>
      match GrammarRule.statement.run s.openNode with
      | (.error e, s) => { trees := [], error := some (s.stream.error.elim (.grammar e) .lex) }
      | (.ok (), s) =>
        let rest := statementsUpTo n s
        { rest with trees := s.current.toTree :: rest.trees }

/-- A statement is read where those before it have been read. So what it shows there, if `I` holds at
the start and each statement keeps it, holds of every statement in its place. -/
theorem split_statementsUpTo {I : List SyntaxTree → ParseState → Prop}
    {Q : List SyntaxTree → SyntaxTree → Prop}
    (hstep : ∀ {before : List SyntaxTree} {s next : ParseState}, I before s →
      (s.key 0).1.isSome = true →
      GrammarRule.statement.run (s.key 0).2.openNode = (.ok (), next) →
        Q before next.current.toTree ∧ I (before ++ [next.current.toTree]) next)
    {n : Nat} {s : ParseState} {before after : List SyntaxTree} {t : SyntaxTree} (hs : I [] s)
    (h : (s.statementsUpTo n).trees = before ++ t :: after) : Q before t := by
  have hfrom (n : Nat) {s : ParseState} {earlier before : List SyntaxTree} (hs : I earlier s)
      (h : (s.statementsUpTo n).trees = before ++ t :: after) : Q (earlier ++ before) t := by
    induction n generalizing s earlier before with
    | zero => cases before <;> cases h
    | succ n ih =>
      have hread {next : ParseState} := @hstep earlier s next hs
      unfold statementsUpTo at h
      cases hkey : s.key 0 with
      | mk key looked =>
        rw [hkey] at h hread
        cases key with
        | none => cases before <;> cases h
        | some _ =>
          dsimp only at h
          cases hrun : GrammarRule.statement.run looked.openNode with
          | mk result next =>
            rw [hrun] at h
            cases result with
            | error e => cases before <;> cases h
            | ok =>
              obtain ⟨hfirst, hnext⟩ := hread rfl hrun
              cases before with
              | nil =>
                obtain ⟨rfl, -⟩ := List.cons.inj h
                rwa [List.append_nil]
              | cons first before =>
                obtain ⟨rfl, hrest⟩ := List.cons.inj h
                have ht := ih hnext hrest
                rwa [List.append_assoc] at ht
  exact hfrom n hs h

/-- What every statement shows where `I` holds, if each keeps `I`, holds of all that are read. -/
theorem forall_statementsUpTo {I : ParseState → Prop} {Q : SyntaxTree → Prop}
    (hstep : ∀ {s next : ParseState}, I s → (s.key 0).1.isSome = true →
      GrammarRule.statement.run (s.key 0).2.openNode = (.ok (), next) →
        Q next.current.toTree ∧ I next)
    {n : Nat} {s : ParseState} (hs : I s) : ∀ t ∈ (s.statementsUpTo n).trees, Q t := by
  intro t ht
  obtain ⟨before, after, hsplit⟩ := List.append_of_mem ht
  exact split_statementsUpTo (I := fun _ => I) (Q := fun _ => Q) hstep hs hsplit

/-- Reads all statements. Each takes a significant token, so there are no more of them than
significant tokens. -/
def statements (s : ParseState) : Parsed :=
  s.statementsUpTo (s.stream.remaining + 1)

end ParseState

/-- The statements of a script that has been split into tokens. -/
def parseTokens (lexed : Lexed) : Parsed :=
  (ParseState.ofLexed lexed).statements

/-- The statements of a script. -/
def parseSql (source : String) (filename : Option String := none) : Parsed :=
  parseTokens (lexSql source filename)

end SqlDoc

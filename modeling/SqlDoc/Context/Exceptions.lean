/-
# Exceptions of a unit

A unit declares exceptions and may bind codes to them with pragmas, in any order. What the name in
a `@throws` tag stands for depends on all of them: an exception of that name, an exception that has
the code, an error with that number, or an exception that is raised without a declaration.

Key definitions: `codeBinding?`, `DeclaredException`, `errorCode?`, `throwsTarget`.
-/
import SqlDoc.Context.Declare

namespace SqlDoc

/-- The number that decimal digits write, if there are any. -/
def naturalOfDigits? (digits : List Char) : Option Nat :=
  if digits ≠ [] ∧ digits.all Char.isDigit then
    some (digits.foldl (fun n c => 10 * n + (c.toNat - '0'.toNat)) 0)
  else none

/-- The least number that 64 bits with a sign do not hold: two to the power of 63. -/
def integerLimit : Int := 9223372036854775808

/-- The number that digits with a sign in front write, if it has at most 64 bits. -/
def integerOfText? (text : List Char) : Option Int :=
  let number :=
    match text with
    | '-' :: digits => (naturalOfDigits? digits).map fun n => -(n : Int)
    | '+' :: digits => (naturalOfDigits? digits).map Int.ofNat
    | digits => (naturalOfDigits? digits).map Int.ofNat
  number.filter fun n => -integerLimit ≤ n && n < integerLimit

/-- The number of an error that is written `-20001`, `20001` or `ORA-20001`. -/
def errorCode? (text : String) : Option Int :=
  match text.toList with
  | 'O' :: 'R' :: 'A' :: rest => integerOfText? rest
  | 'o' :: 'r' :: 'a' :: rest => integerOfText? rest
  | chars => integerOfText? chars

/-- What stands before the first `c` and what stands after it. -/
def splitFirst? (c : Char) (text : List Char) : Option (List Char × List Char) :=
  match text.dropWhile (· ≠ c) with
  | [] => none
  | _ :: rest => some (text.takeWhile (· ≠ c), rest)

/-- What stands before the last `c`. -/
def beforeLast? (c : Char) (text : List Char) : Option (List Char) :=
  (splitFirst? c text.reverse).map fun (_, before) => before.reverse

/-- The exception and the code of `PRAGMA EXCEPTION_INIT(exception, code)`. -/
def codeBinding? (t : SyntaxTree) : Option (Name × String) := do
  if t.kind ≠ .pragma ∨ t.nameOrEmpty.last ≠ "EXCEPTION_INIT" then none
  let (_, rest) ← splitFirst? '(' t.flatText.toList
  let args ← beforeLast? ')' rest
  let (name, code) ← splitFirst? ',' args
  return (.parse (Text.trim (String.ofList name)),
    String.ofList (code.filter fun c => !Text.isBlank c))

/-- The codes that are bound to an exception, each once, in order. -/
def boundCodes (bindings : List (Name × String)) (exception : String) : List String :=
  ((bindings.filter (·.1.last = exception)).map (·.2)).eraseDups

/-- An exception of a unit: the number of its context, its unqualified name and its codes. -/
structure DeclaredException where
  id : Nat
  name : String
  codes : List String
  deriving DecidableEq, Repr

/-- The exceptions that are raised without a declaration. -/
def predefinedExceptions : List String :=
  ["ACCESS_INTO_NULL", "CASE_NOT_FOUND", "COLLECTION_IS_NULL", "CURSOR_ALREADY_OPEN",
    "DUP_VAL_ON_INDEX", "INVALID_CURSOR", "INVALID_NUMBER", "LOGIN_DENIED", "NO_DATA_FOUND",
    "NO_DATA_NEEDED", "NOT_LOGGED_ON", "PROGRAM_ERROR", "ROWTYPE_MISMATCH", "SELF_IS_NULL",
    "STORAGE_ERROR", "SUBSCRIPT_BEYOND_COUNT", "SUBSCRIPT_OUTSIDE_LIMIT", "SYS_INVALID_ROWID",
    "TIMEOUT_ON_RESOURCE", "TOO_MANY_ROWS", "VALUE_ERROR", "ZERO_DIVIDE"]

/-- What the name in a `@throws` tag stands for in a unit. -/
def throwsTarget (exceptions : List DeclaredException) (name : Name) : ThrowsTarget :=
  match exceptions.find? (·.name = name.last) with
  | some e => .declared e.id
  | none =>
    match errorCode? name.display with
    | some code =>
      let hasCode (e : DeclaredException) : Bool := e.codes.any fun c => errorCode? c = some code
      (exceptions.find? hasCode).elim .errorCode fun e => .declared e.id
    | none => if predefinedExceptions.contains name.last then .predefined else .unknown

end SqlDoc

/-
# Diagnostics

A diagnostic is one report to the user: a code, a severity, a message, the place it is about, if
there is one, and lines of further notes. A queue keeps the diagnostics of a run in the order they
come and takes each report once.

Key definitions: `Code`, `Diagnostic`, `Diagnostic.display`, `Queue`, `Queue.emit`.
Key theorem: `Queue.toList_emit`.
-/
import SqlDoc.Position

namespace SqlDoc

/-- What a diagnostic is about. -/
inductive Code where
  /-- A character that no rule of the lexer's state accepts. -/
  | unexpectedCharacter
  /-- Delimited text that is never closed. -/
  | unterminatedText
  /-- A lexer that goes round without reading. -/
  | noProgress
  /-- A token that the grammar requires is missing. -/
  | syntaxError
  /-- A construct that is skipped because it is not understood. -/
  | unresolvedConstruct
  /-- A tag with nothing to bind to. -/
  | orphanTag
  /-- A tag for what an earlier tag documents. -/
  | duplicateTag
  /-- A comment that cannot be split into tokens. -/
  | malformedComment
  deriving DecidableEq, Repr

namespace Code

/-- Every code, in the order of their texts. -/
def all : List Code :=
  [unexpectedCharacter, unterminatedText, noProgress, syntaxError, unresolvedConstruct,
    orphanTag, duplicateTag, malformedComment]

/-- The code as messages show it: `E` for errors and `W` for warnings, then the stage that reports
it (0 tokens, 1 grammar, 2 documentation) and a number. -/
def text : Code → String
  | unexpectedCharacter => "E0001"
  | unterminatedText => "E0002"
  | noProgress => "E0003"
  | syntaxError => "E1001"
  | unresolvedConstruct => "W2001"
  | orphanTag => "W2002"
  | duplicateTag => "W2003"
  | malformedComment => "W2004"

/-- One line that explains the code. -/
def description : Code → String
  | unexpectedCharacter => "unexpected character"
  | unterminatedText => "unterminated delimited text"
  | noProgress => "lexer made no progress"
  | syntaxError => "syntax error"
  | unresolvedConstruct => "unresolved construct"
  | orphanTag => "orphan tag"
  | duplicateTag => "duplicate tag"
  | malformedComment => "malformed doc comment"

/-- The code is reported while a text is split into tokens. -/
def isLexerError : Code → Bool
  | unexpectedCharacter | unterminatedText | noProgress => true
  | _ => false

/-- The code is a warning. -/
def isWarning : Code → Bool
  | unresolvedConstruct | orphanTag | duplicateTag | malformedComment => true
  | _ => false

/-- The code with the given text. -/
def ofText? (text : String) : Option Code :=
  all.find? (·.text = text)

end Code

/-- How grave a diagnostic is. -/
inductive Severity where
  | error
  | warning
  | note
  deriving DecidableEq, Repr

/-- The word for a severity. -/
def Severity.text : Severity → String
  | error => "error"
  | warning => "warning"
  | note => "note"

/-- One report. -/
structure Diagnostic where
  code : Code
  severity : Severity
  message : String := ""
  position : Option Position := none
  notes : List String := []
  deriving DecidableEq, Repr

/-- A report as it is handed to a log: a level, a code and one text. -/
structure LogEvent where
  level : String
  code : String
  message : String
  deriving DecidableEq, Repr

namespace Diagnostic

/-- An error at a position. -/
def error (code : Code) (message : String) (position : Position) : Diagnostic :=
  { code, severity := .error, message, position := some position }

/-- A warning, at a position if there is one. -/
def warning (code : Code) (message : String) (position : Option Position) : Diagnostic :=
  { code, severity := .warning, message, position }

/-- The diagnostic is an error. -/
def isError (d : Diagnostic) : Bool :=
  d.severity == .error

/-- Both report the same: they differ at most in the file of their positions. -/
def same (d e : Diagnostic) : Bool :=
  d.code == e.code && d.severity == e.severity && d.message == e.message && d.notes == e.notes &&
    match d.position, e.position with
    | none, none => true
    | some p, some q => p.samePlace q
    | _, _ => false

/-- `position: severity[code]: message`, then a line for each note. -/
def display (d : Diagnostic) (format : PositionFormat := .full) : String :=
  let place := d.position.elim "" fun p => p.display format ++ ": "
  let notes := d.notes.map fun note => "\n  = note: " ++ note
  s!"{place}{d.severity.text}[{d.code.text}]: {d.message}" ++ String.join notes

/-- The diagnostic for a log. -/
def logEvent (d : Diagnostic) (format : PositionFormat) : LogEvent where
  level :=
    match d.severity with
    | .error => "ERROR"
    | .warning => "WARN"
    | .note => "INFO"
  code := d.code.text
  message := d.display format

end Diagnostic

/-- The diagnostics of a run, in order, each report once, and how many of them are errors. The
number is kept beside the list, not counted. -/
structure Queue where
  toList : List Diagnostic
  errorCount : Nat
  deriving DecidableEq, Repr

namespace Queue

/-- The queue that has received nothing. -/
def empty : Queue := ⟨[], 0⟩

/-- Takes a diagnostic, unless the queue holds the same report. -/
def emit (q : Queue) (d : Diagnostic) : Queue :=
  if q.toList.any (·.same d) then q
  else
    { toList := q.toList ++ [d]
      errorCount := if d.isError then q.errorCount + 1 else q.errorCount }

/-- The queue after a list of diagnostics. -/
def ofList (ds : List Diagnostic) : Queue :=
  ds.foldl emit empty

/-- The warnings of the queue, in order. -/
def warnings (q : Queue) : List Diagnostic :=
  q.toList.filter (·.severity == .warning)

/-- Everything the queue holds, and the queue without it. -/
def drain (q : Queue) : List Diagnostic × Queue :=
  (q.toList, empty)

theorem toList_emit (q : Queue) (d : Diagnostic) :
    (q.emit d).toList = q.toList ++ if q.toList.any (·.same d) then [] else [d] := by
  unfold emit
  split <;> simp

end Queue
end SqlDoc

/-
# Documenting files

A file is read statement by statement and resolved. If it cannot be read to its end, the statements
before that are resolved all the same, so that what is reported about them is not lost; the error is
reported last, and the file has no document.

Key definitions: `DocConfig`, `Document`, `FileError`, `documentFile`, `documentAll`.
-/
import SqlDoc.Context.Resolution
import SqlDoc.Syntax.Statement

namespace SqlDoc

/-- How files are documented. -/
structure DocConfig where
  /-- How positions are written. -/
  format : PositionFormat := .full
  /-- What is not public is documented too. -/
  includePrivate : Bool := false
  /-- Tags with nothing to bind to are reported. -/
  warnOrphans : Bool := true
  deriving DecidableEq, Repr

/-- Everything documented in one file. -/
structure Document where
  filename : Option String
  trees : List SyntaxTree
  resolution : Resolution

namespace Document

/-- The contexts of the units, with their numbers. -/
def units (d : Document) : List (Nat × Context) :=
  d.resolution.units.filterMap fun id => (d.resolution.contexts.get? id).map fun c => (id, c)

end Document

/-- Why a file has no document. -/
structure FileError where
  error : ParseError
  /-- How its position is written. -/
  format : PositionFormat
  deriving DecidableEq, Repr

/-- The error in words, with its position in front. -/
def FileError.message (e : FileError) : String :=
  s!"{e.error.position.display e.format}: {e.error.message}"

/-- The error as a diagnostic. -/
def FileError.toDiagnostic (e : FileError) : Diagnostic :=
  e.error.toDiagnostic

/-- A text without the mark that tells its encoding. -/
def withoutByteOrderMark (source : String) : String :=
  match source.toList with
  | '\ufeff' :: rest => String.ofList rest
  | _ => source

/-- Documents a file. Gives the document or the error, and everything that is reported. -/
def documentFile (config : DocConfig) (source : String) (filename : Option String := none) :
    Except FileError Document × List Diagnostic :=
  let parsed := parseSql (withoutByteOrderMark source) filename
  let (resolution, reports) := resolve parsed.trees config.warnOrphans
  match parsed.error with
  | none => (.ok { filename, trees := parsed.trees, resolution }, reports)
  | some error =>
    let e : FileError := { error, format := config.format }
    (.error e, reports ++ [e.toDiagnostic])

/-- One of several files. -/
structure SourceFile where
  name : String
  text : String
  deriving DecidableEq, Repr

/-- What has become of a file. -/
structure FileOutcome where
  name : String
  result : Except FileError Document
  reports : List Diagnostic

/-- Documents files, each on its own, in their order. -/
def documentAll (config : DocConfig) (files : List SourceFile) : List FileOutcome :=
  files.map fun file =>
    let (result, reports) := documentFile config file.text (some file.name)
    { name := file.name, result, reports }

end SqlDoc

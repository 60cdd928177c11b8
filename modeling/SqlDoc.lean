import SqlDoc.Context.Arena
import SqlDoc.Context.Basic
import SqlDoc.Context.Binding
import SqlDoc.Context.Declare
import SqlDoc.Context.Exceptions
import SqlDoc.Context.Kind
import SqlDoc.Context.Overload
import SqlDoc.Context.Resolution
import SqlDoc.Context.Resolver
import SqlDoc.Diagnostic
import SqlDoc.Doc.Comment
import SqlDoc.Doc.Grammar
import SqlDoc.Doc.Kind
import SqlDoc.Doc.Reading
import SqlDoc.Doc.Tag
import SqlDoc.Document.Basic
import SqlDoc.Document.Entity
import SqlDoc.Lexer.Build
import SqlDoc.Lexer.Engine
import SqlDoc.Lexer.Feed
import SqlDoc.Lexer.Grammar
import SqlDoc.Lexer.Run
import SqlDoc.Name
import SqlDoc.Pattern.Basic
import SqlDoc.Pattern.CharSet
import SqlDoc.Pattern.Cursor
import SqlDoc.Pattern.Layout
import SqlDoc.Position
import SqlDoc.Proofs.Context.Binding
import SqlDoc.Proofs.Context.Closing
import SqlDoc.Proofs.Context.Codes
import SqlDoc.Proofs.Context.Declared
import SqlDoc.Proofs.Context.Described
import SqlDoc.Proofs.Context.DocComments
import SqlDoc.Proofs.Context.Documenting
import SqlDoc.Proofs.Context.Duplicates
import SqlDoc.Proofs.Context.ExceptionCodes
import SqlDoc.Proofs.Context.Fronting
import SqlDoc.Proofs.Context.Housing
import SqlDoc.Proofs.Context.Independence
import SqlDoc.Proofs.Context.MemberIds
import SqlDoc.Proofs.Context.Members
import SqlDoc.Proofs.Context.Moving
import SqlDoc.Proofs.Context.Nesting
import SqlDoc.Proofs.Context.Numbering
import SqlDoc.Proofs.Context.Orphans
import SqlDoc.Proofs.Context.Overloads
import SqlDoc.Proofs.Context.ParamComment
import SqlDoc.Proofs.Context.Paths
import SqlDoc.Proofs.Context.Raising
import SqlDoc.Proofs.Context.Recording
import SqlDoc.Proofs.Context.Refinement
import SqlDoc.Proofs.Context.Reporting
import SqlDoc.Proofs.Context.Rows
import SqlDoc.Proofs.Context.Statements
import SqlDoc.Proofs.Context.TagOrder
import SqlDoc.Proofs.Context.Tagging
import SqlDoc.Proofs.Context.Telling
import SqlDoc.Proofs.Context.Throwing
import SqlDoc.Proofs.Context.TypeDefinitions
import SqlDoc.Proofs.Context.Unknown
import SqlDoc.Proofs.Context.Visiting
import SqlDoc.Proofs.Context.Warning
import SqlDoc.Proofs.Diagnostic.Queueing
import SqlDoc.Proofs.Doc.ArgumentMarks
import SqlDoc.Proofs.Doc.ArgumentTokens
import SqlDoc.Proofs.Doc.Consuming
import SqlDoc.Proofs.Doc.Description
import SqlDoc.Proofs.Doc.Escapes
import SqlDoc.Proofs.Doc.Flattening
import SqlDoc.Proofs.Doc.Lines
import SqlDoc.Proofs.Doc.LinkTokens
import SqlDoc.Proofs.Doc.Links
import SqlDoc.Proofs.Doc.Markers
import SqlDoc.Proofs.Doc.Moving
import SqlDoc.Proofs.Doc.Names
import SqlDoc.Proofs.Doc.Nesting
import SqlDoc.Proofs.Doc.ParamTag
import SqlDoc.Proofs.Doc.Pieces
import SqlDoc.Proofs.Doc.Places
import SqlDoc.Proofs.Doc.Prose
import SqlDoc.Proofs.Doc.Recorded
import SqlDoc.Proofs.Doc.References
import SqlDoc.Proofs.Doc.Spans
import SqlDoc.Proofs.Doc.Stack
import SqlDoc.Proofs.Doc.Taking
import SqlDoc.Proofs.Document.Failing
import SqlDoc.Proofs.Document.Members
import SqlDoc.Proofs.Document.Showing
import SqlDoc.Proofs.Lexer.Alike
import SqlDoc.Proofs.Lexer.Building
import SqlDoc.Proofs.Lexer.Compiling
import SqlDoc.Proofs.Lexer.Course
import SqlDoc.Proofs.Lexer.Cutting
import SqlDoc.Proofs.Lexer.Feed
import SqlDoc.Proofs.Lexer.Passage
import SqlDoc.Proofs.Lexer.Stalling
import SqlDoc.Proofs.Pattern.Cutting
import SqlDoc.Proofs.Pattern.Language
import SqlDoc.Proofs.Position.Advance
import SqlDoc.Proofs.Position.Order
import SqlDoc.Proofs.Position.Scanning
import SqlDoc.Proofs.Sql.Content
import SqlDoc.Proofs.Sql.CookedStep
import SqlDoc.Proofs.Sql.Feed
import SqlDoc.Proofs.Sql.Gaps
import SqlDoc.Proofs.Sql.Grouping
import SqlDoc.Proofs.Sql.Insertion
import SqlDoc.Proofs.Sql.LineEnds
import SqlDoc.Proofs.Sql.Literals
import SqlDoc.Proofs.Sql.Lossless
import SqlDoc.Proofs.Sql.Places
import SqlDoc.Proofs.Sql.Quotes
import SqlDoc.Proofs.Sql.RawStep
import SqlDoc.Proofs.Sql.ReservedWords
import SqlDoc.Proofs.Sql.Spellings
import SqlDoc.Proofs.Sql.Streaming
import SqlDoc.Proofs.Sql.WordClasses
import SqlDoc.Proofs.Sql.Words
import SqlDoc.Proofs.Syntax.Adding
import SqlDoc.Proofs.Syntax.Builder
import SqlDoc.Proofs.Syntax.CommandLine
import SqlDoc.Proofs.Syntax.Coverage
import SqlDoc.Proofs.Syntax.Expecting
import SqlDoc.Proofs.Syntax.Feed
import SqlDoc.Proofs.Syntax.FlatText
import SqlDoc.Proofs.Syntax.Heeding
import SqlDoc.Proofs.Syntax.Inserting
import SqlDoc.Proofs.Syntax.Labelling
import SqlDoc.Proofs.Syntax.Layout
import SqlDoc.Proofs.Syntax.Leading
import SqlDoc.Proofs.Syntax.Leaving
import SqlDoc.Proofs.Syntax.LexErrors
import SqlDoc.Proofs.Syntax.MemberPrefix
import SqlDoc.Proofs.Syntax.Names
import SqlDoc.Proofs.Syntax.Naming
import SqlDoc.Proofs.Syntax.Nearsighted
import SqlDoc.Proofs.Syntax.OpaqueRegions
import SqlDoc.Proofs.Syntax.Placement
import SqlDoc.Proofs.Syntax.Putting
import SqlDoc.Proofs.Syntax.Reaching
import SqlDoc.Proofs.Syntax.Regions
import SqlDoc.Proofs.Syntax.Shape
import SqlDoc.Proofs.Syntax.StatementEnds
import SqlDoc.Proofs.Syntax.Stopping
import SqlDoc.Proofs.Syntax.Table
import SqlDoc.Proofs.Syntax.Taking
import SqlDoc.Proofs.Syntax.Terminators
import SqlDoc.Proofs.Syntax.TypeDeclarations
import SqlDoc.Regular.Automaton
import SqlDoc.Regular.Basic
import SqlDoc.Regular.Engine
import SqlDoc.Regular.Reader
import SqlDoc.Regular.Size
import SqlDoc.Sql.Feed
import SqlDoc.Sql.Grammar
import SqlDoc.Sql.Keyword
import SqlDoc.Sql.Kind
import SqlDoc.Sql.Lex
import SqlDoc.Sql.Stream
import SqlDoc.Syntax.Builder
import SqlDoc.Syntax.Datatype
import SqlDoc.Syntax.Declaration
import SqlDoc.Syntax.Feed
import SqlDoc.Syntax.Kind
import SqlDoc.Syntax.Lookahead
import SqlDoc.Syntax.ObjectType
import SqlDoc.Syntax.Routine
import SqlDoc.Syntax.Rule
import SqlDoc.Syntax.Statement
import SqlDoc.Syntax.Table
import SqlDoc.Syntax.Tree
import SqlDoc.Text.Alphabetic
import SqlDoc.Text.Blank
import SqlDoc.Text.Bytes
import SqlDoc.Text.CaseRun
import SqlDoc.Text.Cased
import SqlDoc.Text.Decimal
import SqlDoc.Text.Fold
import SqlDoc.Text.Lines
import SqlDoc.Text.Lower
import SqlDoc.Text.Printable
import SqlDoc.Text.Quoted
import SqlDoc.Text.Ranges
import SqlDoc.Text.Upper
import SqlDoc.Text.Utf8
import SqlDoc.Text.WordChar
import SqlDoc.Token

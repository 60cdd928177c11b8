/-
# Tags of a documentation comment

A comment is a list of tags: the description in front, and for each marker such as `@param` or
`@see` a tag with the fields that the marker calls for and a content of running text. Content may
hold expressions in braces and brackets, references such as `#member`, and further tags inside
braces, such as `{@link target text}`.

Key definitions: `Tag`, `TagBody`, `DocExpr`, `ContentNode`, `contentText`, `Tag.displayText`.
-/
import SqlDoc.Name
import SqlDoc.Position
import SqlDoc.Text.Lines

namespace SqlDoc

/-- Who may use what a comment documents. -/
inductive Visibility where
  | forAll
  | forOwner
  | forHeirs
  | forProject
  /-- `@api word`. -/
  | api (word : String)
  deriving DecidableEq, Repr

namespace Visibility

/-- The word for a visibility. -/
def text : Visibility → String
  | forAll => "public"
  | forOwner => "private"
  | forHeirs => "protected"
  | forProject => "internal"
  | api word => word

/-- Public documentation leaves it out. -/
def isHidden (v : Visibility) : Bool :=
  v.text = "private" || v.text = "internal"

end Visibility

/-- A name as a comment writes it, with arguments if it is written as a call. -/
structure Reference where
  name : Name
  /-- The name as it is written. -/
  text : String
  args : Option (List String)
  deriving DecidableEq, Repr

/-- What encloses an expression. -/
inductive Delimiter where
  | brace
  | bracket
  deriving DecidableEq, Repr

mutual

/-- An expression in braces or brackets. -/
structure DocExpr where
  delimiter : Delimiter
  items : List ExprItem
  /-- What stands between the delimiters, with one blank for each run of layout. -/
  text : String
  span : Span

/-- A piece of an expression. -/
inductive ExprItem where
  | inlineTag (tag : Tag)
  | reference (ref : Reference)
  /-- `#member`. -/
  | hash (ref : Reference)
  /-- A number, or a text without its quotes. -/
  | literal (text : String)
  | nested (expr : DocExpr)
  | punct (text : String)

/-- What a link points at. -/
inductive LinkTarget where
  | url (url : String)
  /-- `#member`. -/
  | hash (ref : Reference)
  | identifier (ref : Reference)
  | expression (expr : DocExpr)
  | missing

/-- The fields that a marker calls for. -/
inductive TagBody where
  | description
  /-- The name and the datatype of a parameter, its default value, and whether it stands in
  brackets. -/
  | param (name : Option Name) (type : Option DocExpr) (default : Option String) (isOptional : Bool)
  | returns (type : Option DocExpr)
  /-- The target, and the target as it is written. -/
  | link (target : LinkTarget) (reference : String)
  | throws (name : Option Name)
  | visibility (value : Visibility)
  /-- None: the marker has no meaning of its own. -/
  | generic

/-- A piece of content. -/
inductive ContentNode where
  | text (text : String)
  | newline
  | brace (expr : DocExpr)
  | bracket (expr : DocExpr)
  /-- `#member`. -/
  | hash (ref : Reference)
  | inlineTag (tag : Tag)
  | literal (text : String)

/-- One tag, or the description in front of the first marker. -/
structure Tag where
  /-- The marker in lower case, without `@`; empty for the description in front. -/
  marker : String
  body : TagBody
  content : List ContentNode
  span : Span

end

instance : Inhabited Tag :=
  ⟨{ marker := "", body := .description, content := [], span := .point .start }⟩

/-- A piece of content in front of others. Two texts side by side become one. -/
def ContentNode.cons : ContentNode → List ContentNode → List ContentNode
  | .text first, .text second :: rest => .text (first ++ second) :: rest
  | node, rest => node :: rest

mutual

/-- The content as it is written, with a tag in it as a reader is shown it. -/
def writtenContent : List ContentNode → String
  | [] => ""
  | .text text :: rest => text ++ writtenContent rest
  | .literal text :: rest => text ++ writtenContent rest
  | .newline :: rest => "\n" ++ writtenContent rest
  | .brace expr :: rest => "\x7b" ++ expr.text ++ "\x7d" ++ writtenContent rest
  | .bracket expr :: rest => "[" ++ expr.text ++ "]" ++ writtenContent rest
  | .hash ref :: rest => "#" ++ ref.text ++ writtenContent rest
  | .inlineTag tag :: rest => tag.displayText ++ writtenContent rest

/-- What a reader is shown for the tag: its content, or the reference of a link without any. -/
def Tag.displayText : Tag → String
  | ⟨_, body, content, _⟩ =>
    let text := String.ofList (Text.tidyLines (writtenContent content).toList)
    match body with
    | .link _ reference => if text = "" then reference else text
    | _ => text

end

/-- The content as plain text, its lines trimmed and no blank lines at its ends. -/
def contentText (content : List ContentNode) : String :=
  String.ofList (Text.tidyLines (writtenContent content).toList)

/-- The tags that stand directly in the content. -/
def inlineTags (content : List ContentNode) : List Tag :=
  content.filterMap fun
    | .inlineTag tag => some tag
    | _ => none

namespace Tag

/-- One word for what the tag is; the marker, if it has no meaning of its own. -/
def kind (t : Tag) : String :=
  match t.body with
  | .description => "description"
  | .param .. => "param"
  | .returns _ => "return"
  | .link .. => "link"
  | .throws _ => "throws"
  | .visibility _ => "visibility"
  | .generic => t.marker

/-- The name of the parameter or the exception that the tag is about. -/
def name? (t : Tag) : Option Name :=
  match t.body with
  | .param name .. => name
  | .throws name => name
  | _ => none

/-- The datatype that the tag gives to a parameter or a result. -/
def type? (t : Tag) : Option DocExpr :=
  match t.body with
  | .param _ type .. => type
  | .returns type => type
  | _ => none

/-- What a link points at. -/
def target? (t : Tag) : Option LinkTarget :=
  match t.body with
  | .link target _ => some target
  | _ => none

/-- The tag is a description. -/
def isDescription (t : Tag) : Bool :=
  match t.body with
  | .description => true
  | _ => false

/-- The content as plain text. -/
def text (t : Tag) : String :=
  contentText t.content

end Tag
end SqlDoc

/-
# The tags of a comment

A tag is a marker, the fields that the marker calls for, and content up to the next tag:

    @param [{type}] name [= default] [-] text
    @param [{type}] [name=default] text
    @return [{type}] text
    @see target text
    @throws name text
    @api word text

Content before the first marker is the description. A tag inside braces ends with its brace.
Nothing in a comment is an error: a brace that is never closed ends with the tag that holds it.

Each program below that can contain itself is given a bound on how deep its calls may go. Every
second call takes a token, so twice the number of tokens is enough.

Key definitions: `TagReader.content`, `TagReader.expression`, `TagReader.tag`, `parseComment`.
-/
import SqlDoc.Doc.Grammar
import SqlDoc.Doc.Reading
import SqlDoc.Doc.Tag

namespace SqlDoc

/-- The text between two equal quotes, or the text itself. -/
def withoutQuotes (text : String) : String :=
  match text.toList with
  | first :: rest =>
    if (first = '"' ∨ first = '\'') ∧ rest.getLast? = some first then String.ofList rest.dropLast
    else text
  | [] => text

/-- The texts of tokens, one after the other. -/
def docText (tokens : List DocToken) : String :=
  tokensText tokens

namespace TagReader

/-! ### Names and values -/

/-- Takes `.name` as often as it comes. Gives what it takes. -/
def qualifiers (s : TagState) : List DocToken × TagState :=
  match _h : s.rest with
  | dot :: name :: rest =>
    if dot.kind = .dot ∧ name.kind = .identifier then
      let (more, s) := qualifiers ((s.pass dot (name :: rest)).pass name rest)
      (dot :: name :: more, s)
    else ([], s)
  | _ => ([], s)
termination_by s.rest.length
decreasing_by
  simp only [TagState.pass, _h, List.length_cons]
  omega

/-- A name with its qualifiers, if one is next. -/
def dottedName : TagReader (Option Name) := do
  match (← get).rest with
  | [] => return none
  | t :: _ =>
    if t.kind ≠ .identifier then return none
    take
    let more ← qualifiers
    return some (.parse (docText (t :: more)))

/-- Takes arguments up to the parenthesis that closes the list, `depth` others being open. Gives
their texts; the first of them is being recorded. -/
def argumentsFrom (depth : Nat) (s : TagState) : List String × TagState :=
  match _h : s.rest with
  | [] =>
    let (text, s) := s.endRecording
    ([text], s)
  | t :: rest =>
    if s.atMarker ∨ (t.kind = .rparen ∧ depth = 0) then
      let (text, s) := s.endRecording
      ([text], s)
    else if t.kind = .comma ∧ depth = 0 then
      let (text, s') := s.endRecording
      let (more, s) := argumentsFrom 0 (s'.pass t rest).beginRecording
      (text :: more, s)
    else
      let depth :=
        match t.kind with
        | .lparen => depth + 1
        | .rparen => depth - 1
        | _ => depth
      argumentsFrom depth (s.pass t rest)
termination_by s.rest.length
decreasing_by all_goals simp [TagState.pass, TagState.beginRecording, _h]

/-- The arguments of a call, at its parenthesis. The commas outside further parentheses separate
them. -/
def arguments : TagReader (List String) := do
  take
  modify TagState.beginRecording
  let texts ← argumentsFrom 0
  takeKind .rparen
  return if texts = [""] then [] else texts

/-- A name, with arguments if a parenthesis follows it. -/
def reference : TagReader Reference := do
  let (name, text) ← recording dottedName
  let args ← if ← at? .lparen then some <$> arguments else pure none
  return { name := name.getD .empty, text, args }

/-- The text up to the next layout. -/
def word : TagReader String :=
  docText <$> takeWhile fun s => !s.kind?.any DocKind.isLayout

/-- Takes the dashes between the name of a parameter and what is said about it. -/
def skipDash : TagReader Unit := do
  skipBlanks
  if (← get).rest.head?.any fun t => t.kind = .text && t.text.toList.all (· = '-') then take

/-- The name of an exception or the code of an error: `NO_DATA_FOUND`, `-20001`, `ORA-01403`. -/
def errorName : TagReader (Option Name) := do
  skipBlanks
  let tokens ← takeWhile fun s =>
    s.kind?.any fun kind => [DocKind.identifier, .number, .text, .dot].contains kind
  let text := Text.dropTrailing (· = '.') (docText tokens).toList
  return if text = [] then none else some (.parse (String.ofList text))

/-! ### The fields of a tag -/

/-- A datatype in braces, if one is next. -/
def typeConstraint (expression : TagReader DocExpr) : TagReader (Option DocExpr) := do
  skipBlanks
  if (← at? .lbrace) && !(← secondIs .tag) then some <$> expression else return none

/-- `[name=default]`, at its bracket. Gives the name and the default value. -/
def bracketedParam : TagReader (Option Name × Option String) := do
  take
  skipBlanks
  let name ← dottedName
  skipBlanks
  let default ← do
    if ← at? .equals then
      take
      let (_, text) ← recording (takeWhile fun s => s.kind? != some .rbracket && !s.atMarker)
      pure (some text)
    else pure none
  takeKind .rbracket
  return (name, default)

/-- `name [= default]`, at the name. Gives the name and the default value. -/
def plainParam : TagReader (Option Name × Option String) := do
  let name ← dottedName
  if (← at? .whitespace) && (← secondIs .equals) then take
  if ← at? .equals then
    take
    skipBlanks
    return (name, some (← word))
  else return (name, none)

/-- The fields of a tag about a parameter. -/
def param (expression : TagReader DocExpr) : TagReader TagBody := do
  let type ← typeConstraint expression
  skipBlanks
  let isOptional ← at? .lbracket
  let (name, default) ←
    if isOptional then bracketedParam
    else if ← at? .identifier then plainParam
    else pure (none, none)
  skipDash
  return .param name type default isOptional

/-- What a link points at. -/
def linkTarget (expression : TagReader DocExpr) : TagReader LinkTarget := do
  match (← get).rest with
  | [] => return .missing
  | t :: _ =>
    match t.kind with
    | .lbrace => .expression <$> expression
    | .url =>
      take
      return .url t.text
    | .hash =>
      if ← secondIs .identifier then
        take
        .hash <$> reference
      else return .missing
    | .identifier => .identifier <$> reference
    | _ => return .missing

/-- The fields of a link. -/
def link (expression : TagReader DocExpr) : TagReader TagBody := do
  skipBlanks
  let (target, text) ← recording (linkTarget expression)
  return .link target text

/-- The visibility after `@api`. -/
def apiVisibility : TagReader Visibility := do
  skipBlanks
  match (← get).rest with
  | [] => return .api ""
  | t :: _ =>
    if t.kind ≠ .identifier then return .api ""
    take
    return .api (Text.lower t.text)

/-- The markers of tags about parameters. -/
def paramMarkers : List String :=
  ["param", "arg", "argument", "field", "property", "prop"]

/-- The markers of links. -/
def linkMarkers : List String :=
  ["see", "seealso", "link", "linkcode", "linkplain", "include", "inheritdoc"]

/-- The fields that a marker calls for. -/
def tagBody (expression : TagReader DocExpr) (marker : String) : TagReader TagBody := do
  if paramMarkers.contains marker then param expression
  else if linkMarkers.contains marker then link expression
  else
    match marker with
    | "description" | "desc" => return .description
    | "return" | "returns" => .returns <$> typeConstraint expression
    | "throws" | "exception" | "raises" => .throws <$> errorName
    | "public" => return .visibility .forAll
    | "private" => return .visibility .forOwner
    | "protected" => return .visibility .forHeirs
    | "internal" => return .visibility .forProject
    | "api" => .visibility <$> apiVisibility
    | _ => return .generic

/-! ### Content -/

/-- Where content stops, short of the next tag. -/
inductive Scope where
  /-- Nowhere. -/
  | block
  /-- At the brace that closes the tag. -/
  | inline
  deriving DecidableEq, Repr

/-- A token of content that stands for itself. -/
def contentToken (scope : Scope) (t : DocToken) : ContentNode :=
  match t.kind with
  | .newline =>
    match scope with
    | .block => .newline
    | .inline => .text " "
  | .string => .literal (withoutQuotes t.text)
  | .escape => .text t.value
  | _ => .text t.text

/-- A token of an expression that stands for itself. -/
def itemToken (t : DocToken) : ExprItem :=
  match t.kind with
  | .string | .number => .literal (withoutQuotes t.text)
  | _ => .punct t.value

mutual

/-- Content up to the next tag, or in an inline tag to its brace. -/
def content : Nat → Scope → TagReader (List ContentNode)
  | 0, _ => pure []
  | n + 1, scope => do
    let s ← get
    match s.rest with
    | [] => return []
    | t :: _ =>
      if s.atMarker ∨ (scope = .inline ∧ t.kind = .rbrace) then return []
      let node ←
        if t.kind = .lbrace ∧ s.secondKind? = some .tag then .inlineTag <$> inlineTag n
        else if t.kind = .lbrace then .brace <$> expression n
        else if t.kind = .lbracket then .bracket <$> expression n
        else if t.kind = .hash ∧ s.secondKind? = some .identifier then
          take
          .hash <$> reference
        else
          take
          pure (contentToken scope t)
      return node.cons (← content n scope)

/-- The items of an expression up to the token that closes it or the next tag. -/
def items : Nat → DocKind → TagReader (List ExprItem)
  | 0, _ => pure []
  | n + 1, close => do
    let s ← get
    match s.rest with
    | [] => return []
    | t :: _ =>
      if t.kind = close ∨ s.atMarker then return []
      if t.kind.isLayout then
        take
        items n close
      else
        let item ←
          if t.kind = .lbrace ∧ s.secondKind? = some .tag then .inlineTag <$> inlineTag n
          else if t.kind = .lbrace ∨ t.kind = .lbracket then .nested <$> expression n
          else if t.kind = .hash ∧ s.secondKind? = some .identifier then
            take
            .hash <$> reference
          else if t.kind = .identifier then .reference <$> reference
          else
            take
            pure (itemToken t)
        return item :: (← items n close)

/-- An expression, at the brace or bracket that opens it. -/
def expression : Nat → TagReader DocExpr
  | 0 => return { delimiter := .brace, items := [], text := "", span := .point (← get).stop }
  | n + 1 => do
    let delimiter := if ← at? .lbracket then Delimiter.bracket else .brace
    let close := if delimiter = .bracket then DocKind.rbracket else .rbrace
    let ((items, text), span) ← spanned do
      take
      let result ← recording (nested (items n close))
      takeKind close
      pure result
    return { delimiter, items, text, span }

/-- A tag in braces, at the brace that opens it. -/
def inlineTag : Nat → TagReader Tag
  | 0 => return default
  | n + 1 => do
    take
    let tag ← nested (tag n .inline)
    takeKind .rbrace
    return tag

/-- A tag, at its marker. -/
def tag : Nat → Scope → TagReader Tag
  | 0, _ => return default
  | n + 1, scope => do
    let marker := (← get).rest.head?.elim "" (·.value)
    let ((body, content), span) ← spanned do
      take
      let body ← tagBody (expression n) marker
      let content ← content n scope
      pure (body, content)
    return { marker, body, content, span }

end

/-- A description without a marker. -/
def description (n : Nat) : TagReader Tag := do
  let (content, span) ← spanned (content n .block)
  return { marker := "", body := .description, content, span }

/-- The next tag of a comment, if there is one more. -/
def nextTag : TagReader (Option Tag) := do
  skipLayout
  let s ← get
  let bound := 2 * (s.rest.length + 1)
  match s.kind? with
  | none => return none
  | some .tag => some <$> tag bound .block
  | some _ => some <$> description bound

/-- At most `n` tags. -/
def tagsUpTo : Nat → TagReader (List Tag)
  | 0 => pure []
  | n + 1 => do
    match ← nextTag with
    | none => return []
    | some tag => return tag :: (← tagsUpTo n)

end TagReader

/-- What a comment says: its tags, and the error that ends its tokens, if there is one. -/
structure Comment where
  tags : List Tag
  error : Option LexError

/-- The tags that tokens make, which begin at a position. Each takes a token, so there are no more
tags than tokens. -/
def readTags (tokens : List DocToken) (start : Position) : List Tag :=
  let tokens := tokens.filter fun t => !t.isTrivia
  ((TagReader.tagsUpTo tokens.length).run { rest := tokens, stop := start }).1

/-- Reads a comment that begins at a position, with its delimiters. -/
def parseComment (text : String) (start : Position := .start) : Comment :=
  let (tokens, error) := lexDoc text start
  { tags := readTags tokens start, error }

end SqlDoc

/-
# Reading the tokens of a comment

Tags are read from the tokens of a comment without its delimiters and decoration. The reader keeps
what decides where the next tag begins: whether it stands at the start of a line, whether layout
was read last, and how many braces and brackets are open. A marker begins a tag at the start of a
line, and after layout if nothing is open.

The reader also keeps recordings. Each holds the text read since it was begun, with one blank for
each run of layout.

Key definitions: `TagState`, `TagState.take`, `TagState.atMarker`, `TagReader`.
Key theorem: `TagState.takeWhile_append`.
-/
import SqlDoc.Doc.Kind
import SqlDoc.Text.Blank

namespace SqlDoc

/-- Where reading has come to in a comment. -/
structure TagState where
  /-- The tokens ahead. -/
  rest : List DocToken
  /-- Nothing but layout since the start of the line. -/
  lineStart : Bool := true
  /-- Layout was read last, or nothing yet. -/
  afterLayout : Bool := true
  /-- How many braces and brackets are open. -/
  depth : Nat := 0
  /-- Where the last token ended. -/
  stop : Position
  /-- The recordings, the one begun last first. -/
  recordings : List (List Char) := []

/-- A recording with one more token. -/
def recordToken (t : DocToken) (text : List Char) : List Char :=
  if t.kind.isLayout then
    if text = [] ∨ text.getLast? = some ' ' then text else text ++ [' ']
  else text ++ t.text.toList

namespace TagState

/-- The state after a token. -/
def pass (s : TagState) (t : DocToken) (rest : List DocToken) : TagState where
  rest
  lineStart := t.kind = .newline || (t.kind = .whitespace && s.lineStart)
  afterLayout := t.kind.isLayout
  depth := s.depth
  stop := t.span.stop
  recordings := s.recordings.map (recordToken t)

/-- Takes the next token, if there is one. -/
def take (s : TagState) : TagState :=
  match s.rest with
  | [] => s
  | t :: rest => s.pass t rest

/-- The kind of the next token. -/
def kind? (s : TagState) : Option DocKind :=
  s.rest.head?.map (·.kind)

/-- The kind of the token after the next. -/
def secondKind? (s : TagState) : Option DocKind :=
  s.rest[1]?.map (·.kind)

/-- A tag begins with the next token. -/
def atMarker (s : TagState) : Bool :=
  (s.lineStart || (s.afterLayout && s.depth == 0)) && s.kind? == some .tag

/-- Where the next token begins, or where the last one ended. -/
def place (s : TagState) : Position :=
  s.rest.head?.elim s.stop (·.span.start)

/-- Takes tokens as long as `p` accepts the state before them. Gives them. -/
def takeWhile (p : TagState → Bool) (s : TagState) : List DocToken × TagState :=
  match _h : s.rest with
  | [] => ([], s)
  | t :: rest =>
    if p s then
      let (more, s) := takeWhile p (s.pass t rest)
      (t :: more, s)
    else ([], s)
termination_by s.rest.length
decreasing_by simp [pass, _h]

/-- Begins a recording. -/
def beginRecording (s : TagState) : TagState :=
  { s with recordings := [] :: s.recordings }

/-- Ends the recording begun last and gives its text, trimmed. -/
def endRecording (s : TagState) : String × TagState :=
  match s.recordings with
  | [] => ("", s)
  | text :: recordings => (String.ofList (Text.trimChars text), { s with recordings })

@[simp] theorem rest_take (s : TagState) : s.take.rest = s.rest.tail := by
  unfold take
  split <;> simp_all [pass]

/-- The tokens taken and those left are all there were. -/
theorem takeWhile_append (p : TagState → Bool) (s : TagState) :
    (s.takeWhile p).1 ++ (s.takeWhile p).2.rest = s.rest := by
  fun_induction takeWhile p s with
  | case1 s h => simp [h]
  | case2 s t rest h hp more s' heq ih =>
    rw [heq] at ih
    simpa [h, pass] using ih
  | case3 s t rest h hp => simp

end TagState

/-- A program that reads tokens of a comment. -/
abbrev TagReader := StateM TagState

namespace TagReader

/-- Takes the next token. -/
def take : TagReader Unit :=
  modify TagState.take

/-- A token of the kind is next. -/
def at? (kind : DocKind) : TagReader Bool :=
  return (← get).kind? == some kind

/-- A token of the kind is the one after the next. -/
def secondIs (kind : DocKind) : TagReader Bool :=
  return (← get).secondKind? == some kind

/-- Takes a token of the kind, if it is next. -/
def takeKind (kind : DocKind) : TagReader Unit := do
  if ← at? kind then take

/-- Takes tokens as long as `p` accepts the state before them. Gives them. -/
def takeWhile (p : TagState → Bool) : TagReader (List DocToken) :=
  fun s => s.takeWhile p

/-- Takes blanks. -/
def skipBlanks : TagReader Unit := do
  let _ ← takeWhile fun s => s.kind? == some .whitespace

/-- Takes blanks and line ends. -/
def skipLayout : TagReader Unit := do
  let _ ← takeWhile fun s => s.kind?.any DocKind.isLayout

/-- Records what a program reads. Gives its result and the text. -/
def recording {α : Type} (program : TagReader α) : TagReader (α × String) := do
  modify TagState.beginRecording
  let result ← program
  let text ← fun s => s.endRecording
  return (result, text)

/-- Carries out a program with one more brace or bracket open. -/
def nested {α : Type} (program : TagReader α) : TagReader α := do
  modify fun s => { s with depth := s.depth + 1 }
  let result ← program
  modify fun s => { s with depth := s.depth - 1 }
  return result

/-- The result of a program and the span of what it reads. -/
def spanned {α : Type} (program : TagReader α) : TagReader (α × Span) := do
  let start := (← get).place
  let result ← program
  return (result, .between start (← get).stop)

end TagReader
end SqlDoc

/-
# Words of the grammar

The small rules that the grammar of statements is written in: questions about the significant
tokens ahead, rules that take a token if it is there or require it, and rules that take a run of
groups without looking at what they say.

A `/` alone on its line ends a statement wherever it stands, so no run crosses it unless a
parenthesis is open.

Key definitions: `GrammarRule.iterate`, `GrammarRule.atTerminator`, `GrammarRule.expectWord`,
`GrammarRule.skipUntil`, `GrammarRule.name`, `GrammarRule.modifier`.
Key theorems: `GrammarRule.iterateUpTo_succ`, `GrammarRule.iterateUpTo_induction`.
-/
import SqlDoc.Syntax.Rule

namespace SqlDoc.GrammarRule

/-! ### Repetition -/

/-- Carries out `step` from one state to the next until it gives none, at most `n` times. Gives the
last state. -/
def iterateUpTo {σ : Type} (step : σ → GrammarRule (Option σ)) : Nat → σ → GrammarRule σ
  | 0, s => done s
  | n + 1, s => do
    match ← step s with
    | none => done s
    | some s => iterateUpTo step n s

/-- Carries out `step` until it gives none. A step that gives a state takes a significant token or
passes one by, so one step more than there are tokens is enough. -/
def iterate {σ : Type} (step : σ → GrammarRule (Option σ)) (s : σ) : GrammarRule σ :=
  remaining fun n => iterateUpTo step (n + 1) s

/-- Carries out `step` as long as it says to go on. -/
def repeatWhile (step : GrammarRule Bool) : GrammarRule Unit :=
  iterate (fun _ => do return if ← step then some () else none) ()

/-- Carries out a rule `n` times. -/
def times : Nat → GrammarRule Unit → GrammarRule Unit
  | 0, _ => done ()
  | n + 1, rule => do
    rule
    times n rule

theorem iterateUpTo_succ {σ : Type} (step : σ → GrammarRule (Option σ)) (n : Nat) (s : σ) :
    iterateUpTo step (n + 1) s =
      (step s).bind fun next => next.elim (done s) (iterateUpTo step n) := by
  change (step s).bind _ = _
  congr 1
  funext next
  cases next <;> rfl

/-- What holds of a rule that only ends, and of a step if it holds of all that may come after it,
holds however often the step is carried out. -/
theorem iterateUpTo_induction {σ : Type} {P : GrammarRule σ → Prop}
    {step : σ → GrammarRule (Option σ)} (hdone : ∀ s, P (done s))
    (hstep : ∀ s (f : Option σ → GrammarRule σ), (∀ next, P (f next)) → P ((step s).bind f))
    (n : Nat) (s : σ) : P (iterateUpTo step n s) := by
  induction n generalizing s with
  | zero => exact hdone s
  | succ n ih =>
    rw [iterateUpTo_succ]
    refine hstep s _ fun next => ?_
    cases next with
    | none => exact hdone s
    | some s => exact ih s

/-! ### Looking ahead -/

/-- The significant token `n` groups ahead, if there is one. -/
def key (n : Nat) : GrammarRule (Option Glance) :=
  look n done

/-- The significant token `n` groups ahead is as asked. -/
def at? (n : Nat) (p : Glance → Bool) : GrammarRule Bool :=
  look n fun seen => done (seen.any p)

/-- No significant token is left. -/
def atEnd : GrammarRule Bool :=
  look 0 fun seen => done seen.isNone

/-- A token of the kind is `n` groups ahead. -/
def atKind (n : Nat) (kind : SqlKind) : GrammarRule Bool :=
  at? n (·.kind = kind)

/-- One of the words, in upper case, is `n` groups ahead. -/
def atAnyWord (n : Nat) (words : List String) : GrammarRule Bool :=
  at? n fun t => t.kind.isWord && words.contains t.value

/-- The word, in upper case, is `n` groups ahead. -/
def atWord (n : Nat) (word : String) : GrammarRule Bool :=
  atAnyWord n [word]

/-- A token that can name a declaration is `n` groups ahead. -/
def atName (n : Nat) : GrammarRule Bool :=
  at? n (·.kind.isName)

/-- The operator is `n` groups ahead. -/
def atOperator (n : Nat) (text : String) : GrammarRule Bool :=
  at? n fun t => t.kind = .operator && t.text = text

/-- The token `n` groups ahead begins a line. -/
def startsLine (n : Nat) : GrammarRule Bool :=
  lineStart n done

/-- A `/` alone on its line is `n` groups ahead. -/
def atTerminator (n : Nat) : GrammarRule Bool :=
  atKind n .slash <&&> startsLine n <&&>
    (look (n + 1) (fun seen => done seen.isNone) <||> startsLine (n + 1))

/-- A `CREATE` that begins a line is `n` groups ahead: the start of a statement, even if the `/`
before it was left out. -/
def atCreate (n : Nat) : GrammarRule Bool :=
  atWord n "CREATE" <&&> startsLine n

/-! ### Taking what is there -/

/-- Takes the next group. -/
def take : GrammarRule Unit :=
  bump (done ())

/-- Takes the next group if `test` says so, and tells whether it did. -/
def takeIf (test : GrammarRule Bool) : GrammarRule Bool := do
  if ← test then
    take
    return true
  else return false

/-- Takes the word, if it is next. -/
def takeWord (word : String) : GrammarRule Bool :=
  takeIf (atWord 0 word)

/-- Takes a token of the kind, if it is next. -/
def takeKind (kind : SqlKind) : GrammarRule Bool :=
  takeIf (atKind 0 kind)

/-- Requires the word. -/
def expectWord (word : String) : GrammarRule Unit := do
  unless ← takeWord word do missing s!"`{word}`"

/-- Requires a token of the kind, which an error calls `what`. -/
def expectKind (kind : SqlKind) (what : String) : GrammarRule Unit := do
  unless ← takeKind kind do missing what

/-- Requires a `;`. -/
def expectSemicolon : GrammarRule Unit :=
  expectKind .semicolon "`;`"

/-- Requires `IS` or `AS`. -/
def expectIsOrAs : GrammarRule Unit := do
  unless ← takeWord "IS" <||> takeWord "AS" do missing "`IS` or `AS`"

/-- A node that holds the next group. -/
def leaf (kind : NodeKind) : GrammarRule Unit :=
  node kind take done

/-! ### Taking runs -/

/-- How many parentheses are open after a token, if `depth` are open before it. -/
def depthAfter (depth : Nat) (kind : SqlKind) : Nat :=
  match kind with
  | .lparen => depth + 1
  | .rparen => depth - 1
  | _ => depth

/-- Takes an argument list with the lists in it, if one is next. -/
def skipParens : GrammarRule Unit := do
  if ← atKind 0 .lparen then
    let _ ← iterate (fun depth => do
      match ← key 0 with
      | none => return none
      | some t =>
        take
        let depth := depthAfter depth t.kind
        return if depth = 0 then none else some depth) 0

/-- Takes groups up to a token that `stop` accepts outside parentheses, a parenthesis that closes
none, or a `/` alone on its line. -/
def skipUntil (stop : SqlKind → Bool) : GrammarRule Unit := do
  let _ ← iterate (fun depth => do
    if ← atTerminator 0 then return none
    match ← key 0 with
    | none => return none
    | some t =>
      if depth = 0 ∧ (stop t.kind ∨ t.kind = .rparen) then return none
      take
      return some (depthAfter depth t.kind)) 0

/-- Takes groups up to a `;`, as `skipUntil` does. -/
def skipToSemicolon : GrammarRule Unit :=
  skipUntil (· = .semicolon)

/-- Takes groups through the next `;`. -/
def skipStatement : GrammarRule Unit := do
  skipToSemicolon
  let _ ← takeKind .semicolon

/-- Takes groups up to a `/` alone on its line, a `CREATE` that begins a line or the end. -/
def skipToTerminator : GrammarRule Unit :=
  repeatWhile do
    if ← atEnd <||> atTerminator 0 <||> atCreate 0 then return false
    take
    return true

/-- Takes the next group and all that follow it on its line. -/
def skipLine : GrammarRule Unit := do
  take
  repeatWhile do
    if ← atEnd <||> startsLine 0 then return false
    take
    return true

/-! ### Names -/

/-- Takes the next group as one more part of a name. -/
def namePart (name : Name) : GrammarRule Name :=
  look 0 fun seen => bump (done (seen.elim name (name.push ·.value)))

/-- A name with its qualifiers, such as `schema.pkg` or `"Mixed".x`. -/
def name : GrammarRule Name := do
  unless ← atName 0 do missing "a name"
  iterate (fun name => do
    if ← atKind 0 .dot <&&> atName 1 then
      take
      some <$> namePart name
    else return none) (← namePart .empty)

/-- A name with its qualifiers, as a node. -/
def identifier : GrammarRule Name :=
  node .identifier (do
    let n ← name
    setName n (done n)) done

/-- Names the open node after an identifier. -/
def declaredName : GrammarRule Unit := do
  setName (← identifier) (done ())

/-- A node for a modifier, named for its first word, or for its first two if the first is `NOT`. -/
def modifier (inside : GrammarRule Unit) : GrammarRule Unit :=
  node .modifier (do
    if let some first ← key 0 then
      let label :=
        match ← key 1 with
        | some second => if first.value = "NOT" then s!"NOT {second.value}" else first.value
        | none => first.value
      setName ⟨[label]⟩ (done ())
    inside) done

end SqlDoc.GrammarRule

/-
# Patterns

A pattern describes pieces of text: characters of a set, one piece after another, a choice of two,
and a piece once or more. Choices are ordered. Of the pieces that a pattern describes at a place,
the match is the one reached first when every choice is tried from the left: a greedy repetition
tries another turn first, a lazy one tries to stop first.

A match is looked for with a cursor and a continuation, which says what has to follow. A repetition
goes on only after a turn that moved the cursor, so every search ends. A search may try many ways
through a pattern one after the other, so these patterns are for the rules of a fixed grammar, where
the next character tells the ways apart.

Key definitions: `Pattern`, `Pattern.run`, `Pattern.matchAt?`.
-/
import SqlDoc.Pattern.Cursor

namespace SqlDoc

/-- A description of pieces of text, with an order among them. -/
inductive Pattern where
  /-- The empty piece. -/
  | empty
  /-- One character of the set. -/
  | set (s : CharSet)
  /-- One piece and then another. -/
  | seq (p q : Pattern)
  /-- A piece of the first pattern, or else one of the second. -/
  | alt (p q : Pattern)
  /-- One piece or several in a row, as many as possible if `greedy` and else as few. -/
  | plus (greedy : Bool) (p : Pattern)
  deriving DecidableEq, Repr

namespace Pattern

variable {text : List Char} {β : Type}

/-- The first result of two searches, the second made only if the first finds nothing. -/
@[inline] def orElse (a : Option β) (b : Unit → Option β) : Option β :=
  match a with
  | some x => some x
  | none => b ()

/-- Goes on with a repetition after a turn that moved the cursor: another turn of `step`, or what
follows the repetition. -/
def again (step : Cursor text → (Cursor text → Option β) → Option β) (greedy : Bool)
    (follow : Cursor text → Option β) (cur : Cursor text) : Option β :=
  let turn := fun (_ : Unit) => step cur fun next =>
    if cur.seen < next.seen then again step greedy follow next else none
  if greedy then orElse (turn ()) fun _ => follow cur
  else orElse (follow cur) turn
termination_by text.length - cur.seen
decreasing_by
  have := next.seen_le
  omega

/-- Looks for a match at the cursor that `follow` can continue, and gives what that finds. -/
def run : Pattern → Cursor text → (Cursor text → Option β) → Option β
  | empty, cur, follow => follow cur
  | set s, cur, follow => (cur.next? s).bind follow
  | seq p q, cur, follow => p.run cur fun mid => q.run mid follow
  | alt p q, cur, follow => orElse (p.run cur follow) fun _ => q.run cur follow
  | plus greedy p, cur, follow =>
    p.run cur fun next =>
      if cur.seen < next.seen then again p.run greedy follow next else follow next

/-- Where the match at the cursor ends, if there is one. -/
def matchAt? (p : Pattern) (cur : Cursor text) : Option (Cursor text) :=
  p.run cur some

/-! ### Patterns made of others -/

/-- Pieces of all the patterns, in order. -/
def concat : List Pattern → Pattern
  | [] => empty
  | [p] => p
  | p :: ps => seq p (concat ps)

/-- A piece of the first of the patterns that matches. -/
def choice : List Pattern → Pattern
  | [] => set .none
  | [p] => p
  | p :: ps => alt p (choice ps)

/-- The pattern or nothing. -/
def opt (p : Pattern) (greedy : Bool := true) : Pattern :=
  if greedy then alt p empty else alt empty p

/-- The pattern any number of times. -/
def star (p : Pattern) (greedy : Bool := true) : Pattern :=
  opt (plus greedy p) greedy

/-- The pattern once or more. -/
def many (p : Pattern) (greedy : Bool := true) : Pattern :=
  plus greedy p

/-- The characters of a text, one after the other. -/
def literal (text : String) : Pattern :=
  concat (text.toList.map fun c => set (.single c))

/-- One of the characters of a text. -/
def oneOf (text : String) : Pattern :=
  set (.ofList text.toList)

/-- One character that is none of those of a text. -/
def noneOf (text : String) : Pattern :=
  set (.compl (.ofList text.toList))

end Pattern
end SqlDoc

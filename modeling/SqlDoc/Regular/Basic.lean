/-
# Regular expressions

A regular expression describes pieces of text like a pattern of a fixed grammar, and may also ask
for a condition on a place and count the turns of a repetition. It is kept in a normal form, in
which there is one way to write what is read one after the other and what is a choice:

* a sequence holds no sequence and no empty piece, and of two neighbours in it one is no literal;
* a choice holds no choice; one of single characters or of sets is a set, and where all branches
  begin with the same pieces, these stand before the choice;
* a repetition of what reads nothing takes one turn at most, and one of exactly one turn is gone.

The functions that put expressions together keep this form. It counts: how much room an expression
may take, and which of two ways through a choice comes first, are said of the normal form.

Key definitions: `Assertion`, `Regular`, `Regular.sequence`, `Regular.choice`,
`Regular.repetition`.
-/
import SqlDoc.Pattern.Cursor

namespace SqlDoc

/-- A condition on the place between two characters. -/
inductive Assertion where
  /-- Nothing lies before it. -/
  | textStart
  /-- Nothing lies after it. -/
  | textEnd
  /-- A line begins there. -/
  | lineStart
  /-- A line ends there. -/
  | lineEnd
  /-- A word begins or ends there. -/
  | wordBoundary
  /-- No word begins or ends there. -/
  | notWordBoundary
  /-- A word begins there. -/
  | wordStart
  /-- A word ends there. -/
  | wordEnd
  deriving DecidableEq, Repr

namespace Assertion

/-- The character is there and is a word character. -/
def isWord (c : Option Char) : Bool :=
  c.any Text.isWordChar

/-- The condition holds at the cursor. -/
def holds {text : List Char} (cur : Cursor text) : Assertion → Bool
  | textStart => cur.seen == 0
  | textEnd => cur.rest.isEmpty
  | lineStart => cur.previous.all (· == '\n')
  | lineEnd => cur.rest.head?.all (· == '\n')
  | wordBoundary => isWord cur.previous != isWord cur.rest.head?
  | notWordBoundary => isWord cur.previous == isWord cur.rest.head?
  | wordStart => !isWord cur.previous && isWord cur.rest.head?
  | wordEnd => isWord cur.previous && !isWord cur.rest.head?

/-- The condition is about the character that follows. -/
def looksAhead : Assertion → Bool
  | textStart | lineStart => false
  | textEnd | lineEnd | wordBoundary | notWordBoundary | wordStart | wordEnd => true

/-- The condition is about words. -/
def isOfWords : Assertion → Bool
  | textStart | lineStart | textEnd | lineEnd => false
  | wordBoundary | notWordBoundary | wordStart | wordEnd => true

end Assertion

/-- A description of pieces of text, with an order among them. -/
inductive Regular where
  /-- The empty piece. -/
  | empty
  /-- The characters, one after the other. There is at least one. -/
  | literal (text : List Char)
  /-- One character of the set. -/
  | set (s : Text.Ranges)
  /-- The empty piece, where the condition holds. -/
  | assert (a : Assertion)
  /-- A piece of the expression in a pair of parentheses. The place tells the pairs apart. -/
  | group (place : Nat) (p : Regular)
  /-- Pieces in a row, `least` to `most` of them or without bound, as many as possible if `greedy`
  and else as few. -/
  | repeated (least : Nat) (most : Option Nat) (greedy : Bool) (p : Regular)
  /-- One piece and then another. -/
  | seq (p q : Regular)
  /-- A piece of the first expression, or else one of the second. -/
  | alt (p q : Regular)
  deriving DecidableEq, Repr

namespace Regular

/-! ### What the pieces have in common -/

/-- The length of the shortest piece, unless some part of the expression has no piece at all. -/
def leastLength? : Regular → Option Nat
  | empty | assert _ => some 0
  | literal text => some text.length
  | set s => if s.isEmpty then none else some 1
  | group _ p => p.leastLength?
  | repeated least _ _ p => p.leastLength?.map (least * ·)
  | seq p q => do return (← p.leastLength?) + (← q.leastLength?)
  | alt p q => do return min (← p.leastLength?) (← q.leastLength?)

/-- Every piece is known to have a character. -/
def mustRead (p : Regular) : Bool :=
  p.leastLength?.any (0 < ·)

/-- Every piece is known to be empty. -/
def readsNothing : Regular → Bool
  | empty | assert _ => true
  | literal _ | set _ => false
  | group _ p => p.readsNothing
  | repeated _ most _ p => most.isSome && p.readsNothing
  | seq p q | alt p q => p.readsNothing && q.readsNothing

/-- Every piece is known to begin at a place where the condition holds. -/
def beginsAt (a : Assertion) : Regular → Bool
  | assert b => b == a
  | group _ p => p.beginsAt a
  | repeated least _ _ p => least != 0 && p.beginsAt a
  | seq p q => p.beginsAt a || (p.readsNothing && q.beginsAt a)
  | alt p q => p.beginsAt a && q.beginsAt a
  | empty | literal _ | set _ => false

/-- Every piece is known to end at a place where the condition holds. -/
def endsAt (a : Assertion) : Regular → Bool
  | assert b => b == a
  | group _ p => p.endsAt a
  | repeated least _ _ p => least != 0 && p.endsAt a
  | seq p q => q.endsAt a || (q.readsNothing && p.endsAt a)
  | alt p q => p.endsAt a && q.endsAt a
  | empty | literal _ | set _ => false

/-! ### Sets and sequences -/

/-- One character of the set. A set of one character is a literal. -/
def ofSet (s : Text.Ranges) : Regular :=
  match s with
  | [(first, last)] => if first = last then literal [Char.ofNat first] else set s
  | _ => set s

/-- One character of the set, as it is written. -/
def ofCharSet (s : CharSet) : Regular :=
  ofSet s.ranges

/-- The pieces that the expression reads one after the other. -/
def factors : Regular → List Regular
  | empty => []
  | seq p q => p :: q.factors
  | p => [p]

/-- The expression with the given factors. -/
def ofFactors : List Regular → Regular
  | [] => empty
  | [p] => p
  | p :: ps => seq p (ofFactors ps)

/-- One more factor at the front. Neighbouring literals become one. -/
def consFactor (p : Regular) (ps : List Regular) : List Regular :=
  match p, ps with
  | literal a, literal b :: ps => literal (a ++ b) :: ps
  | p, ps => p :: ps

/-- The expressions, one after the other. -/
def sequence (ps : List Regular) : Regular :=
  ofFactors ((ps.flatMap factors).foldr consFactor [])

/-! ### Repetitions -/

/-- The expression a number of times. What reads nothing is read once at most, since more turns
read nothing either. -/
def repetition (least : Nat) (most : Option Nat) (greedy : Bool) (p : Regular) : Regular :=
  let (least, most) :=
    if p.readsNothing then (min least 1, some (most.elim 1 (min · 1))) else (least, most)
  if most = some 0 then empty
  else if least = 1 ∧ most = some 1 then p
  else repeated least most greedy p

/-! ### Choices -/

/-- The expressions that it is a choice of. -/
def branches : Regular → List Regular
  | alt p q => p :: q.branches
  | p => [p]

/-- The choice of the given branches. -/
def ofBranches : List Regular → Regular
  | [] => set []
  | [p] => p
  | p :: ps => alt p (ofBranches ps)

/-- The one character that the expression reads, if it is a literal of one character. -/
def char? : Regular → Option Char
  | literal [c] => some c
  | _ => none

/-- The set whose characters the expression reads. -/
def set? : Regular → Option Text.Ranges
  | set s => some s
  | _ => none

/-- The expression is a sequence of at least two factors. -/
def isSequence : Regular → Bool
  | seq _ _ => true
  | _ => false

/-- The longest list that both begin with. -/
def commonPrefix {α : Type} [DecidableEq α] : List α → List α → List α
  | a :: as, b :: bs => if a = b then a :: commonPrefix as bs else []
  | _, _ => []

/-- The factors that all the branches begin with, where every branch is a sequence. -/
def sharedFactors : List Regular → List Regular
  | [] => []
  | p :: ps =>
    if (p :: ps).all isSequence then
      ps.foldl (fun shared q => commonPrefix shared q.factors) p.factors
    else []

/-- The number of expressions that it is made of. -/
def weight : Regular → Nat
  | empty | literal _ | set _ | assert _ => 1
  | group _ p | repeated _ _ _ p => p.weight + 1
  | seq p q | alt p q => p.weight + q.weight + 1

/-- The sum of the numbers. -/
def total : List Nat → Nat
  | [] => 0
  | n :: ns => n + total ns

/-- A choice of the expressions, in this order. Each time that shared factors are taken out of the
branches, these lose weight, so `fuel` as large as their weight is enough. -/
def choiceWith : Nat → List Regular → Regular
  | fuel, ps =>
    let bs := ps.flatMap branches
    match bs, bs.mapM char?, bs.mapM set? with
    | [p], _, _ => p
    | _, some chars, _ => ofSet (.ofPoints (chars.map Char.toNat))
    | _, none, some sets => ofSet (sets.foldl Text.Ranges.union [])
    | _, none, none =>
      match fuel, sharedFactors bs with
      | 0, _ | _, [] => ofBranches bs
      | fuel + 1, shared =>
        sequence (shared ++ [choiceWith fuel (bs.map fun p =>
          sequence (p.factors.drop shared.length))])

/-- A choice of the expressions: a piece of the first that leads to a match. -/
def choice (ps : List Regular) : Regular :=
  choiceWith (total (ps.map weight)) ps

end Regular
end SqlDoc

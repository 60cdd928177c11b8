/-
# Automata

An automaton for a regular expression is a list of nodes. A node reads a character, tests a
condition, chooses between two ways on, or accepts. Repetitions are written out, and one without
bound is a choice that leads back to its own turn.

A search reads the text once. It keeps the ways through the automaton in the order of their choices;
from each the nodes behind it are visited in this order too, every node once at a place, so that a
way round through empty turns leads nowhere new. The first way that accepts cuts off all ways that
come after it, but those before it go on. What is left in the end is the match that trying the ways
one after the other would find first, and no text makes the search slow.

The ways at a place are found in two steps, as `Timing` says, and this can show in their order.

Key definitions: `Automaton`, `Automaton.ofRegular`, `Automaton.visit`, `Automaton.waysAt`,
`Automaton.find?`.
-/
import Std.Data.HashSet.Lemmas
import SqlDoc.Regular.Basic

namespace SqlDoc

/-- A node of an automaton. Other nodes are named by their number. -/
inductive Node where
  /-- Reads a character of the set. -/
  | read (s : Text.Ranges) (next : Nat)
  /-- Goes on where the condition holds. -/
  | test (a : Assertion) (next : Nat)
  /-- Goes on in two ways, the first of which is preferred. -/
  | split (first second : Nat)
  /-- The piece of text is complete. -/
  | accept
  deriving Repr

/-- A list of nodes, one of which is where a match begins. -/
structure Automaton where
  nodes : Array Node
  start : Nat
  /-- Matches begin at the start of a text only. -/
  isAnchored : Bool
  /-- A node asks where words begin or end. -/
  asksForWords : Bool

namespace Automaton

/-! ### Building an automaton -/

/-- A step of building, which adds nodes at the end. -/
abbrev Build := StateM (Array Node)

/-- Adds a node and gives its number. -/
def add (node : Node) : Build Nat :=
  modifyGet fun nodes => (nodes.size, nodes.push node)

/-- Changes a node. -/
def put (n : Nat) (node : Node) : Build Unit :=
  modify fun nodes => nodes.setIfInBounds n node

/-- A choice between another turn and what follows. -/
def turnOr (greedy : Bool) (turn follow : Nat) : Node :=
  if greedy then .split turn follow else .split follow turn

/-- Makes a step a number of times, each time with the number that the last one gave. -/
def times (step : Nat → Build Nat) : Nat → Nat → Build Nat
  | 0, next => pure next
  | n + 1, next => do times step n (← step next)

/-- The nodes of a repetition without bound that has a turn at least: a choice stands behind the
turn. Gives the number of the turn and that of the choice. -/
def loop (turn : Nat → Build Nat) (greedy : Bool) (next : Nat) : Build (Nat × Nat) := do
  let choice ← add .accept
  let first ← turn choice
  put choice (turnOr greedy first next)
  return (first, choice)

/-- Adds the nodes of an expression in front of the node `next`, and gives the number of the first.
A repetition that may take no turn begins with a choice. That is the choice behind its turn, but
where a turn may be empty it is another one. -/
def build : Regular → Nat → Build Nat
  | .empty, next => pure next
  | .literal text, next =>
    text.reverse.foldlM (fun next c => add (.read [(c.toNat, c.toNat)] next)) next
  | .set s, next => add (.read s next)
  | .assert a, next => add (.test a next)
  | .group _ p, next => build p next
  | .seq p q, next => do build p (← build q next)
  | .alt p q, next => do
    let first ← build p next
    let second ← build q next
    add (.split first second)
  | .repeated least (some most) greedy p, next => do
    let optional ← times (fun follow => do
      let turn ← build p follow
      add (turnOr greedy turn next)) (most - least) next
    times (build p) least optional
  | .repeated least none greedy p, next => do
    let (turn, choice) ← loop (build p) greedy next
    match least with
    | 0 => if p.mustRead then return choice else add (turnOr greedy turn next)
    | least + 1 => times (build p) least turn

/-- The automaton of an expression. -/
def ofRegular (p : Regular) : Automaton :=
  let (start, nodes) := build p 0 #[.accept]
  { nodes, start
    isAnchored := p.beginsAt .textStart
    asksForWords := nodes.any fun
      | .test condition _ => condition.isOfWords
      | _ => false }

/-! ### Searching -/

/-- When the conditions at a place are tested. -/
inductive Timing where
  /-- Each when a way comes to it. -/
  | atOnce
  /-- Those on what has been read when a way comes to them, and those on what follows when the next
  character is known. If one of the latter holds, all ways are followed once more from the nodes
  that were found. The nodes passed on the way to these are forgotten by then, so a way may come
  round to a choice again, and what it finds there precedes what stands behind it. -/
  | inSteps
  deriving DecidableEq, Repr

variable {text : List Char} (a : Automaton)

/-- The nodes that have been visited at a place, and those of them that do not just lead on, last
first. -/
structure Visit where
  visited : Std.HashSet Nat := ∅
  kept : List Nat := []

/-- Visits the nodes of a stack and those behind them, in order. A way passes a condition that is
known to hold. No more nodes are visited than there are. -/
def visit (known : Assertion → Bool) (stack : List Nat) (v : Visit) : Visit :=
  match stack with
  | [] => v
  | n :: stack =>
    if _h : n ∈ v.visited ∨ a.nodes.size ≤ v.visited.size then visit known stack v
    else
      let visited := v.visited.insert n
      match a.nodes[n]? with
      | some (.split first second) => visit known (first :: second :: stack) { v with visited }
      | some (.test condition next) =>
        visit known (if known condition then next :: stack else stack)
          { visited, kept := n :: v.kept }
      | some (.read ..) | some .accept => visit known stack { visited, kept := n :: v.kept }
      | none => visit known stack { v with visited }
termination_by (a.nodes.size - v.visited.size, stack.length)
decreasing_by
  · exact Prod.Lex.right _ (Nat.lt_succ_self _)
  all_goals
    obtain ⟨hnew, _⟩ := not_or.1 _h
    apply Prod.Lex.left
    simp only [Std.HashSet.size_insert, hnew, if_false]
    omega

/-- The nodes behind those given that do not just lead on, in order. -/
def closure (known : Assertion → Bool) (nodes : List Nat) : List Nat :=
  (a.visit known nodes {}).kept.reverse

/-- The node tests a condition on what follows, and it holds at the cursor. -/
def looksAheadAt (cur : Cursor text) (n : Nat) : Bool :=
  match a.nodes[n]? with
  | some (.test condition _) => condition.looksAhead && condition.holds cur
  | _ => false

/-- The nodes that the ways have come to at the cursor, in order. Behind the last character they
were at `threads`. -/
def waysAt (timing : Timing) (cur : Cursor text) (threads : List Nat) : List Nat :=
  match timing with
  | .atOnce => a.closure (·.holds cur) threads
  | .inSteps =>
    let ways := a.closure (fun condition => !condition.looksAhead && condition.holds cur) threads
    if ways.any (a.looksAheadAt cur) then a.closure (·.holds cur) ways else ways

/-- The node accepts. -/
def accepts (n : Nat) : Bool :=
  match a.nodes[n]? with
  | some .accept => true
  | _ => false

/-- The node behind one that reads the character. -/
def after? (c : Char) (n : Nat) : Option Nat :=
  match a.nodes[n]? with
  | some (.read s next) => if s.contains c then some next else none
  | _ => none

/-- Where the match ends that the nodes `threads` lead to, with `best` as the end of the match found
so far. While there is none, a match may also begin at the cursor, unless all begin at the start of
the text.

Conditions on words are tested in steps in ASCII text only: once another character is met, the
search begins anew and tests every condition at once. -/
def runFrom? (timing : Timing) (cur : Cursor text) (threads : List Nat)
    (best : Option (Cursor text)) : Option (Cursor text) :=
  let begins := !a.isAnchored && best.isNone
  let ways := a.waysAt timing cur (if begins then threads ++ [a.start] else threads)
  let goesOn := begins || !ways.isEmpty
  let ended := best.any (·.seen + 1 = cur.seen)
  let best := if ways.any a.accepts then some cur else best
  match _h : cur.next? .any with
  | none => best
  | some next =>
    let c := next.previous.getD '\n'
    if timing = .inSteps ∧ a.asksForWords ∧ 0x80 ≤ c.toNat ∧ (goesOn ∨ ended) then
      runFrom? .atOnce (.start text) (if a.isAnchored then [a.start] else []) none
    else if goesOn then
      runFrom? timing next ((ways.takeWhile (!a.accepts ·)).filterMap (a.after? c)) best
    else best
termination_by (if timing = .inSteps then 1 else 0, text.length - cur.seen)
decreasing_by
  · rename_i h
    apply Prod.Lex.left
    simp [h.1]
  · have h := Cursor.seen_of_next? _h
    have := next.seen_le
    apply Prod.Lex.right
    omega

/-- Where the first match in the text ends, if there is one. -/
def find? (text : List Char) : Option (Cursor text) :=
  a.runFrom? .inSteps (.start text) (if a.isAnchored then [a.start] else []) none

/-- The text has a match somewhere. -/
def occursIn (text : List Char) : Bool :=
  (a.find? text).isSome

end Automaton
end SqlDoc

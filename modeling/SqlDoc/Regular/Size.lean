/-
# The room that a regular expression takes

An automaton for an expression has a state for each byte of a literal, a few for a set, and one or
two for a choice, a repetition or a pair of parentheses; what is repeated is written out. The room
it takes is counted here without building it. Two automata are counted, one that reads a text
forward and one that reads it backward, and an expression for which either of them takes more than
ten mebibytes is too large to be used.

A state takes 32 bytes, each way out of a state that reads one of several bytes 8 more, and each
way out of a choice 4 more.

Key definitions: `Direction`, `Regular.size`, `Regular.totalSize`, `Regular.isTooLarge`.
-/
import Std.Data.HashSet
import SqlDoc.Regular.Basic
import SqlDoc.Text.Utf8

namespace SqlDoc

/-- The way an automaton reads a text. -/
inductive Direction where
  | forward
  /-- From the last byte to the first. Parentheses take no room. -/
  | backward
  deriving DecidableEq, Repr

namespace Regular

open Text (ByteSequence)

/-- The room of a state. -/
def stateSize : Nat := 32

/-- The room of a choice of `n` ways on. -/
def choiceSize (n : Nat) : Nat :=
  stateSize + 4 * n

/-- The room of a state that reads one of `n` ranges of bytes. -/
def readSize (n : Nat) : Nat :=
  stateSize + 8 * n

/-! ### Sets -/

/-- What follows each first range of the sequences. Neighbours that begin with one range stand
together. -/
def tails (sequences : List ByteSequence) : List (List ByteSequence) :=
  (sequences.splitBy fun s t => s.head? == t.head?).map fun group => group.map List.tail

/-- What can be left of the sequences when a part of one has been read, once for each such part, as
far as something is left. `depth` bounds their length. -/
def remainders : Nat → List ByteSequence → List (List ByteSequence)
  | 0, _ => []
  | depth + 1, sequences =>
    match sequences.filter (!·.isEmpty) with
    | [] => []
    | sequences => sequences :: (tails sequences).flatMap (remainders depth)

/-- The room of a set. Only where it has characters beyond ASCII does it take several states: read
forward, one for each way to go on, which is shared by all places that go on this way; read
backward, one for each range of a sequence that does not begin like the one before it. -/
def setSize (d : Direction) (s : Text.Ranges) : Nat :=
  if s.all fun range => range.2 < 0x80 then stateSize + readSize s.length
  else
    let sequences := s.flatMap Text.byteSequences
    let states := remainders 4 sequences
    match d with
    | .forward =>
      let shared := states.foldl (fun set state => set.insert state) (∅ : Std.HashSet _)
      stateSize + total (shared.toList.map fun state => readSize (tails state).length)
    | .backward =>
      stateSize + choiceSize sequences.length
        + stateSize * total (states.map fun state => (tails state).length)

/-! ### Literals -/

/-- The bytes of a literal, in the order in which they are read. -/
def bytes (d : Direction) (text : List Char) : List Nat :=
  let read := text.flatMap fun c => Text.encode c.toNat
  match d with
  | .forward => read
  | .backward => read.reverse

/-- The text of a literal. -/
def text? : Regular → Option (List Char)
  | literal text => some text
  | _ => none

/-- Splits words at the empty ones, which are left out. -/
def segments : List (List Nat) → List (List (List Nat))
  | [] => [[]]
  | [] :: words => [] :: segments words
  | word :: words =>
    match segments words with
    | segment :: more => (word :: segment) :: more
    | [] => [[word]]

/-- The words of a segment without their first bytes, those with one first byte together, in the
order in which the bytes are met. -/
def wordTails (segment : List (List Nat)) : List (List (List Nat)) :=
  (segment.filterMap List.head?).eraseDups.map fun b =>
    segment.filterMap fun word => if word.head? = some b then some word.tail else none

/-- The room of a tree that reads one of several words, of which the first that fits is taken. The
words that begin with one byte share a branch, unless a word that ends comes between them. `depth`
bounds the length of the words. -/
def treeSize : Nat → List (List Nat) → Nat
  | 0, _ => 0
  | depth + 1, words =>
    let parts :=
      match segments words with
      | [] :: more => [] :: more.dropWhile List.isEmpty
      | parts => parts
    let used := parts.filter (!·.isEmpty)
    let here := used.map fun segment =>
      let n := (wordTails segment).length
      if n = 1 then stateSize else readSize n
    let below := used.flatMap wordTails |>.map fun words =>
      if words.all List.isEmpty then 0 else treeSize depth words
    total here + choiceSize (used.length + parts.length - 1) + total below

/-- The room of a choice of literals. -/
def literalsSize (d : Direction) (texts : List (List Char)) : Nat :=
  let words := texts.map (bytes d)
  stateSize + treeSize ((words.map List.length).foldl max 0 + 1) words

/-! ### Expressions -/

/-- The room of a repetition, where one turn takes `turn`. A turn that may be empty costs one more
state when it is repeated without bound. -/
def repeatedSize (least : Nat) (most : Option Nat) (mustRead : Bool) (turn : Nat) : Nat :=
  match least, most with
  | 0, none =>
    if mustRead then choiceSize 2 + turn else 2 * choiceSize 2 + stateSize + turn
  | least, none => least * turn + choiceSize 2
  | 0, some 1 => choiceSize 2 + turn + stateSize
  | least, some most =>
    let first := if least = 0 then stateSize else least * turn
    if least = most then first
    else first + stateSize + (most - least) * (choiceSize 2 + turn)

/-- The room of an expression. With `inner` it is the rest of a choice, whose own room has been
counted. -/
def sizeIn (d : Direction) : Bool → Regular → Nat
  | inner, alt p q =>
    let ways := 4 + sizeIn d false p + sizeIn d true q
    if inner then ways
    else ((alt p q).branches.mapM text?).elim (2 * stateSize + ways) (literalsSize d)
  | inner, empty | inner, assert _ => (if inner then 4 else 0) + stateSize
  | inner, literal text => (if inner then 4 else 0) + stateSize * (bytes d text).length
  | inner, set s => (if inner then 4 else 0) + setSize d s
  | inner, group _ p =>
    (if inner then 4 else 0) + (if d = .forward then 2 * stateSize else 0) + sizeIn d false p
  | inner, repeated least most _ p =>
    (if inner then 4 else 0) + repeatedSize least most p.mustRead (sizeIn d false p)
  | inner, seq p q => (if inner then 4 else 0) + sizeIn d false p + sizeIn d false q

/-- The room of an expression. -/
def size (d : Direction) (p : Regular) : Nat :=
  sizeIn d false p

/-- The room before the expression: one state if every match begins where the reading does, and else
a loop that passes over any byte. -/
def leadSize (pinned : Bool) : Nat :=
  if pinned then stateSize else choiceSize 2 + readSize 1 + stateSize

/-- The room of the whole automaton. -/
def totalSize (p : Regular) : Direction → Nat
  | .forward => leadSize (p.beginsAt .textStart) + (group 0 p).size .forward + stateSize
  | .backward => leadSize (p.endsAt .textEnd) + (group 0 p).size .backward + stateSize

/-- The room that an automaton may take: ten mebibytes. -/
def sizeLimit : Nat := 10485760

/-- An automaton for the expression would take more room than there is. -/
def isTooLarge (p : Regular) : Bool :=
  sizeLimit < p.totalSize .forward || sizeLimit < p.totalSize .backward

end Regular
end SqlDoc

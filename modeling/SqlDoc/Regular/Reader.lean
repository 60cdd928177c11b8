/-
# Regular expressions as text

The usual notation for regular expressions: literals, `.`, classes in brackets with ranges,
negation, nesting and the operators `&&`, `--` and `~~`, escapes, `|`, the repetitions `*`, `+`,
`?`, `{n}`, `{n,}` and `{n,m}` with a `?` after them for the lazy form, groups, and the flags `i`
(ignore case), `s` (`.` matches line feeds), `m` (`^` and `$` match at lines) and `U` (greedy and
lazy change places). Look-around and references back to a group are no part of it.

One pass reads the text. A group that is open is kept on a stack; each step of the pass reads at
least one character, so the number of characters bounds the steps. The pass counts the levels of
what it reads. There is a bound on the levels of an expression and one on the room it takes.

Key definitions: `Regular.ReadError`, `Regular.read`.
-/
import SqlDoc.Regular.Size
import SqlDoc.Text.Lower

namespace SqlDoc.Regular

/-- Why a text is no regular expression. -/
inductive ReadError where
  | unclosedGroup
  | unopenedGroup
  | unclosedClass
  | unclosedRepetition
  | unexpectedEnd
  | missingOperand
  | invalidRepetition
  | invalidClassItem
  | invalidRange
  | lookAround
  | backReference
  | unknownEscape
  | unknownFlag
  | unknownProperty
  | tooDeep
  | tooLarge
  deriving DecidableEq, Repr

/-- The settings in force at a place of the text. -/
structure Flags where
  ignoreCase : Bool := false
  dotAll : Bool := false
  multiLine : Bool := false
  swapGreed : Bool := false
  deriving DecidableEq, Repr

namespace Flags

/-- One flag, set or cleared. -/
def set (flags : Flags) (c : Char) (value : Bool) : Except ReadError Flags :=
  match c with
  | 'i' => .ok { flags with ignoreCase := value }
  | 's' => .ok { flags with dotAll := value }
  | 'm' => .ok { flags with multiLine := value }
  | 'U' => .ok { flags with swapGreed := value }
  | _ => .error .unknownFlag

/-- A set as it counts under the flags. -/
def apply (flags : Flags) (s : CharSet) : CharSet :=
  if flags.ignoreCase then .ignoreCase s else s

end Flags

/-! ### Escapes -/

/-- What an escape stands for. -/
inductive Escape where
  | char (c : Char)
  | set (s : CharSet)
  /-- A property, which is subject to the flags, and whether it is negated. -/
  | property (s : CharSet) (negated : Bool)
  | assert (a : Assertion)
  deriving DecidableEq, Repr

/-- The property with a name. Case, blanks, hyphens and underscores in the name do not matter. -/
def propertyNamed (name : List Char) : Except ReadError CharSet :=
  let key := (Text.lowerAfter [] name).filter fun c => c != ' ' && c != '-' && c != '_'
  match String.ofList key with
  | "alphabetic" | "alpha" => .ok (.property .alphabetic)
  | "nd" | "decimalnumber" | "digit" => .ok (.property .decimal)
  | "whitespace" | "wspace" | "space" => .ok (.property .blank)
  | "any" => .ok .any
  | "ascii" => .ok (.range '\x00' '\x7f')
  | _ => .error .unknownProperty

/-- A property after `\p` or `\P`: one letter, or a name in braces. -/
def readProperty (negated : Bool) : List Char → Except ReadError (Escape × List Char)
  | '\x7b' :: rest =>
    let (name, rest) := rest.span (· != '\x7d')
    match rest with
    | [] => .error .unexpectedEnd
    | _ :: rest =>
      match name with
      | '^' :: name => do return (.property (← propertyNamed name) (!negated), rest)
      | name => do return (.property (← propertyNamed name) negated, rest)
  | c :: rest => do return (.property (← propertyNamed [c]) negated, rest)
  | [] => .error .unexpectedEnd

/-- The value of a hexadecimal digit. -/
def hexValue? (c : Char) : Option Nat :=
  if '0' ≤ c ∧ c ≤ '9' then some (c.toNat - '0'.toNat)
  else if 'a' ≤ c ∧ c ≤ 'f' then some (c.toNat - 'a'.toNat + 10)
  else if 'A' ≤ c ∧ c ≤ 'F' then some (c.toNat - 'A'.toNat + 10)
  else none

/-- The character whose number the digits write. -/
def charOfHex (digits : List Char) : Except ReadError Escape :=
  match digits.mapM hexValue? with
  | some (v :: vs) =>
    let n := (v :: vs).foldl (fun n d => 16 * n + d) 0
    if n.isValidChar then .ok (.char (Char.ofNat n)) else .error .unknownEscape
  | _ => .error .unknownEscape

/-- The number of a character: in braces, or exactly `width` digits. -/
def readHex (width : Nat) : List Char → Except ReadError (Escape × List Char)
  | '\x7b' :: rest =>
    let (digits, rest) := rest.span (· != '\x7d')
    match rest with
    | [] => .error .unexpectedEnd
    | _ :: rest => do return (← charOfHex digits, rest)
  | text =>
    if text.length < width then .error .unexpectedEnd
    else do return (← charOfHex (text.take width), text.drop width)

/-- A character with no meaning of its own after a backslash. -/
def isEscapable (c : Char) : Bool :=
  c.toNat < 128 && !c.isAlphanum

/-- An escape, after its backslash. -/
def readEscape : List Char → Except ReadError (Escape × List Char)
  | [] => .error .unexpectedEnd
  | c :: rest =>
    match c with
    | 'd' => .ok (.set (.property .decimal), rest)
    | 'D' => .ok (.set (.compl (.property .decimal)), rest)
    | 's' => .ok (.set (.property .blank), rest)
    | 'S' => .ok (.set (.compl (.property .blank)), rest)
    | 'w' => .ok (.set (.property .word), rest)
    | 'W' => .ok (.set (.compl (.property .word)), rest)
    | 'p' => readProperty false rest
    | 'P' => readProperty true rest
    | 'b' => .ok (.assert .wordBoundary, rest)
    | 'B' => .ok (.assert .notWordBoundary, rest)
    | 'A' => .ok (.assert .textStart, rest)
    | 'z' => .ok (.assert .textEnd, rest)
    | '<' => .ok (.assert .wordStart, rest)
    | '>' => .ok (.assert .wordEnd, rest)
    | 'n' => .ok (.char '\n', rest)
    | 'r' => .ok (.char '\r', rest)
    | 't' => .ok (.char '\t', rest)
    | 'a' => .ok (.char '\x07', rest)
    | 'f' => .ok (.char '\x0c', rest)
    | 'v' => .ok (.char '\x0b', rest)
    | 'x' => readHex 2 rest
    | 'u' => readHex 4 rest
    | 'U' => readHex 8 rest
    | c =>
      if c.isDigit then .error .backReference
      else if isEscapable c then .ok (.char c, rest)
      else .error .unknownEscape

/-- A property as a set of its own. -/
def propertySet (flags : Flags) (s : CharSet) (negated : Bool) : CharSet :=
  if negated then .compl (flags.apply s) else flags.apply s

/-! ### Levels -/

/-- The level of a list of things with the given levels. A list of one is no level of its own. -/
def listLevel : List Nat → Nat
  | [] => 0
  | [level] => level
  | levels => levels.foldl max 0 + 1

/-- The levels that an expression may have. -/
def levelLimit : Nat := 250

/-! ### Classes -/

/-- An operator between two parts of a class. -/
inductive ClassOp where
  | inter
  | diff
  | symmDiff
  deriving DecidableEq, Repr

/-- The part of a class before an operator, with its level. -/
structure ClassPart where
  members : CharSet
  level : Nat
  op : ClassOp
  deriving DecidableEq, Repr

/-- What has been read of a class: the part before the last operator, and the items after it with
their levels. -/
structure OpenClass where
  negated : Bool
  left : Option ClassPart := none
  items : CharSet := .none
  levels : List Nat := []
  deriving DecidableEq, Repr

namespace OpenClass

/-- The class with one more item. -/
def add (cls : OpenClass) (s : CharSet) (level : Nat := 0) : OpenClass :=
  { cls with items := .union cls.items s, levels := level :: cls.levels }

/-- The parts on both sides of the last operator as one set. -/
def joined (cls : OpenClass) (flags : Flags) : CharSet :=
  match cls.left with
  | none => cls.items
  | some left =>
    let before := flags.apply left.members
    let after := flags.apply cls.items
    match left.op with
    | .inter => .inter before after
    | .diff => .diff before after
    | .symmDiff => .symmDiff before after

/-- The level of both parts. An operator is a level. -/
def level (cls : OpenClass) : Nat :=
  let items := listLevel cls.levels
  cls.left.elim items fun left => max left.level items + 1

/-- Begins the part after an operator. -/
def operator (cls : OpenClass) (flags : Flags) (op : ClassOp) : OpenClass :=
  { negated := cls.negated, left := some { members := cls.joined flags, level := cls.level, op } }

/-- The set that the class describes. -/
def close (cls : OpenClass) (flags : Flags) : CharSet :=
  let s := flags.apply (cls.joined flags)
  if cls.negated then .compl s else s

end OpenClass

/-- The start of a class, after its bracket: a `^`, and hyphens or a bracket that stand for
themselves. -/
def openClass (text : List Char) : OpenClass × List Char :=
  let (negated, text) :=
    match text with
    | '^' :: rest => (true, rest)
    | text => (false, text)
  let (hyphens, rest) := text.span (· == '-')
  let cls : OpenClass := { negated }
  match hyphens, rest with
  | [], ']' :: rest => (cls.add (.single ']'), rest)
  | hyphens, rest => (hyphens.foldl (fun cls c => cls.add (.single c)) cls, rest)

/-- The set of characters with a name of the form `[:name:]`. -/
def namedClass? (name : String) : Option CharSet :=
  let upper := CharSet.range 'A' 'Z'
  let lower := CharSet.range 'a' 'z'
  let digit := CharSet.range '0' '9'
  match name with
  | "alnum" => some (.union digit (.union upper lower))
  | "alpha" => some (.union upper lower)
  | "ascii" => some (.range '\x00' '\x7f')
  | "blank" => some (.ofList ['\t', ' '])
  | "cntrl" => some (.union (.range '\x00' '\x1f') (.single '\x7f'))
  | "digit" => some digit
  | "graph" => some (.range '!' '~')
  | "lower" => some lower
  | "print" => some (.range ' ' '~')
  | "punct" => some (.diff (.range '!' '~') (.union digit (.union upper lower)))
  | "space" => some (.union (.range '\t' '\r') (.single ' '))
  | "upper" => some upper
  | "word" => some (.union digit (.union upper (.union lower (.single '_'))))
  | "xdigit" => some (.union digit (.union (.range 'A' 'F') (.range 'a' 'f')))
  | _ => none

/-- A named class after its bracket, `:name:]` or `:^name:]`. -/
def readNamedClass? : List Char → Option (CharSet × List Char)
  | ':' :: rest =>
    let (negated, rest) :=
      match rest with
      | '^' :: rest => (true, rest)
      | rest => (false, rest)
    let (name, rest) := rest.span (· != ':')
    match rest with
    | ':' :: ']' :: rest =>
      (namedClass? (String.ofList name)).map fun s => (if negated then .compl s else s, rest)
    | _ => none
  | _ => none

/-- One item of a class: a character, or an escape. -/
def readClassItem : List Char → Except ReadError (Escape × List Char)
  | [] => .error .unclosedClass
  | '\\' :: rest => readEscape rest
  | c :: rest => .ok (.char c, rest)

/-- An item as a set. -/
def Escape.toSet (flags : Flags) : Escape → Except ReadError CharSet
  | .char c => .ok (.single c)
  | .set s => .ok s
  | .property s negated => .ok (propertySet flags s negated)
  | .assert _ => .error .invalidClassItem

/-- An item or a range of a class. A hyphen before the closing bracket or before another hyphen
makes no range. -/
def readClassRange (flags : Flags) (text : List Char) : Except ReadError (CharSet × List Char) := do
  let (item, rest) ← readClassItem text
  match rest with
  | [] => .error .unclosedClass
  | '-' :: next :: more =>
    if next = ']' ∨ next = '-' then return (← item.toSet flags, rest)
    else
      let (last, rest) ← readClassItem (next :: more)
      match item, last with
      | .char first, .char last =>
        if first ≤ last then .ok (.range first last, rest) else .error .invalidRange
      | _, _ => .error .invalidClassItem
  | ['-'] => .error .unclosedClass
  | rest => return (← item.toSet flags, rest)

/-- The rest of a class, and its level. The classes around it are kept on a stack. -/
def readClass (flags : Flags) :
    Nat → List OpenClass → OpenClass → List Char → Except ReadError (CharSet × Nat × List Char)
  | 0, _, _, _ => .error .unclosedClass
  | fuel + 1, outer, cls, text =>
    match text with
    | [] => .error .unclosedClass
    | '[' :: rest =>
      match readNamedClass? rest with
      | some (s, rest) => readClass flags fuel outer (cls.add s) rest
      | none =>
        let (inner, rest) := openClass rest
        readClass flags fuel (cls :: outer) inner rest
    | ']' :: rest =>
      match outer with
      | [] => .ok (cls.close flags, cls.level + 1, rest)
      | around :: outer =>
        readClass flags fuel outer (around.add (cls.close flags) (cls.level + 1)) rest
    | '&' :: '&' :: rest => readClass flags fuel outer (cls.operator flags .inter) rest
    | '-' :: '-' :: rest => readClass flags fuel outer (cls.operator flags .diff) rest
    | '~' :: '~' :: rest => readClass flags fuel outer (cls.operator flags .symmDiff) rest
    | text => do
      let (s, rest) ← readClassRange flags text
      readClass flags fuel outer (cls.add s) rest

/-! ### Groups and repetitions -/

/-- A piece of a branch, and its level. A change of flags is a piece that reads nothing and cannot
be repeated. -/
structure Piece where
  meaning : Option Regular
  level : Nat := 0
  deriving DecidableEq, Repr

/-- A branch that is complete, and its level. -/
structure Branch where
  meaning : Regular
  level : Nat
  deriving DecidableEq, Repr

/-- What has been read of a group: the branches that are complete and the pieces of the one that
is not, both last first. A group in plain parentheses has a place, one that begins with `(?` has
none. -/
structure OpenGroup where
  flags : Flags
  place : Option Nat := none
  branches : List Branch := []
  pieces : List Piece := []
  deriving DecidableEq, Repr

namespace OpenGroup

/-- The group with one more piece. -/
def add (g : OpenGroup) (p : Regular) (level : Nat := 0) : OpenGroup :=
  { g with pieces := { meaning := some p, level } :: g.pieces }

/-- Begins another branch. -/
def nextBranch (g : OpenGroup) : OpenGroup :=
  let branch := {
    meaning := sequence (g.pieces.reverse.filterMap Piece.meaning)
    level := listLevel (g.pieces.map Piece.level) }
  { g with branches := branch :: g.branches, pieces := [] }

/-- What stands between the parentheses. -/
def contents (g : OpenGroup) : Branch :=
  let branches := g.nextBranch.branches.reverse
  { meaning := choice (branches.map Branch.meaning)
    level := listLevel (branches.map Branch.level) }

/-- The group `around` with the group `g`, which is complete, as one more piece. -/
def close (g around : OpenGroup) : OpenGroup :=
  let inner := g.contents
  around.add (g.place.elim inner.meaning fun place => group place inner.meaning) (inner.level + 1)

/-- The group with its last piece repeated. -/
def repeatLast (g : OpenGroup) (least : Nat) (most : Option Nat) (greedy : Bool) :
    Except ReadError OpenGroup :=
  match g.pieces with
  | ⟨some p, level⟩ :: pieces =>
    let piece := { meaning := some (repetition least most greedy p), level := level + 1 }
    .ok { g with pieces := piece :: pieces }
  | _ => .error .missingOperand

/-- The whole expression, if it is not too deep and not too large. -/
def finish (g : OpenGroup) : Except ReadError Regular :=
  let whole := g.contents
  if levelLimit < whole.level then .error .tooDeep
  else if whole.meaning.isTooLarge then .error .tooLarge
  else .ok whole.meaning

end OpenGroup

/-- Whether a repetition is greedy, after its operator. -/
def readGreed (flags : Flags) : List Char → Bool × List Char
  | '?' :: rest => (flags.swapGreed, rest)
  | rest => (!flags.swapGreed, rest)

/-- The largest number a repetition may hold. -/
def countLimit : Nat := 4294967295

/-- A number of turns, with blanks around it. -/
def readCount (text : List Char) : Except ReadError (Nat × List Char) :=
  let (digits, rest) := (text.dropWhile Text.isBlank).span Char.isDigit
  let n := digits.foldl (fun n d => 10 * n + (d.toNat - '0'.toNat)) 0
  if digits.isEmpty || countLimit < n then .error .invalidRepetition
  else .ok (n, rest.dropWhile Text.isBlank)

/-- The least and the greatest number of turns, after the opening brace. -/
def readBounds (text : List Char) : Except ReadError (Nat × Option Nat × List Char) := do
  let (least, rest) ← readCount text
  match rest with
  | '\x7d' :: rest => .ok (least, some least, rest)
  | ',' :: '\x7d' :: rest => .ok (least, none, rest)
  | ',' :: rest => do
    let (most, rest) ← readCount rest
    match rest with
    | '\x7d' :: rest =>
      if least ≤ most then .ok (least, some most, rest) else .error .invalidRepetition
    | _ => .error .unclosedRepetition
  | _ => .error .unclosedRepetition

/-- Flags after `(?`, up to the `:` of a group or the `)` of a setting. Those in `given` have been
read; a hyphen among them, which clears the flags after it, must have a flag after it. The result
says whether a group follows. -/
def readFlags (flags : Flags) (given : List Char) :
    List Char → Except ReadError (Bool × Flags × List Char)
  | [] => .error .unclosedGroup
  | ':' :: rest => if given.head? = some '-' then .error .unknownFlag else .ok (true, flags, rest)
  | ')' :: rest =>
    if given.isEmpty then .error .missingOperand
    else if given.head? = some '-' then .error .unknownFlag
    else .ok (false, flags, rest)
  | c :: rest => do
    if given.contains c then .error .unknownFlag
    else if c = '-' then readFlags flags ('-' :: given) rest
    else readFlags (← flags.set c (!given.contains '-')) (c :: given) rest

/-- The start of a group, after its parenthesis: the flags inside it, or `none` if it only sets the
flags of the group around it. -/
def openGroup (flags : Flags) : List Char → Except ReadError (Bool × Flags × List Char)
  | '?' :: '=' :: _ => .error .lookAround
  | '?' :: '!' :: _ => .error .lookAround
  | '?' :: '<' :: '=' :: _ => .error .lookAround
  | '?' :: '<' :: '!' :: _ => .error .lookAround
  | '?' :: rest => readFlags flags [] rest
  | rest => .ok (true, flags, rest)

/-- The rest of an expression. The groups around the place are kept on a stack. -/
def readGroups : Nat → List OpenGroup → OpenGroup → List Char → Except ReadError Regular
  | 0, _, _, _ => .error .unexpectedEnd
  | fuel + 1, outer, g, text =>
    match text with
    | [] => if outer.isEmpty then g.finish else .error .unclosedGroup
    | '(' :: rest => do
      let place := if rest.head? = some '?' then none else some rest.length
      let (isGroup, flags, rest) ← openGroup g.flags rest
      if isGroup then readGroups fuel (g :: outer) { flags, place } rest
      else readGroups fuel outer { g with flags, pieces := { meaning := none } :: g.pieces } rest
    | ')' :: rest =>
      match outer with
      | [] => .error .unopenedGroup
      | around :: outer => readGroups fuel outer (g.close around) rest
    | '|' :: rest => readGroups fuel outer g.nextBranch rest
    | '*' :: rest => do
      let (greedy, rest) := readGreed g.flags rest
      readGroups fuel outer (← g.repeatLast 0 none greedy) rest
    | '+' :: rest => do
      let (greedy, rest) := readGreed g.flags rest
      readGroups fuel outer (← g.repeatLast 1 none greedy) rest
    | '?' :: rest => do
      let (greedy, rest) := readGreed g.flags rest
      readGroups fuel outer (← g.repeatLast 0 (some 1) greedy) rest
    | '\x7b' :: rest => do
      let (least, most, rest) ← readBounds rest
      let (greedy, rest) := readGreed g.flags rest
      readGroups fuel outer (← g.repeatLast least most greedy) rest
    | '[' :: rest => do
      let (cls, rest) := openClass rest
      let (s, level, rest) ← readClass g.flags (rest.length + 1) [] cls rest
      readGroups fuel outer (g.add (ofCharSet s) level) rest
    | '.' :: rest =>
      let s := if g.flags.dotAll then CharSet.any else .compl (.single '\n')
      readGroups fuel outer (g.add (ofCharSet s)) rest
    | '^' :: rest =>
      let a := if g.flags.multiLine then Assertion.lineStart else .textStart
      readGroups fuel outer (g.add (assert a)) rest
    | '$' :: rest =>
      let a := if g.flags.multiLine then Assertion.lineEnd else .textEnd
      readGroups fuel outer (g.add (assert a)) rest
    | '\\' :: rest => do
      let (escape, rest) ← readEscape rest
      let p :=
        match escape with
        | .char c => ofCharSet (g.flags.apply (.single c))
        | .set s => ofCharSet s
        | .property s negated => ofCharSet (propertySet g.flags s negated)
        | .assert a => assert a
      readGroups fuel outer (g.add p) rest
    | c :: rest => readGroups fuel outer (g.add (ofCharSet (g.flags.apply (.single c)))) rest

/-- Reads a regular expression. -/
def read (text : String) : Except ReadError Regular :=
  readGroups (text.length + 1) [] { flags := {} } text.toList

end SqlDoc.Regular

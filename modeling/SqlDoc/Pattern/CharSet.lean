/-
# Sets of characters

A set is written with ranges, properties of Unicode and the operations of set algebra. `ignoreCase`
adds to a set every character that differs from a member in case only.

Key definitions: `CharSet`, `CharSet.mem`, `CharSet.ranges`.
Key theorems: `CharSet.mem_union`, `CharSet.mem_compl`, `CharSet.mem_ofList`.
-/
import SqlDoc.Text.Alphabetic
import SqlDoc.Text.Blank
import SqlDoc.Text.Decimal
import SqlDoc.Text.Fold
import SqlDoc.Text.WordChar

namespace SqlDoc

/-- The properties of characters that a pattern may name. -/
inductive CharProperty where
  | alphabetic
  | decimal
  | blank
  | word
  deriving DecidableEq, Repr

/-- The character has the property. -/
def CharProperty.holds : CharProperty → Char → Bool
  | alphabetic, c => Text.isAlphabetic c
  | decimal, c => Text.isDecimal c
  | blank, c => Text.isBlank c
  | word, c => Text.isWordChar c

/-- The characters with the property, as ranges. -/
def CharProperty.ranges : CharProperty → Text.Ranges
  | alphabetic => Text.alphabeticRanges
  | decimal => Text.decimalRanges
  | blank => Text.blankRanges
  | word => Text.wordRanges

/-- A set of characters. -/
inductive CharSet where
  | none
  | range (first last : Char)
  | property (p : CharProperty)
  | union (s t : CharSet)
  | inter (s t : CharSet)
  | compl (s : CharSet)
  | ignoreCase (s : CharSet)
  deriving DecidableEq, Repr

namespace CharSet

/-- The character is in the set. -/
def mem : CharSet → Char → Bool
  | none, _ => false
  | range first last, c => first ≤ c && c ≤ last
  | property p, c => p.holds c
  | union s t, c => s.mem c || t.mem c
  | inter s t, c => s.mem c && t.mem c
  | compl s, c => !s.mem c
  | ignoreCase s, c => (Text.caseVariants c).any s.mem

/-- The members of the set as ranges, the same for every way to write the set. -/
def ranges : CharSet → Text.Ranges
  | none => []
  | range first last => if first ≤ last then [(first.toNat, last.toNat)] else []
  | property p => p.ranges
  | union s t => s.ranges.union t.ranges
  | inter s t => s.ranges.inter t.ranges
  | compl s => s.ranges.compl
  | ignoreCase s => s.ranges.ignoreCase

/-- Every character. -/
def any : CharSet := compl none

/-- One character. -/
def single (c : Char) : CharSet := range c c

/-- The characters of a list. -/
def ofList : List Char → CharSet
  | [] => none
  | [c] => single c
  | c :: cs => union (single c) (ofList cs)

/-- The characters of the first set that are not in the second. -/
def diff (s t : CharSet) : CharSet := inter s (compl t)

/-- The characters of exactly one of the sets. -/
def symmDiff (s t : CharSet) : CharSet := union (diff s t) (diff t s)

@[simp] theorem mem_union (s t : CharSet) (c : Char) : (union s t).mem c = (s.mem c || t.mem c) :=
  rfl

@[simp] theorem mem_compl (s : CharSet) (c : Char) : (compl s).mem c = !s.mem c := rfl

@[simp] theorem mem_single (a c : Char) : (single a).mem c = (c == a) := by
  rw [Bool.eq_iff_iff, beq_iff_eq]
  simp only [single, mem, Bool.and_eq_true, decide_eq_true_eq]
  exact ⟨fun ⟨h1, h2⟩ => Char.le_antisymm h2 h1, fun h => h ▸ ⟨Char.le_refl c, Char.le_refl c⟩⟩

@[simp] theorem mem_ofList (cs : List Char) (c : Char) : (ofList cs).mem c = cs.contains c := by
  fun_induction ofList cs with
  | case1 => rfl
  | case2 a => simp only [mem_single, List.contains_cons, List.contains_nil, Bool.or_false]
  | case3 a cs _ ih => rw [mem_union, ih, mem_single, List.contains_cons]

end CharSet
end SqlDoc

/-
# Sets of characters as sorted ranges

A property of Unicode is a set of code points. It is written as a list of ranges in ascending
order, ends included, so that a look-up may stop at the first range that begins beyond the
character. Where neighbouring ranges neither overlap nor touch, the list is the only one for its
set; the operations keep it so.

Key definitions: `Ranges`, `Ranges.contains`, `Ranges.union`, `Ranges.compl`.
Key theorem: `forall_char_lt`.
-/

namespace SqlDoc.Text

/-- Ranges of code points in ascending order, both ends included. -/
abbrev Ranges := List (Nat × Nat)

/-- The number lies in one of the ranges. -/
def Ranges.covers : Ranges → Nat → Bool
  | [], _ => false
  | (first, last) :: rest, n => if n < first then false else n ≤ last || Ranges.covers rest n

/-- The character lies in one of the ranges. -/
def Ranges.contains (ranges : Ranges) (c : Char) : Bool :=
  Ranges.covers ranges c.toNat

namespace Ranges

/-- Joins neighbouring ranges that overlap or touch. -/
def join : Ranges → Ranges
  | (a, b) :: (c, d) :: rest =>
    if c ≤ b + 1 then join ((a, max b d) :: rest) else (a, b) :: join ((c, d) :: rest)
  | ranges => ranges
termination_by ranges => ranges.length

/-- The code points of a list. -/
def ofPoints (points : List Nat) : Ranges :=
  join ((points.mergeSort (· ≤ ·)).map fun n => (n, n))

/-- The code points of either set. -/
def union (r s : Ranges) : Ranges :=
  join (r.merge s fun x y => x.1 ≤ y.1)

/-- The greatest code point. -/
def lastPoint : Nat := 0x10FFFF

/-- The number is no character's. -/
def isSurrogate (n : Nat) : Bool :=
  0xD800 ≤ n && n ≤ 0xDFFF

/-- A range without the numbers at its ends that are no character's. -/
def trim? (range : Nat × Nat) : Option (Nat × Nat) :=
  let first := if isSurrogate range.1 then 0xE000 else range.1
  let last := if isSurrogate range.2 then 0xD7FF else range.2
  if first ≤ last then some (first, last) else none

/-- What lies between the ranges, from `next` on. -/
def gaps (next : Nat) : Ranges → Ranges
  | [] => [(next, lastPoint)]
  | (first, last) :: rest =>
    if next < first then (next, first - 1) :: gaps (last + 1) rest else gaps (last + 1) rest

/-- The characters that are not in the set. -/
def compl (r : Ranges) : Ranges :=
  (gaps 0 r).filterMap trim?

/-- The characters of both sets. -/
def inter (r s : Ranges) : Ranges :=
  compl (union (compl r) (compl s))

end Ranges

/-- What holds for the characters of all numbers below a bound holds for every character below
it. -/
theorem forall_char_lt {b : Nat} {p : Char → Prop} (h : ∀ n, n < b → p (Char.ofNat n)) (c : Char)
    (hc : c.toNat < b) : p c := by
  have hp := h c.toNat hc
  rwa [Char.ofNat_toNat] at hp

/-- The letters and digits of core are ASCII characters. -/
theorem toNat_lt_of_isAlphanum {c : Char} (h : c.isAlphanum = true) : c.toNat < 128 := by
  change (decide (c.val ≥ 'A'.val ∧ c.val ≤ 'Z'.val) || (c.val ≥ 'a'.val && c.val ≤ 'z'.val)
    || (c.val ≥ '0'.val && c.val ≤ '9'.val)) = true at h
  simp only [Bool.or_eq_true, Bool.and_eq_true, decide_eq_true_eq] at h
  rcases h with (h | h) | h <;>
    exact Nat.lt_of_le_of_lt (UInt32.le_iff_toNat_le.1 h.2) (by decide)

end SqlDoc.Text

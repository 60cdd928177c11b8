/-
# Ranges of characters as sequences of byte ranges

UTF-8 writes a character with one to four bytes. The characters of a range are written by a few
sequences of byte ranges: the range is cut where the number of bytes changes, and then wherever a
byte but the last would have to change while the bytes after it do not run through all their values.

Key definitions: `encode`, `byteSequences`.
-/
import SqlDoc.Text.Ranges

namespace SqlDoc.Text

/-- The bytes of a code point in UTF-8. -/
def encode (n : Nat) : List Nat :=
  if n < 0x80 then [n]
  else if n < 0x800 then [0xC0 + n / 64, 0x80 + n % 64]
  else if n < 0x10000 then [0xE0 + n / 4096, 0x80 + n / 64 % 64, 0x80 + n % 64]
  else [0xF0 + n / 262144, 0x80 + n / 4096 % 64, 0x80 + n / 64 % 64, 0x80 + n % 64]

/-- The code points that have one number of bytes, those of three bytes without the numbers that are
no character's. -/
def lengthClasses : Ranges :=
  [(0, 0x7F), (0x80, 0x7FF), (0x800, 0xD7FF), (0xE000, 0xFFFF), (0x10000, 0x10FFFF)]

/-- What two ranges have in common. -/
def overlap? (x y : Nat × Nat) : Option (Nat × Nat) :=
  if max x.1 y.1 ≤ min x.2 y.2 then some (max x.1 y.1, min x.2 y.2) else none

/-- Cuts a range that lies in several blocks of the size: the part of its first block and the part
of its last one come apart from the whole blocks between them. -/
def cut (block : Nat) (range : Nat × Nat) : List (Nat × Nat) :=
  let (first, last) := range
  if first / block = last / block then [range]
  else
    let whole := (first + block - 1) / block * block
    let rest := (last + 1) / block * block
    ([(first, whole), (whole, rest), (rest, last + 1)].filter fun part => part.1 < part.2).map
      fun part => (part.1, part.2 - 1)

/-- A sequence of byte ranges. It stands for the sequences of bytes with one of each range. -/
abbrev ByteSequence := List (Nat × Nat)

/-- The sequences of byte ranges that write the characters of a range, in ascending order. -/
def byteSequences (range : Nat × Nat) : List ByteSequence :=
  (lengthClasses.filterMap (overlap? range)).flatMap fun part =>
    if part.2 < 0x80 then [[part]]
    else (((cut 64 part).flatMap (cut 4096)).flatMap (cut 262144)).map fun (a, b) =>
      (encode a).zip (encode b)

end SqlDoc.Text

/-
# Places in a text

A cursor is a place in a text that remembers what lies before and after it. It moves over one
character at a time, and its fields keep the two halves of the text together.

Key definitions: `Cursor`, `Cursor.start`, `Cursor.next?`.
Key theorems: `Cursor.rest_length`, `Cursor.seen_of_next?`.
-/
import SqlDoc.Pattern.CharSet

namespace SqlDoc

/-- A place in `text`: how many characters lie before it, the last of them, and those after it. -/
structure Cursor (text : List Char) where
  seen : Nat
  previous : Option Char
  rest : List Char
  rest_eq : text.drop seen = rest
  seen_le : seen ≤ text.length

namespace Cursor

variable {text : List Char}

/-- The place before the first character. -/
def start (text : List Char) : Cursor text where
  seen := 0
  previous := none
  rest := text
  rest_eq := rfl
  seen_le := Nat.zero_le _

theorem rest_length (cur : Cursor text) : cur.seen + cur.rest.length = text.length := by
  have h := cur.seen_le
  rw [← cur.rest_eq, List.length_drop]
  omega

/-- The place after the next character, when that is in the set. -/
def next? (cur : Cursor text) (s : CharSet) : Option (Cursor text) :=
  match h : cur.rest with
  | [] => none
  | c :: rest =>
    if s.mem c then
      some {
        seen := cur.seen + 1
        previous := some c
        rest
        rest_eq := by
          rw [← List.drop_drop, cur.rest_eq, h]
          rfl
        seen_le := by
          have := cur.rest_length
          rw [h, List.length_cons] at this
          omega }
    else none

theorem seen_of_next? {cur next : Cursor text} {s : CharSet} (h : cur.next? s = some next) :
    next.seen = cur.seen + 1 := by
  unfold next? at h
  split at h
  · exact absurd h (by simp)
  · split at h
    · exact (Option.some.inj h) ▸ rfl
    · exact absurd h (by simp)

end Cursor

end SqlDoc

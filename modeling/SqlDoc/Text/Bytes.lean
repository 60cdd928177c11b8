/-
# Lengths in bytes

UTF-8 writes a character with one to four bytes. A number of bytes is a place in a text if a
character ends there, or if it is zero.

Key definitions: `byteLength`, `splitBytes?`.
Key theorem: `splitBytes?_eq_some_iff`.
-/
namespace SqlDoc.Text

/-- The number of bytes that write the characters. -/
def byteLength : List Char → Nat
  | [] => 0
  | c :: text => c.utf8Size + byteLength text

@[simp] theorem byteLength_append (a b : List Char) :
    byteLength (a ++ b) = byteLength a + byteLength b := by
  induction a with
  | nil => simp [byteLength]
  | cons c a ih => simp [byteLength, ih, Nat.add_assoc]

@[simp] theorem byteLength_eq_zero {text : List Char} : byteLength text = 0 ↔ text = [] := by
  cases text with
  | nil => simp [byteLength]
  | cons c text =>
    have := c.utf8Size_pos
    simp [byteLength]
    omega

/-- The characters that the first `n` bytes write, and those after them, unless the `n` bytes end
within a character or beyond the text. -/
def splitBytes? : Nat → List Char → Option (List Char × List Char)
  | 0, text => some ([], text)
  | _ + 1, [] => none
  | n + 1, c :: text =>
    if c.utf8Size ≤ n + 1 then
      (splitBytes? (n + 1 - c.utf8Size) text).map fun (read, rest) => (c :: read, rest)
    else none

theorem splitBytes?_zero_eq_some_iff {text read rest : List Char} :
    splitBytes? 0 text = some (read, rest) ↔ read ++ rest = text ∧ byteLength read = 0 := by
  have hzero : splitBytes? 0 text = some ([], text) := by cases text <;> rfl
  rw [hzero, byteLength_eq_zero]
  constructor
  · intro h
    cases h
    exact ⟨rfl, rfl⟩
  · rintro ⟨rfl, rfl⟩
    rfl

/-- A text is cut behind the characters that take so many bytes, and nowhere else. -/
theorem splitBytes?_eq_some_iff {n : Nat} {text read rest : List Char} :
    splitBytes? n text = some (read, rest) ↔ read ++ rest = text ∧ byteLength read = n := by
  induction text generalizing n read with
  | nil =>
    cases n with
    | zero => exact splitBytes?_zero_eq_some_iff
    | succ n =>
      refine iff_of_false (by simp [splitBytes?]) ?_
      rintro ⟨happend, hlength⟩
      rw [(List.append_eq_nil_iff.1 happend).1] at hlength
      cases hlength
  | cons c text ih =>
    cases n with
    | zero => exact splitBytes?_zero_eq_some_iff
    | succ n =>
      rw [splitBytes?]
      constructor
      · intro h
        split at h
        · obtain ⟨⟨front, more⟩, hfront, heq⟩ := Option.map_eq_some_iff.1 h
          cases heq
          obtain ⟨rfl, hlength⟩ := ih.1 hfront
          refine ⟨rfl, ?_⟩
          rw [byteLength, hlength]
          omega
        · cases h
      · rintro ⟨happend, hlength⟩
        cases read with
        | nil => cases hlength
        | cons d front =>
          obtain ⟨rfl, rfl⟩ := List.cons.inj happend
          have hpos := d.utf8Size_pos
          rw [byteLength] at hlength
          have hsplit := ih.2 ⟨rfl, show byteLength front = n + 1 - d.utf8Size by omega⟩
          rw [if_pos (by omega), hsplit]
          rfl

end SqlDoc.Text

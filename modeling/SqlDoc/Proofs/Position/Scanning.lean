/-
# Moving over a text character by character and byte by byte

Where a text leads can be told character by character: a `\r\n`, a lone `\r` and a lone `\n` each
lead to the start of the next line, any other character along the line (`Position.walk`). It can
also be told from the bytes of the text, without reading the lines in front of the last line end:
one looks for the next line end until there is none, and counts the characters behind it
(`Position.scan`). No character but a line end has the byte of one in it, so the bytes behind a line
end are again those of a text, and all three say the same (`Position.advance_walk`).

Key definitions: `Text.utf8Bytes`, `Position.walk`, `Position.passLineEnds`, `Position.scan`.
Key theorems: `Text.dropWhile_utf8Bytes`, `Position.walk_eq_advance`, `Position.scan_eq_advance`,
`Position.advance_walk`.
-/
import SqlDoc.Proofs.Position.Order

namespace SqlDoc

namespace Text

/-! ### Bytes -/

/-- The bytes of a text in UTF-8. -/
def utf8Bytes (text : List Char) : List UInt8 :=
  text.flatMap String.utf8EncodeChar

/-- The byte is a line feed or a carriage return. -/
def isLineEndByte (b : UInt8) : Bool :=
  b == 10 || b == 13

theorem toNat_ne_of_not_isLineEnd {c : Char} (hc : isLineEnd c = false) :
    c.val.toNat ≠ 10 ∧ c.val.toNat ≠ 13 := by
  constructor
  · intro h
    rw [show c = '\n' from Char.ext (UInt32.toNat_inj.1 h)] at hc
    cases hc
  · intro h
    rw [show c = '\r' from Char.ext (UInt32.toNat_inj.1 h)] at hc
    cases hc

/-- The bytes of a character that is more than one byte are all beyond those of line ends, so a line
end in bytes is one in characters. -/
theorem not_isLineEndByte_of_mem {c : Char} (hc : isLineEnd c = false) :
    ∀ b ∈ String.utf8EncodeChar c, isLineEndByte b = false := by
  obtain ⟨hfeed, hreturn⟩ := toNat_ne_of_not_isLineEnd hc
  intro b hb
  have hbyte : b.toNat ≠ 10 ∧ b.toNat ≠ 13 := by
    unfold String.utf8EncodeChar at hb
    dsimp only at hb
    split at hb
    · rw [List.mem_singleton.1 hb, UInt8.toNat_ofNat']
      omega
    · split at hb
      · simp only [List.mem_cons, List.not_mem_nil, or_false] at hb
        rcases hb with rfl | rfl <;> rw [UInt8.toNat_ofNat'] <;> omega
      · split at hb
        · simp only [List.mem_cons, List.not_mem_nil, or_false] at hb
          rcases hb with rfl | rfl | rfl <;> rw [UInt8.toNat_ofNat'] <;> omega
        · simp only [List.mem_cons, List.not_mem_nil, or_false] at hb
          rcases hb with rfl | rfl | rfl | rfl <;> rw [UInt8.toNat_ofNat'] <;> omega
  have hten : b ≠ 10 := fun h => hbyte.1 (congrArg UInt8.toNat h)
  have hthirteen : b ≠ 13 := fun h => hbyte.2 (congrArg UInt8.toNat h)
  rw [isLineEndByte, beq_false_of_ne hten, beq_false_of_ne hthirteen]
  rfl

theorem utf8EncodeChar_of_isLineEnd {c : Char} (hc : isLineEnd c = true) :
    ∃ b, String.utf8EncodeChar c = [b] ∧ isLineEndByte b = true ∧ (b = 13 ↔ c = '\r') ∧
      (b = 10 ↔ c = '\n') := by
  rw [isLineEnd, Bool.or_eq_true, beq_iff_eq, beq_iff_eq] at hc
  rcases hc with rfl | rfl
  · exact ⟨10, by decide, by decide, by decide, by decide⟩
  · exact ⟨13, by decide, by decide, by decide, by decide⟩

/-- A text begins with a line feed if its bytes do. -/
theorem head?_utf8Bytes (text : List Char) :
    (utf8Bytes text).head? = some 10 ↔ text.head? = some '\n' := by
  cases text with
  | nil => simp [utf8Bytes]
  | cons c rest =>
    rw [utf8Bytes, List.flatMap_cons, List.head?_cons]
    cases hc : isLineEnd c with
    | true =>
      obtain ⟨b, hb, -, -, hfeed⟩ := utf8EncodeChar_of_isLineEnd hc
      rw [hb, List.singleton_append, List.head?_cons, Option.some_inj, Option.some_inj, hfeed]
    | false =>
      have hne : c ≠ '\n' := by
        rintro rfl
        cases hc
      obtain ⟨b, more, hb⟩ := List.exists_cons_of_ne_nil (String.utf8EncodeChar_ne_nil (c := c))
      have hbyte := not_isLineEndByte_of_mem hc b (hb ▸ List.mem_cons_self)
      rw [hb, List.cons_append, List.head?_cons, Option.some_inj, Option.some_inj]
      refine ⟨?_, fun h => absurd h hne⟩
      rintro rfl
      cases hbyte

theorem not_isLineEnd_of_mem_takeWhile {text : List Char} {c : Char}
    (hc : c ∈ text.takeWhile fun c => !isLineEnd c) : isLineEnd c = false := by
  simpa using List.all_eq_true.1 List.all_takeWhile c hc

/-- The bytes in front of the first line end are those of the characters in front of it. -/
theorem dropWhile_utf8Bytes (text : List Char) :
    (utf8Bytes text).dropWhile (fun b => !isLineEndByte b) =
      utf8Bytes (text.dropWhile fun c => !isLineEnd c) := by
  induction text with
  | nil => rfl
  | cons c rest ih =>
    rw [utf8Bytes, List.flatMap_cons]
    cases hc : isLineEnd c with
    | true =>
      obtain ⟨b, hb, hend, -, -⟩ := utf8EncodeChar_of_isLineEnd hc
      rw [List.dropWhile_cons_of_neg (by simp [hc]), utf8Bytes, List.flatMap_cons, hb,
        List.singleton_append, List.dropWhile_cons_of_neg (by simp [hend])]
    | false =>
      rw [List.dropWhile_cons_of_pos (by simp [hc]), ← ih, List.dropWhile_append_of_pos]
      · rfl
      · intro b hb
        rw [not_isLineEndByte_of_mem hc b hb]
        rfl

end Text

namespace Position

open Text

variable (p : Position)

/-! ### Character by character -/

/-- The place just past a text, character by character. -/
def walk (p : Position) : List Char → Position
  | [] => p
  | '\r' :: '\n' :: rest => p.nextLine.walk rest
  | c :: rest => (if isLineEnd c then p.nextLine else p.nextColumn).walk rest

theorem walk_eq_advance (text : List Char) : p.walk text = p.advance text := by
  fun_induction walk p text with
  | case1 p => rfl
  | case2 p rest ih => rw [ih, advance_return_feed]
  | case3 p c rest hcrlf ih =>
    rw [ih]
    split
    · rename_i hc
      rw [p.advance_lineEnd hc (not_splitsLineEnd_of_alone hcrlf)]
    · rename_i hc
      rw [p.advance_cons rest (Bool.not_eq_true _ ▸ hc)]

/-! ### Byte by byte -/

/-- The start of the last line that is begun in the bytes, if they begin at `p`, and the bytes of
that line. -/
def passLineEnds (p : Position) (bytes : List UInt8) : Position × List UInt8 :=
  match _h : bytes.dropWhile fun b => !isLineEndByte b with
  | [] => (p, bytes)
  | b :: rest => passLineEnds p.nextLine (if b = 13 ∧ rest.head? = some 10 then rest.tail else rest)
termination_by bytes.length
decreasing_by
  have hle := (List.dropWhile_suffix (l := bytes) fun b => !isLineEndByte b).length_le
  rw [_h, List.length_cons] at hle
  split
  · rw [List.length_tail]
    omega
  · omega

/-- The place just past a text, from its bytes: only behind the last line end are characters
counted. Nothing, if the bytes there are no text. -/
def scan (p : Position) (text : String) : Option Position :=
  let (p, line) := p.passLineEnds text.toByteArray.data.toList
  line.toByteArray.utf8Decode?.map fun chars => { p with column := p.column + chars.size }

/-- The first line end in the bytes is the first in the text, and what is left behind it are the
bytes of a text again: no line end is cut in two. -/
theorem passLineEnds_cons {text rest : List Char} {c : Char}
    (hrest : (text.dropWhile fun c => !isLineEnd c) = c :: rest) :
    ∃ left, left.length < text.length ∧
      p.passLineEnds (utf8Bytes text) = p.nextLine.passLineEnds (utf8Bytes left) ∧
      p.advance text = p.nextLine.advance left := by
  let front := text.takeWhile fun c => !isLineEnd c
  have hsplit : front ++ c :: rest = text := by
    rw [← hrest]
    exact List.takeWhile_append_dropWhile
  have hfront : ∀ d ∈ front, isLineEnd d = false := fun d hd => not_isLineEnd_of_mem_takeWhile hd
  have hc : isLineEnd c = true := by
    have hnot := List.head?_dropWhile_not (fun c => !isLineEnd c) text
    rw [hrest] at hnot
    simpa using hnot
  -- what stands in front of the line end is on the line of `p`
  have hadvance : p.advance text = (p.advance front).advance (c :: rest) := by
    rw [← hsplit]
    refine p.advance_append fun h => ?_
    have hlast := hfront _ (List.mem_of_getLast? h.1)
    cases hlast
  rw [p.advance_of_unbroken hfront] at hadvance
  have hlength : rest.length < text.length := by
    rw [← hsplit, List.length_append, List.length_cons]
    omega
  obtain ⟨b, hb, -, hreturn, -⟩ := utf8EncodeChar_of_isLineEnd hc
  have hbytes : (utf8Bytes text).dropWhile (fun b => !isLineEndByte b) = b :: utf8Bytes rest := by
    rw [dropWhile_utf8Bytes, hrest, utf8Bytes, List.flatMap_cons, hb]
    rfl
  have hpass : p.passLineEnds (utf8Bytes text) = p.nextLine.passLineEnds
      (if c = '\r' ∧ rest.head? = some '\n' then (utf8Bytes rest).tail else utf8Bytes rest) := by
    rw [passLineEnds, hbytes]
    simp only [hreturn, head?_utf8Bytes]
  rw [hpass, hadvance]
  by_cases hcrlf : c = '\r' ∧ rest.head? = some '\n'
  · obtain ⟨rfl, hhead⟩ := hcrlf
    obtain ⟨left, rfl⟩ := List.head?_eq_some_iff.1 hhead
    rw [if_pos ⟨rfl, rfl⟩]
    exact ⟨left, Nat.lt_of_succ_lt hlength, rfl, advance_return_feed _ left⟩
  · rw [if_neg hcrlf]
    refine ⟨rest, hlength, rfl, advance_lineEnd _ hc fun h => hcrlf ⟨?_, h.2⟩⟩
    exact Option.some.inj h.1

/-- What is left behind the last line end are the bytes of the last line. -/
theorem passLineEnds_utf8Bytes (text : List Char) :
    ∃ line, (p.passLineEnds (utf8Bytes text)).2 = utf8Bytes line ∧
      p.advance text = { (p.passLineEnds (utf8Bytes text)).1 with
        column := (p.passLineEnds (utf8Bytes text)).1.column + line.length } := by
  induction hn : text.length using Nat.strongRecOn generalizing p text with
  | ind n ih =>
    cases hrest : text.dropWhile fun c => !isLineEnd c with
    | nil =>
      have hfront : (text.takeWhile fun c => !isLineEnd c) = text := by
        have hsplit := List.takeWhile_append_dropWhile (p := fun c => !isLineEnd c) (l := text)
        rwa [hrest, List.append_nil] at hsplit
      have hunbroken : ∀ c ∈ text, isLineEnd c = false := fun c hc =>
        not_isLineEnd_of_mem_takeWhile (hfront.symm ▸ hc)
      have hbytes := dropWhile_utf8Bytes text
      rw [hrest] at hbytes
      rw [passLineEnds, hbytes]
      exact ⟨text, rfl, p.advance_of_unbroken hunbroken⟩
    | cons c rest =>
      obtain ⟨left, hlength, hpass, hadvance⟩ := p.passLineEnds_cons hrest
      rw [hpass, hadvance]
      exact ih left.length (hn ▸ hlength) p.nextLine left rfl

/-- The bytes of a text lead where its characters do. -/
theorem scan_eq_advance (text : List Char) :
    p.scan (String.ofList text) = some (p.advance text) := by
  obtain ⟨line, hline, hadvance⟩ := p.passLineEnds_utf8Bytes text
  have hbytes : (String.ofList text).toByteArray.data.toList = utf8Bytes text := by
    rw [String.toByteArray_ofList, List.utf8Encode, List.data_toByteArray]
    rfl
  have hdecode : (utf8Bytes line).toByteArray.utf8Decode? = some line.toArray :=
    List.utf8Decode?_utf8Encode
  rw [scan, hbytes]
  dsimp only
  rw [hline, hdecode, hadvance]
  rfl

/-! ### Character by character, byte by byte and piece by piece -/

/-- A text leads to one place, whether it is read line by line, character by character or byte by
byte. If it is not empty the place is further on. If no line end is cut in two, a text leads where
its first part and then its second part lead. -/
theorem advance_walk (p : Position) (text : List Char) :
    p.advance text = p.walk text ∧ p.scan (String.ofList text) = some (p.walk text) ∧
      (text ≠ [] → p < p.advance text) ∧
      ∀ more, ¬ (text.getLast? = some '\r' ∧ more.head? = some '\n') →
        p.advance (text ++ more) = (p.advance text).advance more := by
  refine ⟨(p.walk_eq_advance text).symm, ?_, p.lt_advance, fun more hcut => p.advance_append hcut⟩
  rw [walk_eq_advance]
  exact p.scan_eq_advance text

example : (Position.mk 4 7 none).advance "x\ny\r\nzz\ré".toList = Position.mk 7 2 none := by
  decide

end Position
end SqlDoc

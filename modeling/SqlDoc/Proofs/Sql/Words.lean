/-
# Words of a script

A word begins with a letter and goes on with letters, digits and a few marks. None of these is a
blank, a dot or a quote, so a word is a name of one part, which is the word in upper case
(`Name.parse_word`).

Key definition: `Text.blankChars`.
Key theorems: `Sql.exists_of_describes_word`, `Sql.describes_word`, `Sql.not_mem_of_wordRest`,
`normalizeIdentifier_word`, `Name.parse_word`.
-/
import SqlDoc.Proofs.Doc.Lines
import SqlDoc.Proofs.Pattern.Language
import SqlDoc.Name
import SqlDoc.Sql.Grammar

namespace SqlDoc

/-! ### Blanks -/

namespace Text

/-- The numbers in ranges. -/
def Ranges.points (ranges : Ranges) : List Nat :=
  ranges.flatMap fun range => List.range' range.1 (range.2 + 1 - range.1)

theorem Ranges.mem_points {ranges : Ranges} {n : Nat} (h : ranges.covers n = true) :
    n ∈ ranges.points := by
  induction ranges with
  | nil => cases h
  | cons range rest ih =>
    rw [points, List.flatMap_cons, List.mem_append, List.mem_range'_1]
    rw [covers] at h
    split at h
    · cases h
    · rcases (Bool.or_eq_true _ _).mp h with h | h
      · have := of_decide_eq_true h
        exact Or.inl (by omega)
      · exact Or.inr (ih h)

/-- The blanks. -/
def blankChars : List Char :=
  blankRanges.points.map Char.ofNat

theorem mem_blankChars {c : Char} (h : isBlank c = true) : c ∈ blankChars :=
  List.mem_map.2 ⟨c.toNat, Ranges.mem_points h, Char.ofNat_toNat c⟩

end Text

namespace Sql

/-- The characters of a word. -/
theorem exists_of_describes_word {w : List Char} (h : word.Describes w) :
    ∃ c tail, w = c :: tail ∧ letter.mem c = true ∧ ∀ d ∈ w, wordRest.mem d = true := by
  obtain ⟨c, tail, rfl, hc, htail⟩ := Pattern.describes_word_iff.1 h
  refine ⟨c, tail, rfl, hc, List.forall_mem_cons.2 ⟨?_, htail⟩⟩
  rw [wordRest, CharSet.mem_union, hc, Bool.true_or]

theorem ne_nil_of_describes_word {w : List Char} (h : word.Describes w) : w ≠ [] := by
  obtain ⟨c, tail, rfl, -⟩ := exists_of_describes_word h
  exact List.cons_ne_nil c tail

/-- A letter and characters of words make a word. -/
theorem describes_word {c : Char} {tail : List Char} (hc : letter.mem c = true)
    (htail : ∀ d ∈ tail, wordRest.mem d = true) : word.Describes (c :: tail) :=
  Pattern.describes_word_iff.2 ⟨c, tail, rfl, hc, htail⟩

/-- A text of letters is a word. -/
theorem describes_word_of_isAlpha {text : String} (hne : text ≠ "")
    (hletters : ∀ c ∈ text.toList, c.isAlpha = true) : word.Describes text.toList := by
  have hletter (c : Char) (hc : c ∈ text.toList) : letter.mem c = true :=
    Text.isAlphabetic_of_isAlpha (hletters c hc)
  cases hchars : text.toList with
  | nil => exact absurd (String.toList_eq_nil_iff.1 hchars) hne
  | cons c tail =>
    rw [hchars] at hletter
    obtain ⟨hc, htail⟩ := List.forall_mem_cons.1 hletter
    refine describes_word hc fun d hd => ?_
    rw [wordRest, CharSet.mem_union, htail d hd, Bool.true_or]

theorem not_mem_of_wordRest {chars : List Char} (h : (chars.all fun c => !wordRest.mem c) = true)
    {d : Char} (hd : wordRest.mem d = true) : d ∉ chars := by
  intro hmem
  have hnot := List.all_eq_true.1 h d hmem
  rw [hd] at hnot
  cases hnot

/-- A word has no blanks. -/
theorem not_isBlank_of_wordRest {d : Char} (hd : wordRest.mem d = true) :
    Text.isBlank d = false := by
  refine Bool.eq_false_iff.2 fun hblank => ?_
  exact not_mem_of_wordRest (by decide +kernel) hd (Text.mem_blankChars hblank)

end Sql

/-! ### Names -/

/-- The normal form of a word is its upper case. -/
theorem normalizeIdentifier_word {word : String} (h : Sql.word.Describes word.toList) :
    normalizeIdentifier word = Text.upper word := by
  obtain ⟨c, tail, hcons, -, hall⟩ := Sql.exists_of_describes_word h
  have htrim : Text.trimChars word.toList = word.toList :=
    Text.trimChars_eq_self fun d hd => Sql.not_isBlank_of_wordRest (hall d hd)
  have hquotes : betweenQuotes? word.toList = none := by
    unfold betweenQuotes?
    split
    · rename_i rest heq
      exact absurd (hall '"' (heq ▸ List.mem_cons_self)) (by decide)
    · rfl
  rw [normalizeIdentifier, htrim, hquotes]
  rfl

/-- A word of a script is a name of one part, the word in upper case. -/
theorem Name.parse_word {word : String} (h : Sql.word.Describes word.toList) :
    parse word = ⟨[Text.upper word]⟩ := by
  obtain ⟨c, tail, hcons, -, hall⟩ := Sql.exists_of_describes_word h
  have hpieces : ∀ w : List Char, (∀ d ∈ w, Sql.wordRest.mem d = true) →
      pieces false w = [w] := by
    intro w hw
    induction w with
    | nil => rfl
    | cons d w ih =>
      obtain ⟨hd, hw⟩ := List.forall_mem_cons.1 hw
      have hmarks : d ∉ ['.', '"'] := Sql.not_mem_of_wordRest (by decide) hd
      simp only [List.mem_cons, List.not_mem_nil, or_false, not_or] at hmarks
      rw [pieces, if_neg fun h => hmarks.1 h.1, if_neg hmarks.2, ih hw]
  have htrim : Text.trimChars word.toList = word.toList :=
    Text.trimChars_eq_self fun d hd => Sql.not_isBlank_of_wordRest (hall d hd)
  have hne : word.toList.isEmpty = false := by
    rw [hcons]
    rfl
  rw [parse, hpieces _ hall]
  dsimp only
  rw [htrim, hne, if_neg Bool.false_ne_true, String.ofList_toList, normalizeIdentifier_word h]

end SqlDoc

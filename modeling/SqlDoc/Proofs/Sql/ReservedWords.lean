/-
# The normal form of a reserved word is in the list

Words are looked up with the letters `a` to `z` as capitals, but have their upper case as normal form,
in which every letter may change. The words of the lists have characters of ASCII only, for which the
two are the same, so the normal form of a reserved token is one of the reserved words
(`lexSql_reserved`).

Key definition: `Text.IsAscii`.
Key theorems: `Text.upper_eq_asciiUpper`, `isAscii_of_classify`, `lexSql_word`, `lexSql_reserved`.
-/
import SqlDoc.Proofs.Sql.LineEnds

namespace SqlDoc

/-- The character is one of ASCII. -/
abbrev Text.IsAscii (c : Char) : Prop :=
  c.toNat < 128

namespace Text

/-- The upper case of a character of ASCII is its capital. -/
theorem upperChar_eq_toUpper {c : Char} (h : IsAscii c) : upperChar c = [c.toUpper] :=
  forall_char_lt (p := fun c => upperChar c = [c.toUpper]) (by decide +kernel) c h

theorem upper_eq_asciiUpper {text : String} (h : ∀ c ∈ text.toList, IsAscii c) :
    upper text = asciiUpper text := by
  unfold upper asciiUpper
  congr 1
  generalize text.toList = chars at h ⊢
  induction chars with
  | nil => rfl
  | cons c chars ih =>
    rw [List.flatMap_cons, upperChar_eq_toUpper (h _ List.mem_cons_self),
      ih fun d hd => h d (List.mem_cons_of_mem _ hd)]
    rfl

/-- A character outside ASCII is its own capital. -/
theorem toUpper_of_not_isAscii {c : Char} (h : ¬ IsAscii c) : c.toUpper = c := by
  unfold Char.toUpper
  refine dif_neg fun hlower => h ?_
  exact Nat.lt_of_le_of_lt (UInt32.le_iff_toNat_le.1 hlower.2) (by decide)

theorem isAscii_of_toUpper {c : Char} (h : IsAscii c.toUpper) : IsAscii c := by
  by_contra hc
  exact hc (toUpper_of_not_isAscii hc ▸ h)

end Text

open Text (IsAscii)

/-! ### Words that are in the lists -/

/-- The words of the lists are made of characters of ASCII. -/
theorem isAscii_of_listed {word : String}
    (h : word ∈ reservedWords ++ keywords ++ pseudoKeywords) : ∀ c ∈ word.toList, IsAscii c := by
  have hall : ((reservedWords ++ keywords ++ pseudoKeywords).all fun word =>
      word.toList.all fun c => c.toNat < 128) = true := by decide +kernel
  exact fun c hc => of_decide_eq_true (List.all_eq_true.1 (List.all_eq_true.1 hall word h) c hc)

/-- A word is looked up with its letters of ASCII as capitals. -/
theorem asciiUpper_mem_of_classify {text : String} {wordClass : WordClass}
    (h : classify text = some wordClass) :
    asciiUpper text ∈ reservedWords ++ keywords ++ pseudoKeywords := by
  unfold classify at h
  dsimp only at h
  simp only [List.mem_append]
  split at h
  · exact .inl (.inl (List.contains_iff_mem.1 ‹_›))
  · split at h
    · exact .inl (.inr (List.contains_iff_mem.1 ‹_›))
    · split at h
      · exact .inr (List.contains_iff_mem.1 ‹_›)
      · cases h

/-- A word with a class is made of characters of ASCII. -/
theorem isAscii_of_classify {text : String} {wordClass : WordClass}
    (h : classify text = some wordClass) : ∀ c ∈ text.toList, IsAscii c := by
  intro c hc
  refine Text.isAscii_of_toUpper (isAscii_of_listed (asciiUpper_mem_of_classify h) _ ?_)
  rw [asciiUpper, String.toList_ofList]
  exact List.mem_map_of_mem hc

theorem mem_reservedWords {text : String} (h : classify text = some .reserved) :
    asciiUpper text ∈ reservedWords := by
  unfold classify at h
  dsimp only at h
  split at h
  · exact List.contains_iff_mem.1 ‹_›
  · split at h
    · cases h
    · split at h <;> cases h

/-! ### Words in a script -/

/-- A word without quotes in a script is a raw word that has been looked up. -/
theorem lexSql_word {source : String} {filename : Option String} {t : SqlToken}
    (h : t ∈ (lexSql source filename).tokens) (hkind : t.kind.isWord = true) :
    ∃ raw : SqlToken, t = cookWord raw := by
  have hrules : (Sql.mainState.rules.all fun r => !r.kind.isWord) = true := rfl
  obtain ⟨before, after, hsplit⟩ := List.append_of_mem h
  obtain ⟨cut, hout, -, htokens, -⟩ := lexSql_cut hsplit
  rcases Sql.cooked_origin hout htokens with ⟨raw, next, hstep, rfl⟩ | ⟨hother, -⟩ | hother | hother
  · have hraw : raw.kind.isWord = false := by
      rcases hout.step_origin hstep with ⟨hunknown, -⟩ | ⟨r, hr, -, -, hsame, -⟩
      · rw [hunknown]
        rfl
      · rw [hsame]
        simpa using List.all_eq_true.1 hrules r hr
    refine ⟨raw, ?_⟩
    unfold cookOne at hkind ⊢
    split at hkind
    · rfl
    all_goals
      rw [hraw] at hkind
      cases hkind
  all_goals
    rw [hother] at hkind
    cases hkind

/-- The normal form of a reserved token of a script is a reserved word. -/
theorem lexSql_reserved {source : String} {filename : Option String} {t : SqlToken}
    (h : t ∈ (lexSql source filename).tokens) (hkind : t.kind = .reserved) :
    t.value ∈ reservedWords := by
  obtain ⟨raw, rfl⟩ := lexSql_word h (by rw [hkind]; rfl)
  have hclass : classify raw.text = some .reserved := by
    unfold cookWord at hkind
    dsimp only at hkind
    split at hkind
    · assumption
    · cases hkind
    · cases hkind
  show Text.upper raw.text ∈ reservedWords
  rw [Text.upper_eq_asciiUpper (isAscii_of_classify hclass)]
  exact mem_reservedWords hclass

end SqlDoc

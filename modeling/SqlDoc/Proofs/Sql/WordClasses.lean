/-
# The class of a word and the class of its upper case

The grammar knows a word by its upper case, but its kind comes from the lists, where it is looked up
with its letters `a` to `z` as capitals. Both agree on every word but one that has a letter outside
ASCII whose upper case is ASCII: there are ten of those (`Text.mem_becomesAscii`), among them the
dotless i, whose upper case is `I`. A word with such a letter is in no list. If its upper case is, the
grammar takes it for that word and for a name as well (`lexSql_wordClass`, `wordClass_dotless`).

Key definitions: `Text.becomesAscii`, `SqlKind.ofClass`.
Key theorems: `Text.mem_becomesAscii`, `classify_upper`, `classify_upper_iff`, `lexSql_wordClass`.
-/
import SqlDoc.Proofs.Sql.ReservedWords
import SqlDoc.Syntax.Statement

namespace SqlDoc

namespace Text

/-- The number of the character with a number. -/
theorem toNat_ofNat {n : Nat} (h : n.isValidChar) : (Char.ofNat n).toNat = n := by
  unfold Char.ofNat
  rw [dif_pos h]
  rfl

/-- The letters outside ASCII whose upper case is ASCII: the sharp s, the dotless i, the long s and
the ligatures of `f` and `s`. -/
def becomesAscii : List Char :=
  ['\u00DF', '\u0131', '\u017F', '\uFB00', '\uFB01', '\uFB02', '\uFB03', '\uFB04', '\uFB05',
    '\uFB06']

theorem not_isAscii_of_becomesAscii {c : Char} (h : c ∈ becomesAscii) : ¬ IsAscii c := by
  have hall : (becomesAscii.all fun c => 128 ≤ c.toNat) = true := by decide
  exact Nat.not_lt.2 (of_decide_eq_true (List.all_eq_true.1 hall c h))

/-- The runs lead to characters, and move no other letter into ASCII. -/
theorem mem_becomesAscii_of_lookup {c : Char} {n : Nat} (hc : ¬ IsAscii c)
    (h : CaseRun.lookup upperRuns c.toNat = some n) (hn : IsAscii (Char.ofNat n)) :
    c ∈ becomesAscii := by
  have hruns : (upperRuns.all fun run =>
      run.last < 128 || run.first = run.last && becomesAscii.contains (Char.ofNat run.first) ||
        128 ≤ (run.first : Int) + run.shift && (run.last : Int) + run.shift < 0xD800 ||
        0xDFFF < (run.first : Int) + run.shift && (run.last : Int) + run.shift < 0x110000) =
      true := by
    decide
  obtain ⟨run, hrun, ⟨hfirst, hlast⟩, rfl⟩ := CaseRun.exists_of_lookup h
  have hcheck := List.all_eq_true.1 hruns run hrun
  simp only [Bool.or_eq_true, Bool.and_eq_true, decide_eq_true_eq, List.contains_iff_mem] at hcheck
  have hfar (hvalid : ((c.toNat : Int) + run.shift).toNat.isValidChar)
      (hhigh : 128 ≤ ((c.toNat : Int) + run.shift).toNat) : c ∈ becomesAscii := by
    rw [IsAscii, toNat_ofNat hvalid] at hn
    omega
  rcases hcheck with ((hlow | ⟨hone, hmem⟩) | hnear) | hbeyond
  · exact absurd (Nat.lt_of_le_of_lt hlast hlow) hc
  · have hsame : c.toNat = run.first := by omega
    rwa [← hsame, Char.ofNat_toNat] at hmem
  · exact hfar (.inl (by omega)) (by omega)
  · exact hfar (.inr ⟨by omega, by omega⟩) (by omega)

/-- Of the letters that become several no other becomes letters of ASCII. -/
theorem mem_becomesAscii_of_expansion {c : Char} {image : List Nat}
    (h : upperExpansions.lookup c.toNat = some image)
    (himage : ∀ d ∈ image.map Char.ofNat, IsAscii d) : c ∈ becomesAscii := by
  have hexpansions : (upperExpansions.all fun e =>
      (e.2.map Char.ofNat).any (fun d => 128 ≤ d.toNat) ||
        becomesAscii.contains (Char.ofNat e.1)) = true := by
    decide
  obtain ⟨before, after, hsplit, -⟩ := List.lookup_eq_some_iff.1 h
  have hmem : (c.toNat, image) ∈ upperExpansions := by
    rw [hsplit]
    exact List.mem_append_right _ List.mem_cons_self
  rcases Bool.or_eq_true_iff.1 (List.all_eq_true.1 hexpansions _ hmem) with hany | hlisted
  · obtain ⟨d, hd, hhigh⟩ := List.any_eq_true.1 hany
    exact absurd (himage d hd) (Nat.not_lt.2 (of_decide_eq_true hhigh))
  · rw [Char.ofNat_toNat] at hlisted
    exact List.contains_iff_mem.1 hlisted

/-- The ten letters are all that are not in ASCII and have an upper case there. -/
theorem mem_becomesAscii {c : Char} :
    c ∈ becomesAscii ↔ ¬ IsAscii c ∧ ∀ d ∈ upperChar c, IsAscii d := by
  constructor
  · intro h
    have hall : (becomesAscii.all fun c => (upperChar c).all fun d => d.toNat < 128) = true := by
      decide +kernel
    exact ⟨not_isAscii_of_becomesAscii h, fun d hd =>
      of_decide_eq_true (List.all_eq_true.1 (List.all_eq_true.1 hall c h) d hd)⟩
  · rintro ⟨hc, hupper⟩
    unfold upperChar caseMap at hupper
    split at hupper
    · exact mem_becomesAscii_of_lookup hc ‹_› (hupper _ List.mem_cons_self)
    · split at hupper
      · exact mem_becomesAscii_of_expansion ‹_› hupper
      · exact absurd (hupper c List.mem_cons_self) hc

end Text

open Text (IsAscii becomesAscii)

/-! ### Classes -/

/-- The kind of a word, by its class. -/
def SqlKind.ofClass : Option WordClass → SqlKind
  | some .reserved => reserved
  | some .keyword => keyword
  | some .pseudo | none => identifier

theorem Text.asciiUpper_asciiUpper (text : String) :
    asciiUpper (asciiUpper text) = asciiUpper text := by
  have hupper (c : Char) : c.toUpper.toUpper = c.toUpper := by
    by_cases hc : IsAscii c
    · exact forall_char_lt (p := fun c => c.toUpper.toUpper = c.toUpper) (by decide) c hc
    · rw [Text.toUpper_of_not_isAscii hc, Text.toUpper_of_not_isAscii hc]
  unfold asciiUpper
  rw [String.toList_ofList, List.map_map]
  congr 2
  exact funext hupper

/-- A word of ASCII is found under its upper case. -/
theorem classify_upper_of_isAscii {text : String} (h : ∀ c ∈ text.toList, IsAscii c) :
    classify (Text.upper text) = classify text := by
  rw [Text.upper_eq_asciiUpper h]
  unfold classify
  rw [Text.asciiUpper_asciiUpper]

/-- A word is found under its upper case, unless it has one of the ten letters. -/
theorem classify_upper {text : String} (h : ∀ c ∈ text.toList, c ∉ becomesAscii) :
    classify (Text.upper text) = classify text := by
  by_cases hascii : ∀ c ∈ text.toList, IsAscii c
  · exact classify_upper_of_isAscii hascii
  · obtain ⟨c, hc, hother⟩ : ∃ c ∈ text.toList, ¬ IsAscii c := by simpa using hascii
    have hnone : classify text = none := by
      cases hclass : classify text with
      | none => rfl
      | some => exact absurd (isAscii_of_classify hclass c hc) hother
    obtain ⟨d, hd, hbeyond⟩ : ∃ d ∈ Text.upperChar c, ¬ IsAscii d := by
      simpa [Text.mem_becomesAscii, hother] using h c hc
    rw [hnone]
    cases hclass : classify (Text.upper text) with
    | none => rfl
    | some =>
      refine absurd (isAscii_of_classify hclass d ?_) hbeyond
      rw [Text.upper, String.toList_ofList]
      exact List.mem_flatMap.2 ⟨c, hc, hd⟩

/-- A word with one of the ten letters is in no list. -/
theorem classify_of_becomesAscii {text : String} {c : Char} (hc : c ∈ text.toList)
    (h : c ∈ becomesAscii) : classify text = none := by
  cases hclass : classify text with
  | none => rfl
  | some => exact absurd (isAscii_of_classify hclass c hc) (Text.not_isAscii_of_becomesAscii h)

/-- A word and its upper case have one class, unless the word has one of the ten letters and its
upper case is in a list. -/
theorem classify_upper_iff {text : String} :
    classify text = classify (Text.upper text) ↔
      classify (Text.upper text) = none ∨ ∀ c ∈ text.toList, c ∉ becomesAscii := by
  constructor
  · intro h
    by_cases hplain : ∀ c ∈ text.toList, c ∉ becomesAscii
    · exact .inr hplain
    · obtain ⟨c, hc, hbecomes⟩ : ∃ c ∈ text.toList, c ∈ becomesAscii := by simpa using hplain
      exact .inl (h ▸ classify_of_becomesAscii hc hbecomes)
  · rintro (hnone | hplain)
    · cases hclass : classify text with
      | none => exact hnone.symm
      | some wordClass =>
        rw [← hclass]
        exact (classify_upper_of_isAscii (isAscii_of_classify hclass)).symm
    · exact (classify_upper hplain).symm

/-! ### Words as the grammar sees them -/

namespace GrammarRule

variable (s : ParseState) (n : Nat)

/-- A question about a token ahead is answered by its glance. -/
theorem run_at? (p : Glance → Bool) :
    ((at? n p).run s).1 = .ok ((s.key n).1.any fun t => p t.glance) := by
  show Except.ok (((s.key n).1.map Token.glance).any p) = _
  rw [Option.any_map]

/-- A token is known as a word by its normal form. -/
theorem run_atWord {t : SqlToken} (ht : (s.key n).1 = some t) (word : String) :
    ((atWord n word).run s).1 = .ok (t.kind.isWord && t.value = word) := by
  rw [atWord, atAnyWord, run_at?, ht]
  simp [Token.glance]

theorem run_atName {t : SqlToken} (ht : (s.key n).1 = some t) :
    ((atName n).run s).1 = .ok t.kind.isName := by
  rw [atName, run_at?, ht]
  rfl

end GrammarRule

/-- A word of a script has the kind of the class of its text, and its class is that of its normal
form unless it has one of the ten letters and its normal form is in a list. So without such a letter
a word that the grammar takes for `word` has the kind of the class of `word`, and if that is reserved
it is not taken for a name. With such a letter a word is always taken for a name. -/
theorem lexSql_wordClass {source : String} {filename : Option String} {t : SqlToken}
    (h : t ∈ (lexSql source filename).tokens) (hword : t.kind.isWord = true) :
    let plain := ∀ c ∈ t.text.toList, c ∉ becomesAscii
    t.kind = .ofClass (classify t.text) ∧
      (classify t.text = classify t.value ↔ classify t.value = none ∨ plain) ∧
      ∀ (s : ParseState) (n : Nat), (s.key n).1 = some t →
        (plain → ∀ word, ((GrammarRule.atWord n word).run s).1 = .ok true →
          t.kind = .ofClass (classify word) ∧
            (isReserved word → ((GrammarRule.atName n).run s).1 = .ok false)) ∧
        (¬ plain → ((GrammarRule.atName n).run s).1 = .ok true) := by
  intro plain
  obtain ⟨raw, rfl⟩ := lexSql_word h hword
  have hkind : (cookWord raw).kind = .ofClass (classify raw.text) := by
    unfold cookWord
    cases classify raw.text with
    | none => rfl
    | some wordClass => cases wordClass <;> rfl
  refine ⟨hkind, classify_upper_iff, fun s n hkey => ⟨fun hplain word hat => ?_, fun hother => ?_⟩⟩
  · have hvalue : Text.upper raw.text = word := by
      rw [GrammarRule.run_atWord s n hkey, Except.ok.injEq, Bool.and_eq_true,
        decide_eq_true_eq] at hat
      exact hat.2
    have hclass : classify raw.text = classify word := by
      rw [← hvalue]
      exact (classify_upper hplain).symm
    refine ⟨hclass ▸ hkind, fun hreserved => ?_⟩
    have hreserved : classify word = some .reserved := beq_iff_eq.1 hreserved
    rw [GrammarRule.run_atName s n hkey, hkind, hclass, hreserved]
    rfl
  · have hother : ¬ ∀ c ∈ raw.text.toList, c ∉ becomesAscii := hother
    obtain ⟨c, hc, hbecomes⟩ : ∃ c ∈ raw.text.toList, c ∈ becomesAscii := by simpa using hother
    rw [GrammarRule.run_atName s n hkey, hkind, classify_of_becomesAscii hc hbecomes]
    rfl

/-- In `is`, the grammar finds the reserved word and no name. -/
theorem lexSql_wordClass_is :
    ∃ t ∈ (lexSql "is").tokens, t.kind.isWord = true ∧
      ∃ s : ParseState, (s.key 0).1 = some t ∧
        ((GrammarRule.atWord 0 "IS").run s).1 = .ok true ∧ t.kind = .reserved ∧
        ((GrammarRule.atName 0).run s).1 = .ok false := by
  let t : SqlToken :=
    { kind := .reserved
      text := "is"
      value := "IS"
      span := .between ⟨1, 1, none⟩ ⟨1, 3, none⟩ }
  let s : ParseState := .ofLexed (lexSql "is")
  have ht : t ∈ (lexSql "is").tokens := by decide +kernel
  have hkey : (s.key 0).1 = some t := by decide +kernel
  have hplain : ∀ c ∈ t.text.toList, c ∉ becomesAscii := by
    have hall : (t.text.toList.all fun c => !becomesAscii.contains c) = true := by decide
    simpa using hall
  have hat : ((GrammarRule.atWord 0 "IS").run s).1 = .ok true := by decide +kernel
  have hclass : classify "IS" = some .reserved := by decide
  obtain ⟨hkind, hname⟩ := ((lexSql_wordClass ht rfl).2.2 s 0 hkey).1 hplain "IS" hat
  rw [hclass] at hkind
  exact ⟨t, ht, rfl, s, hkey, hat, hkind, hname (beq_iff_eq.2 hclass)⟩

/-- A word with the dotless i is in no list, but its upper case is `IS`: the grammar takes it for the
reserved word and for a name as well. -/
theorem wordClass_dotless :
    ∃ t ∈ (lexSql "\u0131s").tokens, t.kind.isWord = true ∧ t.value = "IS" ∧
      classify t.text = none ∧ classify t.value = some .reserved ∧
      ∃ s : ParseState, (s.key 0).1 = some t ∧
        ((GrammarRule.atWord 0 "IS").run s).1 = .ok true ∧
        ((GrammarRule.atName 0).run s).1 = .ok true := by
  let t : SqlToken :=
    { kind := .identifier
      text := "\u0131s"
      value := "IS"
      span := .between ⟨1, 1, none⟩ ⟨1, 3, none⟩ }
  refine ⟨t, by decide +kernel, rfl, rfl, by decide +kernel, by decide +kernel,
    .ofLexed (lexSql "\u0131s"), by decide +kernel, by decide +kernel, by decide +kernel⟩

end SqlDoc

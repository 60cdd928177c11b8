/-
# How tokens are spelled

A token that is no comment and no stray character was read by one of the rules, so its kind tells
how it is spelled (`lexSql_rule`). A mark such as a dot or a comma is spelled in one way
(`lexSql_mark`). What can name a declaration is a word or a text in double quotes, and its normal
form is the normal form of its text as a part of a name (`lexSql_name`).

Key definitions: `Sql.IsNameText`, `SqlKind.mark?`.
Key theorems: `lexSql_rule`, `lexSql_mark`, `lexSql_number`, `lexSql_name`.
-/
import SqlDoc.Proofs.Sql.Quotes
import SqlDoc.Proofs.Sql.ReservedWords
import SqlDoc.Proofs.Sql.Words

namespace SqlDoc

variable {source : String} {filename : Option String} {t : SqlToken}

/-! ### The rule of a token -/

/-- Tokens of the kind are read by rules. -/
def SqlKind.isRuled (kind : SqlKind) : Bool :=
  !kind.isComment && kind ≠ .unknown

/-- A token of a script is read by a rule if its kind is one of those. -/
theorem lexSql_rule (h : t ∈ (lexSql source filename).tokens) (hkind : t.kind.isRuled = true) :
    ∃ raw : SqlToken, t = cookOne raw ∧ ∃ r ∈ Sql.mainState.rules, raw.kind = r.kind ∧
      ∃ text stop, r.matcher.tokenEnd? text = some stop ∧
        raw.text.toList = text.take stop.seen := by
  obtain ⟨before, after, hsplit⟩ := List.append_of_mem h
  obtain ⟨cut, hout, -, htokens, -⟩ := lexSql_cut hsplit
  rcases Sql.cooked_origin hout htokens with ⟨raw, next, hstep, rfl⟩ | ⟨hother, -⟩ | hother | hother
  · rcases hout.step_origin hstep with ⟨hunknown, -⟩ | ⟨r, hr, stop, hstop, hsame, htext⟩
    · have hcooked : (cookOne raw).kind = .unknown := by
        rw [cookOne, hunknown]
        exact hunknown
      rw [hcooked] at hkind
      cases hkind
    · refine ⟨raw, rfl, r, hr, hsame, cut.rest, stop, hstop, ?_⟩
      rw [htext, String.toList_ofList]
  all_goals
    rw [hother] at hkind
    cases hkind

/-! ### Marks -/

/-- The one spelling of the kinds that have one. -/
def SqlKind.mark? : SqlKind → Option Char
  | lparen => some '('
  | rparen => some ')'
  | comma => some ','
  | semicolon => some ';'
  | dot => some '.'
  | _ => none

namespace Sql

/-- The rule for a mark reads nothing else. -/
theorem mainRules_mark {r : Rule SqlKind Matcher (Fin 3)} (h : r ∈ mainState.rules) {c : Char}
    (hmark : r.kind.mark? = some c) : r.matcher = .literal [c] := by
  have hmarks : mainState.rules.filter (fun r => r.kind.mark?.isSome) =
      [spelling .lparen "(", spelling .rparen ")", spelling .comma ",", spelling .semicolon ";",
        spelling .dot "."] := rfl
  have hr : r ∈ mainState.rules.filter (fun r => r.kind.mark?.isSome) :=
    List.mem_filter.2 ⟨h, by rw [hmark]; rfl⟩
  rw [hmarks] at hr
  simp only [List.mem_cons, List.not_mem_nil, or_false] at hr
  rcases hr with rfl | rfl | rfl | rfl | rfl <;>
    exact congrArg (fun c => Matcher.literal [c]) (Option.some.inj hmark)

/-- Where a kind has one rule, its tokens are read by the pattern of the rule. -/
theorem mainRules_pattern {kind : SqlKind} {p : Pattern}
    (hrules : mainState.rules.filter (fun r => r.kind = kind) = [rule kind p])
    {r : Rule SqlKind Matcher (Fin 3)} (h : r ∈ mainState.rules) (hkind : r.kind = kind) :
    r.matcher = .pattern p := by
  have hr : r ∈ mainState.rules.filter (fun r => r.kind = kind) :=
    List.mem_filter.2 ⟨h, decide_eq_true hkind⟩
  rw [hrules] at hr
  rw [List.mem_singleton.1 hr]
  rfl

theorem mainRules_not_isWord {r : Rule SqlKind Matcher (Fin 3)} (h : r ∈ mainState.rules) :
    r.kind.isWord = false := by
  have hall : (mainState.rules.all fun r => !r.kind.isWord) = true := rfl
  simpa using List.all_eq_true.1 hall r h

theorem kind_of_cookOne {raw : SqlToken} (h : raw.kind ≠ .word) :
    (cookOne raw).kind = raw.kind := by
  unfold cookOne
  split
  · exact absurd ‹_› h
  all_goals rfl

theorem isWord_cookOne {raw : SqlToken} (h : raw.kind = .word) :
    (cookOne raw).kind.isWord = true := by
  rcases cookOne_kind raw with hword | ⟨-, hnot⟩
  · exact hword
  · exact absurd h hnot

end Sql

theorem lexSql_mark (h : t ∈ (lexSql source filename).tokens) {c : Char}
    (hmark : t.kind.mark? = some c) : t.text.toList = [c] := by
  have hkinds : t.kind.isRuled = true ∧ t.kind.isWord = false := by
    revert hmark
    cases t.kind <;> simp [SqlKind.mark?, SqlKind.isRuled, SqlKind.isComment, SqlKind.isWord]
  obtain ⟨raw, rfl, r, hr, hkind, text, stop, hstop, htext⟩ := lexSql_rule h hkinds.1
  have hraw : raw.kind ≠ .word := fun hword => by
    rw [Sql.isWord_cookOne hword] at hkinds
    cases hkinds.2
  rw [Sql.kind_of_cookOne hraw, hkind] at hmark
  rw [Sql.mainRules_mark hr hmark] at hstop
  rw [Sql.cookOne_text, htext, Matcher.take_of_literal hstop]

/-! ### Words and numbers -/

theorem lexSql_describes_word (h : t ∈ (lexSql source filename).tokens)
    (hkind : t.kind.isWord = true) : Sql.word.Describes t.text.toList := by
  have hruled : t.kind.isRuled = true := by
    revert hkind
    cases t.kind <;> simp [SqlKind.isWord, SqlKind.isRuled, SqlKind.isComment]
  obtain ⟨raw, rfl, r, hr, hsame, text, stop, hstop, htext⟩ := lexSql_rule h hruled
  have hraw : raw.kind = .word := by
    by_contra hother
    rw [Sql.kind_of_cookOne hother, hsame, Sql.mainRules_not_isWord hr] at hkind
    cases hkind
  have hwords : Sql.mainState.rules.filter (fun r => r.kind = .word) =
      [Sql.rule .word Sql.word] := rfl
  rw [Sql.mainRules_pattern hwords hr (hsame.symm.trans hraw)] at hstop
  rw [Sql.cookOne_text, htext]
  exact Matcher.describes_of_pattern hstop

/-- There is no blank in a number. -/
theorem lexSql_number (h : t ∈ (lexSql source filename).tokens) (hkind : t.kind = .number) :
    ∀ c ∈ t.text.toList, Text.isBlank c = false := by
  obtain ⟨raw, rfl, r, hr, hsame, text, stop, hstop, htext⟩ := lexSql_rule h (by rw [hkind]; rfl)
  have hraw : raw.kind ≠ .word := fun hword => by
    have hcooked := Sql.isWord_cookOne hword
    rw [hkind] at hcooked
    cases hcooked
  rw [Sql.kind_of_cookOne hraw, hsame] at hkind
  have hnumbers : Sql.mainState.rules.filter (fun r => r.kind = .number) =
      [Sql.rule .number Sql.number] := rfl
  rw [Sql.mainRules_pattern hnumbers hr hkind] at hstop
  rw [Sql.cookOne_text, htext]
  have hblanks : (Text.blankChars.all fun c => !Sql.number.mayContain c) = true := by
    decide +kernel
  intro c hc
  refine Bool.eq_false_iff.2 fun hblank => ?_
  have hnot := List.all_eq_true.1 hblanks c (Text.mem_blankChars hblank)
  rw [(Matcher.describes_of_pattern hstop).mayContain hc] at hnot
  cases hnot

/-! ### Names -/

namespace Sql

/-- The text is a word or stands in double quotes. -/
def IsNameText (text : List Char) : Prop :=
  word.Describes text ∨ (quoted '"').Describes text

/-- A text in quotes begins with one and goes on with other characters and pairs of quotes up to
the last. -/
theorem exists_of_describes_quoted {quote : Char} {text : List Char}
    (h : (quoted quote).Describes text) :
    ∃ inner, text = quote :: (inner ++ [quote]) ∧
      (inner = [] ∨ (Pattern.many (Pattern.betweenQuotes quote)).Describes inner) := by
  have hpattern : quoted quote = .seq (.set (.single quote))
      (.seq (.star (Pattern.betweenQuotes quote)) (.set (.single quote))) := by
    rw [quoted, Pattern.literal_pair]
    rfl
  rw [hpattern] at h
  cases h with
  | seq hopen hrest =>
    cases hrest with
    | @seq _ _ inner _ hinner hclose =>
      rw [hopen.eq_of_single, hclose.eq_of_single]
      refine ⟨inner, rfl, ?_⟩
      cases hinner with
      | left hinner => exact .inr hinner
      | right hnone =>
        cases hnone
        exact .inl rfl

/-- A text that names something does not begin with a blank. -/
theorem IsNameText.exists_cons {text : List Char} (h : IsNameText text) :
    ∃ c tail, text = c :: tail ∧ Text.isBlank c = false := by
  rcases h with hword | hquoted
  · obtain ⟨c, tail, rfl, -, hall⟩ := exists_of_describes_word hword
    exact ⟨c, tail, rfl, not_isBlank_of_wordRest (hall c List.mem_cons_self)⟩
  · obtain ⟨inner, rfl, -⟩ := exists_of_describes_quoted hquoted
    exact ⟨'"', inner ++ ['"'], rfl, by decide⟩

end Sql

/-- A token that can name a declaration is spelled as a part of a name, and its normal form is that
of the part. -/
theorem lexSql_name (h : t ∈ (lexSql source filename).tokens) (hkind : t.kind.isName = true) :
    Sql.IsNameText t.text.toList ∧ t.value = normalizeIdentifier t.text := by
  cases hword : t.kind.isWord with
  | true =>
    obtain ⟨raw, rfl⟩ := lexSql_word h hword
    have hdescribes := lexSql_describes_word h hword
    exact ⟨.inl hdescribes, (normalizeIdentifier_word hdescribes).symm⟩
  | false =>
    have hquoted : t.kind = .quotedIdentifier := by
      revert hkind hword
      cases t.kind <;> simp [SqlKind.isName, SqlKind.isWord]
    obtain ⟨raw, rfl, r, hr, hsame, text, stop, hstop, htext⟩ :=
      lexSql_rule h (by rw [hquoted]; rfl)
    have hraw : raw.kind ≠ .word := fun hraw => by
      rw [Sql.isWord_cookOne hraw] at hword
      cases hword
    rw [Sql.kind_of_cookOne hraw] at hquoted
    have hnames : Sql.mainState.rules.filter (fun r => r.kind = .quotedIdentifier) =
        [Sql.rule .quotedIdentifier (Sql.quoted '"')] := rfl
    rw [Sql.mainRules_pattern hnames hr (hsame.symm.trans hquoted)] at hstop
    refine ⟨.inr ?_, ?_⟩
    · rw [Sql.cookOne_text, htext]
      exact Matcher.describes_of_pattern hstop
    · rw [Sql.cookOne_text, cookOne, hquoted]

end SqlDoc

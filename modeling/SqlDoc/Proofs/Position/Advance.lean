/-
# Moving over a text in pieces

A position moves over a text piece by piece, unless a cut falls between the two characters of
`\r\n`: the pieces would then end two lines where the text ends one. Over every other cut the moves
compose (`advance_append`), so a lexer that adds up its tokens is at the place that its text says.

A text that is not empty moves a position forward (`before_advance`), so the spans of pieces in a
row merge to the span of the whole (`merge_between`).

Key definitions: `Text.SplitsLineEnd`, `Position.nextLine`, `Position.nextColumn`.
Key theorems: `Position.advance_append`, `Position.before_advance`, `Span.merge_between`.
-/
import SqlDoc.Position

namespace SqlDoc

namespace Text

/-- A cut between the two texts falls inside a `\r\n`. -/
def SplitsLineEnd (first second : List Char) : Prop :=
  first.getLast? = some '\r' ∧ second.head? = some '\n'

instance (first second : List Char) : Decidable (SplitsLineEnd first second) :=
  inferInstanceAs (Decidable (_ ∧ _))

theorem not_splitsLineEnd_nil (second : List Char) : ¬ SplitsLineEnd [] second := by
  rintro ⟨h, -⟩
  cases h

theorem splitsLineEnd_cons_cons (c d : Char) (first second : List Char) :
    SplitsLineEnd (c :: d :: first) second ↔ SplitsLineEnd (d :: first) second := by
  rw [SplitsLineEnd, List.getLast?_cons_cons]
  rfl

/-- Only the end of the first text matters. -/
theorem splitsLineEnd_of_append {front first second : List Char} (hne : first ≠ [])
    (h : SplitsLineEnd (front ++ first) second) : SplitsLineEnd first second := by
  refine ⟨?_, h.2⟩
  rw [← h.1, List.getLast?_append, List.getLast?_eq_some_getLast hne]
  rfl

/-- Only the start of the second text matters. -/
theorem splitsLineEnd_append_right {first second : List Char} (rest : List Char)
    (h : SplitsLineEnd first second) : SplitsLineEnd first (second ++ rest) := by
  refine ⟨h.1, ?_⟩
  rw [List.head?_append, h.2]
  rfl

/-- Only a line feed after a carriage return is half of a line end. -/
theorem not_splitsLineEnd_of_alone {c : Char} {rest : List Char}
    (h : ∀ tail, c = '\r' → rest = '\n' :: tail → False) : ¬ SplitsLineEnd [c] rest := by
  rintro ⟨h1, h2⟩
  cases rest with
  | nil => cases h2
  | cons d tail => exact h tail (Option.some.inj h1) (by rw [Option.some.inj h2])

end Text

namespace Position

open Text

/-- The start of the line below. -/
def nextLine (p : Position) : Position :=
  { p with line := p.line + 1, column := 1 }

/-- The next place on the line. -/
def nextColumn (p : Position) : Position :=
  { p with column := p.column + 1 }

/-! ### One character at a time -/

theorem advance_cons_line (p : Position) (lines : List (List Char)) {text rest : List Char}
    (htext : splitLines text = [] :: lines) (hrest : splitLines rest = lines) :
    p.advance text = p.nextLine.advance rest := by
  have hne := splitLines_ne_nil rest
  rw [advance, advance, htext, hrest]
  rw [hrest] at hne
  obtain ⟨line, lines, rfl⟩ := List.exists_cons_of_ne_nil hne
  cases lines with
  | nil => simp [nextLine]
  | cons next more =>
    simp only [nextLine, List.length_cons, List.getLastD_cons]
    rw [Position.mk.injEq]
    exact ⟨by omega, rfl, rfl⟩

/-- The two characters of `\r\n` are one step. -/
theorem advance_return_feed (p : Position) (rest : List Char) :
    p.advance ('\r' :: '\n' :: rest) = p.nextLine.advance rest :=
  p.advance_cons_line _ (splitLines.eq_2 rest) rfl

/-- Any other line end is one, too. -/
theorem advance_lineEnd (p : Position) {c : Char} {rest : List Char} (hc : isLineEnd c = true)
    (hcut : ¬ SplitsLineEnd [c] rest) : p.advance (c :: rest) = p.nextLine.advance rest := by
  refine p.advance_cons_line _ ?_ rfl
  rw [splitLines.eq_3, if_pos hc]
  rintro tail rfl rfl
  exact hcut ⟨rfl, rfl⟩

/-- A character that ends no line moves the column. -/
theorem advance_cons (p : Position) {c : Char} (rest : List Char) (hc : isLineEnd c = false) :
    p.advance (c :: rest) = p.nextColumn.advance rest := by
  have hsplit : splitLines (c :: rest) = consLine c (splitLines rest) := by
    rw [splitLines.eq_3, if_neg (by simp [hc])]
    rintro tail rfl rfl
    exact absurd hc (by decide)
  obtain ⟨line, lines, hlines⟩ := List.exists_cons_of_ne_nil (splitLines_ne_nil rest)
  rw [advance, advance, hsplit, hlines]
  cases lines with
  | nil =>
    simp only [consLine, nextColumn, List.length_cons, Position.mk.injEq]
    exact ⟨trivial, by omega, trivial⟩
  | cons next more => simp [consLine, nextColumn, List.getLast?_cons]

/-! ### Moves compose -/

/-- A move over two texts is a move over the first and then over the second, unless the cut between
them falls inside a line end. -/
theorem advance_append (p : Position) {first second : List Char}
    (hcut : ¬ SplitsLineEnd first second) :
    p.advance (first ++ second) = (p.advance first).advance second := by
  induction first using splitLines.induct generalizing p with
  | case1 => rfl
  | case2 rest ih =>
    simp only [List.cons_append, advance_return_feed]
    refine ih _ fun h => hcut ?_
    exact ⟨by rw [List.getLast?_cons_cons, List.getLast?_cons, h.1]; rfl, h.2⟩
  | case3 c rest hcrlf hc ih =>
    rw [List.cons_append]
    cases rest with
    | nil =>
      rw [List.nil_append, p.advance_lineEnd hc hcut,
        p.advance_lineEnd hc fun h => absurd h.2 (by simp), advance_nil]
    | cons d rest =>
      have hd : ¬ SplitsLineEnd [c] (d :: rest) := by
        rintro ⟨h1, h2⟩
        simp only [List.getLast?_singleton, Option.some.injEq] at h1
        simp only [List.head?_cons, Option.some.injEq] at h2
        exact hcrlf rest h1 (by rw [h2])
      have hd' : ¬ SplitsLineEnd [c] (d :: rest ++ second) := fun h => hd ⟨h.1, h.2⟩
      rw [p.advance_lineEnd hc hd, p.advance_lineEnd hc hd']
      exact ih _ fun h => hcut ((splitsLineEnd_cons_cons c d rest second).2 h)
  | case4 c rest hcrlf hc ih =>
    have hc : isLineEnd c = false := by simpa using hc
    rw [List.cons_append, p.advance_cons _ hc, p.advance_cons _ hc]
    cases rest with
    | nil => rfl
    | cons d rest => exact ih _ fun h => hcut ((splitsLineEnd_cons_cons c d rest second).2 h)

/-! ### Moves go forward -/

/-- A text moves a position to a line below, or along its line by the length of the text. -/
theorem advance_forward (p : Position) (text : List Char) :
    p.line < (p.advance text).line ∨
      (p.advance text).line = p.line ∧ (p.advance text).column = p.column + text.length := by
  induction text using splitLines.induct generalizing p with
  | case1 => exact Or.inr ⟨rfl, rfl⟩
  | case2 rest ih =>
    rw [advance_return_feed]
    have := ih p.nextLine
    simp only [nextLine] at this ⊢
    omega
  | case3 c rest hcrlf hc ih =>
    rw [p.advance_lineEnd hc (not_splitsLineEnd_of_alone hcrlf)]
    have := ih p.nextLine
    simp only [nextLine] at this ⊢
    omega
  | case4 c rest hcrlf hc ih =>
    rw [p.advance_cons _ (by simpa using hc)]
    have := ih p.nextColumn
    simp only [nextColumn, List.length_cons] at this ⊢
    omega

/-- A text with a line end in it moves a position to a line below. -/
theorem line_lt_advance (p : Position) {text : List Char}
    (h : ∃ c ∈ text, isLineEnd c = true) : p.line < (p.advance text).line := by
  obtain ⟨c, hc, hend⟩ := h
  induction text using splitLines.induct generalizing p with
  | case1 => cases hc
  | case2 rest ih =>
    have := p.nextLine.advance_forward rest
    rw [advance_return_feed]
    simp only [nextLine] at this ⊢
    omega
  | case3 d rest hcrlf hd ih =>
    have := p.nextLine.advance_forward rest
    rw [p.advance_lineEnd hd (not_splitsLineEnd_of_alone hcrlf)]
    simp only [nextLine] at this ⊢
    omega
  | case4 d rest hcrlf hd ih =>
    have hd : isLineEnd d = false := by simpa using hd
    have hne : c ≠ d := by
      rintro rfl
      rw [hd] at hend
      cases hend
    rw [p.advance_cons _ hd]
    exact ih p.nextColumn ((List.mem_cons.1 hc).resolve_left hne)

/-- A text that is not empty moves a position forward. -/
theorem before_advance (p : Position) {text : List Char} (h : text ≠ []) :
    p.before (p.advance text) = true := by
  have hpos : 0 < text.length := List.length_pos_iff.2 h
  have := p.advance_forward text
  simp only [before, Bool.or_eq_true, Bool.and_eq_true, decide_eq_true_eq, beq_iff_eq]
  omega

/-- What does not come before a position does not do so further on. -/
theorem not_before_of_before {p q r : Position} (hpq : q.before p = false)
    (hqr : q.before r = true) : r.before p = false := by
  simp only [before, Bool.or_eq_true, Bool.and_eq_true, Bool.or_eq_false_iff,
    Bool.and_eq_false_imp, decide_eq_true_eq, decide_eq_false_iff_not, beq_iff_eq] at *
  refine ⟨by omega, fun h => ?_⟩
  have := hpq.2
  omega

end Position

namespace Span

/-- The spans of two pieces in a row merge to the span from the first's start to the second's
end. -/
theorem merge_between {p q r : Position} (hpq : q.before p = false) (hqr : q.before r = true)
    (hfile : q.filename = p.filename) : (between p q).merge (between q r) = between p r := by
  simp only [merge, between, hpq, hqr, hfile, Option.or_self, Bool.false_eq_true, if_false,
    if_true]

end Span
end SqlDoc

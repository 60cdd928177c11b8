/-
# Lines without decoration

Stars at the start of a line, behind its indentation, are decoration. What a text says is what its
lines say without it, each trimmed and without the blank lines at the ends (`Text.proseText`). A
reader that goes over the text piece by piece meets line ends, indentation, decoration and what the
lines say one after the other, so the text without decoration is computed piece by piece, too
(`Text.bareText`).

Key definitions: `Text.proseText`, `Text.bareText`.
Key theorems: `Text.bareText_lineEnd`, `Text.bareText_stars`, `Text.tidyLines_bareText`.
-/
import Mathlib.Data.List.DropRight
import SqlDoc.Text.Lines

namespace SqlDoc.Text

/-- The line without its indentation and the stars behind that. -/
def undecorated (line : List Char) : List Char :=
  (line.dropWhile isBlank).dropWhile (· = '*')

/-- What each line of a text says. -/
def proseLines (text : List Char) : List (List Char) :=
  (splitLines text).map fun line => trimChars (undecorated line)

/-- What a text says: what its lines say, without the blank lines at the ends. -/
def proseText (text : List Char) : List Char :=
  joinLines (dropTrailing List.isEmpty ((proseLines text).dropWhile List.isEmpty))

/-- The line without decoration, but with its indentation. -/
def bareLine (line : List Char) : List Char :=
  line.takeWhile isBlank ++ undecorated line

/-- The lines of a text without decoration. Without `lineStart` the first of them has begun. -/
def bareLines (lineStart : Bool) (text : List Char) : List (List Char) :=
  match splitLines text with
  | [] => []
  | first :: rest => (if lineStart then bareLine first else first) :: rest.map bareLine

/-- The text without decoration, a line feed for each line end. -/
def bareText (lineStart : Bool) (text : List Char) : List Char :=
  joinLines (bareLines lineStart text)

variable {text piece more line : List Char} {lines : List (List Char)} {lineStart : Bool}

/-! ### Blanks at the ends -/

theorem trimChars_append {blanks : List Char} (h : ∀ c ∈ blanks, isBlank c = true) :
    trimChars (blanks ++ text) = trimChars text :=
  congrArg (dropTrailing isBlank) (List.dropWhile_append_of_pos h)

theorem trimChars_concat {c : Char} (hc : isBlank c = true) :
    trimChars (text ++ [c]) = trimChars text := by
  rw [trimChars, trimChars, List.dropWhile_append]
  split
  · rename_i hempty
    rw [List.isEmpty_iff.1 hempty, List.dropWhile_cons_of_pos hc, List.dropWhile_nil]
  · exact List.rdropWhile_concat_pos isBlank _ c hc

/-- Where no blank is, none is trimmed away. -/
theorem trimChars_eq_self (h : ∀ c ∈ text, isBlank c = false) : trimChars text = text := by
  have hfront : text.dropWhile isBlank = text :=
    List.dropWhile_eq_self_iff.2 fun hlength => Bool.eq_false_iff.1 (h _ (List.getElem_mem hlength))
  rw [trimChars, hfront]
  exact List.rdropWhile_eq_self_iff.2 fun hne => Bool.eq_false_iff.1 (h _ (List.getLast_mem hne))

/-- A text that is trimmed does not end with a blank. -/
theorem isBlank_last_of_trimChars_eq (h : trimChars text = text) :
    ∀ c ∈ text.getLast?, isBlank c = false := by
  intro c hc
  have hlast := List.rdropWhile_last_not isBlank (text.dropWhile isBlank)
  have hsame : (text.dropWhile isBlank).rdropWhile isBlank = text := h
  rw [hsame] at hlast
  obtain ⟨hne, rfl⟩ := List.mem_getLast?_eq_getLast hc
  exact Bool.eq_false_iff.2 (hlast hne)

/-- A text without line feeds is a line. -/
theorem tidyLines_of_not_mem (h : '\n' ∉ text) : tidyLines text = trimChars text := by
  have hlines : text.splitOn '\n' = [text] :=
    List.splitOnP_eq_singleton fun c hc => beq_eq_false_iff_ne.2 fun heq => h (heq ▸ hc)
  rw [tidyLines, hlines]
  cases htrim : trimChars text with
  | nil => simp [htrim, joinLines, dropTrailing]
  | cons c rest => simp [htrim, joinLines, dropTrailing]

/-! ### Lines of texts -/

theorem joinLines_cons (line : List Char) (h : lines ≠ []) :
    joinLines (line :: lines) = line ++ '\n' :: joinLines lines := by
  obtain ⟨next, rest, rfl⟩ := List.exists_cons_of_ne_nil h
  rw [joinLines, List.intercalate_cons_cons, List.append_assoc]
  rfl

/-- What is put in front of the first line is in front of all lines. -/
theorem joinLines_append (piece first : List Char) (rest : List (List Char)) :
    joinLines ((piece ++ first) :: rest) = piece ++ joinLines (first :: rest) := by
  cases rest with
  | nil => simp [joinLines]
  | cons next rest =>
    have hne := List.cons_ne_nil next rest
    rw [joinLines_cons _ hne, joinLines_cons _ hne, List.append_assoc]

/-- A piece in which no line ends stands in front of the first line. -/
theorem splitLines_append (h : ∀ c ∈ piece, isLineEnd c = false) {first : List Char}
    {rest : List (List Char)} (hmore : splitLines more = first :: rest) :
    splitLines (piece ++ more) = (piece ++ first) :: rest := by
  induction piece with
  | nil => exact hmore
  | cons c piece ih =>
    obtain ⟨hc, hpiece⟩ := List.forall_mem_cons.1 h
    have hreturn : c ≠ '\r' := by
      rintro rfl
      cases hc
    rw [List.cons_append, splitLines, hc, ih hpiece]
    · rfl
    · exact fun _ hcr _ => hreturn hcr

theorem splitLines_lineEnd (h : piece = ['\r', '\n'] ∨ piece = ['\r'] ∨ piece = ['\n'])
    (hfeed : piece = ['\r'] → more.head? ≠ some '\n') :
    splitLines (piece ++ more) = [] :: splitLines more := by
  rcases h with rfl | rfl | rfl
  · rfl
  · have hnot : ∀ rest, more ≠ '\n' :: rest := by
      rintro rest rfl
      exact hfeed rfl rfl
    rw [List.cons_append, List.nil_append, splitLines]
    · rfl
    · exact fun rest _ hmore => hnot rest hmore
  · rfl

/-- No line has a line end in it. -/
theorem isLineEnd_of_mem_splitLines (h : line ∈ splitLines text) :
    ∀ c ∈ line, isLineEnd c = false := by
  fun_induction splitLines text generalizing line with
  | case1 =>
    rw [List.mem_singleton.1 h]
    exact List.forall_mem_nil _
  | case2 rest ih | case3 c rest _ _ ih =>
    rcases List.mem_cons.1 h with rfl | h
    · exact List.forall_mem_nil _
    · exact ih h
  | case4 c rest _ hc ih =>
    obtain ⟨first, lines, hrest⟩ := List.exists_cons_of_ne_nil (splitLines_ne_nil rest)
    rw [hrest] at h ih
    rcases List.mem_cons.1 h with rfl | h
    · exact List.forall_mem_cons.2 ⟨Bool.eq_false_iff.2 hc, ih List.mem_cons_self⟩
    · exact ih (List.mem_cons_of_mem _ h)

/-- The first line is empty or begins as the text does. -/
theorem head?_of_splitLines {first : List Char} {rest : List (List Char)}
    (h : splitLines text = first :: rest) : first = [] ∨ first.head? = text.head? := by
  fun_induction splitLines text generalizing first rest with
  | case1 | case2 | case3 => exact Or.inl (List.cons.inj h).1.symm
  | case4 c more _ _ _ =>
    obtain ⟨line, lines, hmore⟩ := List.exists_cons_of_ne_nil (splitLines_ne_nil more)
    rw [hmore] at h
    rw [← (List.cons.inj h).1]
    exact Or.inr rfl

/-! ### Texts without decoration -/

theorem bareLines_ne_nil (lineStart : Bool) (text : List Char) : bareLines lineStart text ≠ [] := by
  unfold bareLines
  cases h : splitLines text with
  | nil => exact absurd h (splitLines_ne_nil text)
  | cons first rest => exact List.cons_ne_nil _ _

/-- After a line end a line begins. -/
theorem bareText_lineEnd (h : piece = ['\r', '\n'] ∨ piece = ['\r'] ∨ piece = ['\n'])
    (hfeed : piece = ['\r'] → more.head? ≠ some '\n') :
    bareText lineStart (piece ++ more) = '\n' :: bareText true more := by
  have hlines : bareLines lineStart (piece ++ more) = [] :: bareLines true more := by
    obtain ⟨first, rest, hmore⟩ := List.exists_cons_of_ne_nil (splitLines_ne_nil more)
    rw [bareLines, bareLines, splitLines_lineEnd h hfeed, hmore]
    cases lineStart <;> rfl
  rw [bareText, hlines, joinLines_cons _ (bareLines_ne_nil true more)]
  rfl

/-- Indentation stays. -/
theorem bareText_blanks (hblank : ∀ c ∈ piece, isBlank c = true)
    (hline : ∀ c ∈ piece, isLineEnd c = false) :
    bareText true (piece ++ more) = piece ++ bareText true more := by
  obtain ⟨first, rest, hmore⟩ := List.exists_cons_of_ne_nil (splitLines_ne_nil more)
  have hfirst : bareLine (piece ++ first) = piece ++ bareLine first := by
    rw [bareLine, bareLine, undecorated, undecorated, List.takeWhile_append_of_pos hblank,
      List.dropWhile_append_of_pos hblank, List.append_assoc]
  rw [bareText, bareText, bareLines, bareLines, splitLines_append hline hmore, hmore]
  dsimp only
  rw [if_pos rfl, if_pos rfl, hfirst, joinLines_append]

/-- The stars go, and the line has begun. -/
theorem bareText_stars (hne : piece ≠ []) (hstars : ∀ c ∈ piece, c = '*')
    (hmore : more.head? ≠ some '*') : bareText true (piece ++ more) = bareText false more := by
  obtain ⟨first, rest, hlines⟩ := List.exists_cons_of_ne_nil (splitLines_ne_nil more)
  obtain ⟨c, stars, rfl⟩ := List.exists_cons_of_ne_nil hne
  obtain rfl : c = '*' := hstars c List.mem_cons_self
  have hline : ∀ c ∈ '*' :: stars, isLineEnd c = false := fun c hc => by
    rw [hstars c hc]
    rfl
  have hrest : first.dropWhile (· = '*') = first := by
    rcases head?_of_splitLines hlines with rfl | hhead
    · rfl
    · cases first with
      | nil => rfl
      | cons d first =>
        refine List.dropWhile_cons_of_neg fun hd => hmore ?_
        rw [← hhead, of_decide_eq_true hd]
        rfl
  have hfirst : bareLine (('*' :: stars) ++ first) = first := by
    have hstar : isBlank '*' = false := by decide
    have hdrop : ∀ c ∈ '*' :: stars, decide (c = '*') = true := fun c hc =>
      decide_eq_true (hstars c hc)
    rw [bareLine, undecorated, List.cons_append, List.takeWhile_cons_of_neg (by simp [hstar]),
      List.dropWhile_cons_of_neg (by simp [hstar]), List.nil_append, ← List.cons_append,
      List.dropWhile_append_of_pos hdrop, hrest]
  rw [bareText, bareText, bareLines, bareLines, splitLines_append hline hlines, hlines]
  dsimp only
  rw [if_pos rfl, hfirst, if_neg Bool.false_ne_true]

/-- What a line says stays. -/
theorem bareText_begun (hline : ∀ c ∈ piece, isLineEnd c = false) :
    bareText false (piece ++ more) = piece ++ bareText false more := by
  obtain ⟨first, rest, hmore⟩ := List.exists_cons_of_ne_nil (splitLines_ne_nil more)
  rw [bareText, bareText, bareLines, bareLines, splitLines_append hline hmore, hmore]
  exact joinLines_append piece first _

/-- Where there is neither indentation nor a star, the line has begun. -/
theorem bareText_start (h : ∀ c ∈ text.head?, (isLineEnd c = true ∨ isBlank c = false) ∧ c ≠ '*') :
    bareText true text = bareText false text := by
  obtain ⟨first, rest, hlines⟩ := List.exists_cons_of_ne_nil (splitLines_ne_nil text)
  have hfirst : bareLine first = first := by
    rcases head?_of_splitLines hlines with rfl | hhead
    · rfl
    · cases first with
      | nil => rfl
      | cons c first =>
        have hunbroken := isLineEnd_of_mem_splitLines (hlines ▸ List.mem_cons_self)
        obtain ⟨hc, hstar⟩ := h c hhead.symm
        have hblank : isBlank c = false := hc.resolve_left fun hend => by
          rw [hunbroken c List.mem_cons_self] at hend
          cases hend
        rw [bareLine, undecorated, List.takeWhile_cons_of_neg (by simp [hblank]),
          List.dropWhile_cons_of_neg (by simp [hblank]),
          List.dropWhile_cons_of_neg (by simp [hstar])]
        rfl
  rw [bareText, bareText, bareLines, bareLines, hlines]
  dsimp only
  rw [if_pos rfl, hfirst, if_neg Bool.false_ne_true]

/-! ### What is said -/

theorem trimChars_eq_nil : trimChars text = [] ↔ ∀ c ∈ text, isBlank c = true := by
  constructor
  · intro h
    have hdrop : ∀ c ∈ text.dropWhile isBlank, isBlank c = true := List.rdropWhile_eq_nil_iff.1 h
    rw [← List.dropWhile_eq_nil_iff, List.dropWhile_idempotent] at hdrop
    exact List.dropWhile_eq_nil_iff.1 hdrop
  · intro h
    rw [trimChars, List.dropWhile_eq_nil_iff.2 h]
    rfl

theorem tidyLines_cons {c : Char} (hc : isBlank c = true) (text : List Char) :
    tidyLines (c :: text) = tidyLines text := by
  obtain ⟨first, rest, hlines⟩ := List.exists_cons_of_ne_nil (List.splitOn_ne_nil '\n' text)
  by_cases hfeed : c = '\n'
  · have hcons : (c :: text).splitOn '\n' = [] :: text.splitOn '\n' := by
      rw [List.splitOn_eq_splitOnP, List.splitOnP_cons_eq_if_modifyHead,
        if_pos (beq_iff_eq.2 hfeed), List.splitOn_eq_splitOnP]
    rw [tidyLines, hcons]
    rfl
  · have hcons : (c :: text).splitOn '\n' = (c :: first) :: rest := by
      rw [List.splitOn_eq_splitOnP, List.splitOnP_cons_eq_if_modifyHead,
        if_neg (beq_iff_eq.not.2 hfeed), ← List.splitOn_eq_splitOnP, hlines]
      rfl
    have htrim : trimChars (c :: first) = trimChars first :=
      trimChars_append (List.forall_mem_singleton.2 hc)
    rw [tidyLines, tidyLines, hcons, hlines, List.map_cons, List.map_cons, htrim]

/-- Blanks in front of a text say nothing. -/
theorem tidyLines_append (h : ∀ c ∈ piece, isBlank c = true) :
    tidyLines (piece ++ text) = tidyLines text := by
  induction piece with
  | nil => rfl
  | cons c piece ih =>
    obtain ⟨hc, hpiece⟩ := List.forall_mem_cons.1 h
    rw [List.cons_append, tidyLines_cons hc, ih hpiece]

theorem bareLines_true (text : List Char) :
    bareLines true text = (splitLines text).map bareLine := by
  unfold bareLines
  cases splitLines text <;> rfl

theorem mem_of_mem_bareLine {c : Char} (h : c ∈ bareLine line) : c ∈ line := by
  rcases List.mem_append.1 h with h | h
  · exact (List.takeWhile_sublist _).subset h
  · exact (List.dropWhile_sublist _).subset ((List.dropWhile_sublist _).subset h)

/-- Indentation is trimmed away. -/
theorem trimChars_bareLine (line : List Char) :
    trimChars (bareLine line) = trimChars (undecorated line) :=
  trimChars_append fun _ => List.mem_takeWhile_imp

/-- The text without decoration says what the text does. -/
theorem tidyLines_bareText (text : List Char) :
    tidyLines (bareText true text) = proseText text := by
  have hfeed : ∀ line ∈ bareLines true text, '\n' ∉ line := by
    intro line hline hmem
    rw [bareLines_true] at hline
    obtain ⟨source, hsource, rfl⟩ := List.mem_map.1 hline
    have := isLineEnd_of_mem_splitLines hsource '\n' (mem_of_mem_bareLine hmem)
    cases this
  have hsplit : (bareText true text).splitOn '\n' = bareLines true text :=
    List.splitOn_intercalate '\n' hfeed (bareLines_ne_nil true text)
  have hlines : (bareLines true text).map trimChars = proseLines text := by
    rw [bareLines_true, List.map_map]
    exact List.map_congr_left fun line _ => trimChars_bareLine line
  rw [tidyLines, hsplit, hlines]
  rfl

theorem isBlank_joinLines : (∀ c ∈ joinLines lines, isBlank c = true) ↔
    ∀ line ∈ lines, ∀ c ∈ line, isBlank c = true := by
  induction lines with
  | nil => exact ⟨fun _ _ h => absurd h List.not_mem_nil, fun _ _ h => absurd h List.not_mem_nil⟩
  | cons line lines ih =>
    by_cases hlines : lines = []
    · rw [hlines, List.forall_mem_singleton, joinLines, List.intercalate_singleton]
    · rw [joinLines_cons line hlines, List.forall_mem_append, List.forall_mem_cons,
        List.forall_mem_cons, ih]
      exact ⟨fun h => ⟨h.1, h.2.2⟩, fun h => ⟨h.1, by decide, h.2⟩⟩

/-- A text that says nothing is blank without decoration. -/
theorem isBlank_bareText : (∀ c ∈ bareText true text, isBlank c = true) ↔
    ∀ line ∈ proseLines text, line = [] := by
  rw [bareText, isBlank_joinLines, bareLines_true, proseLines, List.forall_mem_map,
    List.forall_mem_map]
  refine forall₂_congr fun line _ => ?_
  rw [← trimChars_eq_nil, trimChars_bareLine]

end SqlDoc.Text

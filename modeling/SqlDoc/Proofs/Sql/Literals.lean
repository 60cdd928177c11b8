/-
# Texts in quotes are read back

A text is written as a string in two ways and as a name in one. In quotes each quote of the text
is written twice (`Text.double`). In the alternative form the text stands as it is, between two
delimiters, and so the closing one with a quote behind it must not come up in the text.

What is written so is one token. The text in quotes ends where the writing does
(`Text.afterQuote_double`, `Text.afterPair_last`), and the rules that are tried before the one for
the literal read nothing: none of them begins like the literal, but that the alternative form and
the plain one may begin with the same mark, and there a quote tells them apart
(`alternativeQuoted_eq_none`). The normal form of the token is the text that was written
(`Text.undouble_double`).

Key definitions: `Text.double`, `Sql.plainLiteral`, `Sql.alternativeLiteral`, `Sql.quotedName`.
Key theorems: `Text.undouble_double`, `Pattern.Ends.closeQuote`, `Pattern.Ends.closePair`,
`Sql.lexSql_of_whole`, `Sql.lexSql_literals`.
-/
import SqlDoc.Proofs.Sql.RawStep

namespace SqlDoc

namespace Text

variable {quote c first second last : Char} {s rest : List Char}

/-- The text with each `quote` in it written twice. -/
def double (quote : Char) (s : List Char) : List Char :=
  s.flatMap fun c => if c = quote then [c, c] else [c]

theorem double_cons_self (quote : Char) (s : List Char) :
    double quote (quote :: s) = quote :: quote :: double quote s := by
  rw [double, List.flatMap_cons, if_pos rfl]
  rfl

theorem double_cons_of_ne (h : c ≠ quote) : double quote (c :: s) = c :: double quote s := by
  rw [double, List.flatMap_cons, if_neg h]
  rfl

theorem undouble_cons_of_ne (h : c ≠ quote) :
    undouble quote (c :: rest) = c :: undouble quote rest := by
  cases rest <;> simp [undouble, h]

/-- A text in which the quotes were doubled is read back. -/
theorem undouble_double (quote : Char) (s : List Char) :
    undouble quote (double quote s) = s := by
  induction s with
  | nil => rfl
  | cons c s ih =>
    by_cases hc : c = quote
    · subst hc
      rw [double_cons_self, undouble, if_pos ⟨rfl, rfl⟩, ih]
    · rw [double_cons_of_ne hc, undouble_cons_of_ne hc, ih]

/-- Doubled quotes do not end a text, so the quote behind them does. -/
theorem afterQuote_double (quote : Char) (s : List Char) :
    afterQuote quote (double quote s ++ [quote]) = some [] := by
  induction s with
  | nil => exact afterQuote_once nofun
  | cons c s ih =>
    by_cases hc : c = quote
    · subst hc
      rw [double_cons_self, List.cons_append, List.cons_append, afterQuote_twice, ih,
        Option.some_or]
    · rw [double_cons_of_ne hc, List.cons_append, afterQuote_cons_of_ne hc, ih]

/-- Two characters behind a text without them are the first such pair. -/
theorem afterPair_last (hne : first ≠ second) (h : ¬ [first, second] <:+: s) :
    afterPair first second (s ++ [first, second]) = some [] := by
  induction s with
  | nil => exact afterPair_pair first second []
  | cons c s ih =>
    have hpair : ¬ (c = first ∧ (s ++ [first, second]).head? = some second) := by
      rintro ⟨rfl, hhead⟩
      cases s with
      | nil => exact hne (Option.some.inj hhead)
      | cons d s =>
        obtain rfl : d = second := Option.some.inj hhead
        exact h ⟨[], s, rfl⟩
    rw [List.cons_append, afterPair_cons hpair]
    exact ih fun hin => h (hin.trans (List.suffix_cons c s).isInfix)

/-- Between characters that are not blank nothing is trimmed away. -/
theorem trimChars_of_ends (hfirst : isBlank first = false) (hlast : isBlank last = false) :
    trimChars (first :: s ++ [last]) = first :: s ++ [last] := by
  rw [trimChars, List.cons_append, List.dropWhile_cons_of_neg (by rw [hfirst]; decide),
    ← List.cons_append, dropTrailing, List.reverse_concat,
    List.dropWhile_cons_of_neg (by rw [hlast]; decide), List.reverse_cons, List.reverse_reverse]

end Text

theorem dropEnds_append {α : Type} {n : Nat} {front middle back : List α}
    (hfront : front.length = n) (hback : back.length = n) :
    dropEnds n (front ++ middle ++ back) = middle := by
  have hlength : (front ++ middle ++ back).length - 2 * n = middle.length := by
    simp only [List.length_append]
    omega
  rw [dropEnds, hlength, List.append_assoc, ← hfront, List.drop_left, List.take_left]

/-- The normal form of a part in quotes is what was put in them. -/
theorem normalizeIdentifier_double (s : List Char) :
    normalizeIdentifier (String.ofList ('"' :: Text.double '"' s ++ ['"'])) = String.ofList s := by
  have hblank : Text.isBlank '"' = false := by decide
  rw [normalizeIdentifier, String.toList_ofList, Text.trimChars_of_ends hblank hblank]
  simp only [List.cons_append, betweenQuotes?, List.getLast?_concat, List.dropLast_concat,
    Text.undouble_double]

namespace Pattern

variable {text : List Char} {find : Cursor text → Option (Cursor text)} {cur : Cursor text}
  {chars : CharSet} {c first last : Char} {rest s : List Char}

/-- The search finds an end, and it is the end of the text. -/
def Ends (find : Cursor text → Option (Cursor text)) (cur : Cursor text) : Prop :=
  (find cur).map (·.rest) = some []

namespace Ends

/-- One character, and then the rest of the text. -/
theorem set (hrest : cur.rest = c :: rest) (hc : chars.mem c = true)
    (h : ∀ next : Cursor text, next.rest = rest → Ends find next) :
    Ends (fun cur => (set chars).run cur find) cur := by
  obtain ⟨next, hnext, hnextrest, -⟩ := Cursor.next?_cons chars hrest hc
  rw [Ends, run_set, hnext]
  exact h next hnextrest

theorem opt (hrest : cur.rest = c :: rest) (hc : chars.mem c = true)
    (h : ∀ next : Cursor text, next.rest = rest → Ends find next) :
    Ends (fun cur => (opt (.set chars)).run cur find) cur := by
  obtain ⟨stop, hstop, hleft⟩ := Option.map_eq_some_iff.1 (Ends.set hrest hc h)
  have hstop : (Pattern.set chars).run cur find = some stop := hstop
  show (orElse ((Pattern.set chars).run cur find) fun _ => find cur).map _ = _
  rw [hstop]
  exact congrArg some hleft

theorem opt_skip (hrest : cur.rest = c :: rest) (hc : chars.mem c = false) (h : Ends find cur) :
    Ends (fun cur => (Pattern.opt (.set chars)).run cur find) cur := by
  show (orElse ((Pattern.set chars).run cur find) fun _ => find cur).map _ = _
  rw [run_set, Cursor.next?_cons_of_not hrest hc]
  exact h

/-- The quote behind a text in which quotes are doubled ends it. -/
theorem closeQuote {quote : Char} (hrest : cur.rest = Text.double quote s ++ [quote]) :
    Ends (closeQuote quote) cur := by
  rw [Ends, rest_closeQuote, hrest, Text.afterQuote_double]

theorem quoted {quote : Char} (hrest : cur.rest = quote :: Text.double quote s ++ [quote]) :
    Ends (fun cur => (Sql.quoted quote).run cur some) cur := by
  have hpattern : Sql.quoted quote = seq (.set (.single quote))
      (seq (star (betweenQuotes quote)) (.set (.single quote))) := by
    rw [Sql.quoted, literal_pair]
    rfl
  rw [hpattern]
  refine Ends.set hrest (by simp) fun next hnext => ?_
  have hclose := Ends.closeQuote hnext
  rwa [Ends, Pattern.closeQuote,
    ← run_star (moves_betweenQuotes quote) true next _] at hclose

/-- The closing delimiter and the quote behind it end a text without them. -/
theorem closePair (hne : first ≠ last) (hs : ¬ [first, last] <:+: s)
    (hrest : cur.rest = s ++ [first, last]) : Ends (closePair first last) cur := by
  rw [Ends, rest_closePair, hrest, Text.afterPair_last hne hs]

/-- A string of the alternative form after its quote. -/
def delimited (pair : Char × Char) : Pattern :=
  concat [.set (.single pair.1), star (.set .any) false, literal (String.ofList [pair.2, '\''])]

theorem run_delimited (hne : last ≠ '\'') (hs : ¬ [last, '\''] <:+: s)
    (hrest : cur.rest = first :: s ++ [last, '\'']) :
    Ends (fun cur => (delimited (first, last)).run cur some) cur := by
  have hpattern : delimited (first, last) = seq (.set (.single first)) (seq (star (.set .any) false)
      (seq (.set (.single last)) (.set (.single '\'')))) := by
    rw [delimited, literal_pair]
    rfl
  rw [hpattern]
  refine Ends.set hrest (by simp) fun next hnext => ?_
  have hclose := Ends.closePair hne hs hnext
  rwa [Ends, Pattern.closePair, ← run_star (moves_set .any) false next _] at hclose

/-- Of patterns that begin with characters of their own, the one for the next character is
chosen. -/
theorem choice {pairs : List (Char × Char)} (hdistinct : (pairs.map Prod.fst).Nodup)
    (hmem : (first, last) ∈ pairs) (hrest : cur.rest = first :: rest)
    (h : Ends (fun cur => (delimited (first, last)).run cur some) cur) :
    Ends (fun cur => (choice (pairs.map delimited)).run cur some) cur := by
  induction pairs with
  | nil => cases hmem
  | cons pair pairs ih =>
    obtain ⟨hnew, hdistinct⟩ := List.nodup_cons.1 hdistinct
    have hcons : (Pattern.choice ((pair :: pairs).map delimited)).run cur some =
        orElse ((delimited pair).run cur some) fun _ =>
          (Pattern.choice (pairs.map delimited)).run cur some := by
      cases pairs with
      | nil =>
        have hnone : (Pattern.set .none).run cur some = none := by
          rw [run_set, Cursor.next?_cons_of_not hrest rfl]
          rfl
        show (delimited pair).run cur some = orElse _ fun _ => (Pattern.set .none).run cur some
        rw [hnone]
        cases (delimited pair).run cur some <;> rfl
      | cons other pairs => rfl
    rw [Ends, hcons]
    rcases List.mem_cons.1 hmem with rfl | hmem
    · obtain ⟨stop, hstop, hleft⟩ := Option.map_eq_some_iff.1 h
      have hstop : (delimited (first, last)).run cur some = some stop := hstop
      rw [hstop]
      exact congrArg some hleft
    · have hne : pair.1 ≠ first := fun heq => hnew (heq ▸ List.mem_map_of_mem hmem)
      have hnone : (delimited pair).run cur some = none := by
        show ((cur.next? (.single pair.1)).bind _) = none
        rw [Cursor.next?_cons_of_not hrest (by simpa using hne.symm)]
        rfl
      rw [hnone]
      exact ih hdistinct hmem

end Ends
end Pattern

/-- The rule that reads a token is the first that can. -/
theorem Lexer.matchRule?_of_front {κ : Type} {g : Grammar κ} {lx : Lexer g}
    {front back : List (Rule κ Matcher g.StateId)} {r : Rule κ Matcher g.StateId}
    (hrules : lx.state.rules = front ++ r :: back)
    (hfront : ∀ other ∈ front, other.matcher.tokenEnd? lx.rest = none) {stop : Cursor lx.rest}
    (hstop : r.matcher.tokenEnd? lx.rest = some stop) : lx.matchRule? = some (r, stop) := by
  have hnone : front.findSome? (fun rule =>
      (rule.matcher.tokenEnd? lx.rest).map fun stop => (rule, stop)) = none :=
    List.findSome?_eq_none_iff.2 fun other hother => by rw [hfront other hother]; rfl
  rw [Lexer.matchRule?, hrules, List.findSome?_append, hnone, Option.none_or, List.findSome?_cons,
    hstop]
  rfl

namespace Sql

open Pattern (Ends)

variable {text : List Char} {c q first last : Char} {mark rest : List Char}

/-! ### Literals -/

/-- What may stand in front of a string to mark its character set. -/
def setMarks : List (List Char) :=
  [[], ['n'], ['N']]

/-- The letters of the alternative form. -/
def alternativeMarks : List Char :=
  ['q', 'Q']

/-- A string such as `'it''s'`. -/
def plainLiteral (mark s : List Char) : List Char :=
  mark ++ ('\'' :: Text.double '\'' s ++ ['\''])

/-- A string such as `q'[it's]'`. -/
def alternativeLiteral (mark : List Char) (q first last : Char) (s : List Char) : List Char :=
  mark ++ q :: '\'' :: (first :: s ++ [last, '\''])

/-- A name such as `"a b"`. -/
def quotedName (s : List Char) : List Char :=
  '"' :: Text.double '"' s ++ ['"']

theorem setMarks_cases (h : mark ∈ setMarks) : mark = [] ∨ mark = ['n'] ∨ mark = ['N'] := by
  simpa [setMarks] using h

theorem alternativeMarks_cases (h : q ∈ alternativeMarks) : q = 'q' ∨ q = 'Q' := by
  simpa [alternativeMarks] using h

theorem unquoteString_plainLiteral (hmark : mark ∈ setMarks) (s : List Char) :
    unquoteString (String.ofList (plainLiteral mark s)) = String.ofList s := by
  have hends : dropEnds 1 ('\'' :: Text.double '\'' s ++ ['\'']) = Text.double '\'' s :=
    dropEnds_append (show ['\''].length = 1 from rfl) rfl
  have hchars : String.ofList (Text.undouble '\'' (dropEnds 1
      ('\'' :: Text.double '\'' s ++ ['\'']))) = String.ofList s := by
    rw [hends, Text.undouble_double]
  rw [unquoteString, String.toList_ofList]
  rcases setMarks_cases hmark with rfl | rfl | rfl <;> exact hchars

theorem unquoteString_alternativeLiteral (hmark : mark ∈ setMarks) (hq : q ∈ alternativeMarks)
    (first last : Char) (s : List Char) :
    unquoteString (String.ofList (alternativeLiteral mark q first last s)) = String.ofList s := by
  have hends : dropEnds 2 ('\'' :: (first :: s ++ [last, '\''])) = s :=
    dropEnds_append (show ['\'', first].length = 2 from rfl) rfl
  have hchars : String.ofList (dropEnds 2 ('\'' :: (first :: s ++ [last, '\'']))) =
      String.ofList s := by
    rw [hends]
  rw [unquoteString, String.toList_ofList]
  rcases setMarks_cases hmark with rfl | rfl | rfl <;>
    rcases alternativeMarks_cases hq with rfl | rfl <;> exact hchars

/-! ### A text that is one token -/

/-- A rule that reads the whole of a text, when no rule before it reads anything, makes it one
token. -/
theorem lexSql_of_whole {front back : List (Rule SqlKind Matcher (Fin 3))}
    {r : Rule SqlKind Matcher (Fin 3)} (hrules : mainState.rules = front ++ r :: back)
    (hfront : ∀ other ∈ front, other.matcher.tokenEnd? text = none) {stop : Cursor text}
    (hstop : r.matcher.tokenEnd? text = some stop) (hrest : stop.rest = [])
    (hstay : r.transition = .stay) (hpiece : r.kind ≠ .lineOpen ∧ r.kind ≠ .blockOpen)
    (filename : Option String) :
    ∃ t : SqlToken, lexSql (String.ofList text) filename = ⟨[cookOne t], none⟩ ∧
      t.kind = r.kind ∧ t.text = String.ofList text := by
  let lx := Lexer.start sqlGrammar text (Position.start.inFile filename)
  have houtside : Outside lx := ⟨rfl, rfl⟩
  have hmatch : lx.matchRule? = some (r, stop) :=
    Lexer.matchRule?_of_front ((congrArg LexState.rules houtside.state_eq).trans hrules) hfront hstop
  obtain ⟨found, more, hcons⟩ : ∃ found more, text = found :: more :=
    List.exists_cons_of_ne_nil fun hnil =>
      Matcher.take_seen_ne_nil hstop (List.take_eq_nil_iff.2 (.inr hnil))
  have hstep := Lexer.step_of_act_read hcons (Lexer.act_of_matchRule? hmatch found)
  rw [hstay] at hstep
  have hwhole : text.take stop.seen = text := by
    have := Matcher.rest_of_tokenEnd? text stop
    rwa [hrest, List.append_nil] at this
  have hdone : Outside (lx.skip stop.seen stop.rest) := houtside
  have hrun : lx.run = ([lx.token r.kind stop.seen r.value], none) := by
    rw [Lexer.run_of_token hstep]
    show (_ :: (lx.skip stop.seen stop.rest).run.1, (lx.skip stop.seen stop.rest).run.2) = _
    rw [Lexer.run_of_finished (hdone.finished hrest)]
  refine ⟨lx.token r.kind stop.seen r.value, ?_, rfl, congrArg String.ofList hwhole⟩
  have hraw : lexRaw (String.ofList text) filename =
      ([lx.token r.kind stop.seen r.value], none) := by
    rw [lexRaw, String.toList_ofList]
    exact hrun
  have hcook : cook [lx.token r.kind stop.seen r.value] =
      [cookOne (lx.token r.kind stop.seen r.value)] := by
    rw [cook]
    split
    · rename_i hkind
      exact absurd hkind hpiece.1
    · rename_i hkind
      exact absurd hkind hpiece.2
    · rw [cook]
  rw [lexSql, hraw]
  exact congrArg (Lexed.mk · none) hcook

/-- Rules whose tokens begin otherwise read nothing. -/
theorem tokenEnd?_of_begins {rules : List (Rule SqlKind Matcher (Fin 3))}
    (h : (rules.all fun r => !r.matcher.mayBeginWith c) = true) (rest : List Char) :
    ∀ r ∈ rules, r.matcher.tokenEnd? (c :: rest) = none := by
  intro r hr
  cases hstop : r.matcher.tokenEnd? (c :: rest) with
  | none => rfl
  | some stop =>
    have hbegins := Matcher.mayBeginWith_of_tokenEnd? hstop
    have hnot := List.all_eq_true.1 h r hr
    rw [hbegins] at hnot
    cases hnot

/-- Where a pattern with no empty piece reads to the end, so does its token. -/
theorem exists_tokenEnd?_of_ends {p : Pattern} (hp : p.mayBeEmpty = false)
    (h : Ends (fun cur => p.run cur some) (Cursor.start text)) :
    ∃ stop, (Matcher.pattern p).tokenEnd? text = some stop ∧ stop.rest = [] := by
  obtain ⟨stop, hstop, hleft⟩ := Option.map_eq_some_iff.1 h
  exact ⟨stop, Matcher.tokenEnd?_of_matchAt? hp hstop, hleft⟩

/-- A mark, and then what begins with another character. -/
theorem ends_setMark {find : Cursor text → Option (Cursor text)} {cur : Cursor text}
    (hmark : mark ∈ setMarks) (hc : (CharSet.ofList "nN".toList).mem c = false)
    (hrest : cur.rest = mark ++ c :: rest)
    (h : ∀ next : Cursor text, next.rest = c :: rest → Ends find next) :
    Ends (fun cur => (Pattern.opt (Pattern.oneOf "nN")).run cur find) cur := by
  rcases setMarks_cases hmark with rfl | rfl | rfl
  · exact Ends.opt_skip hrest hc (h cur hrest)
  · exact Ends.opt hrest (by decide) h
  · exact Ends.opt hrest (by decide) h

theorem ends_plainString (hmark : mark ∈ setMarks) (s : List Char) :
    Ends (fun cur => plainString.run cur some) (Cursor.start (plainLiteral mark s)) :=
  ends_setMark hmark (by decide) rfl fun _ hnext => Ends.quoted hnext

theorem ends_alternativeQuoted (hmark : mark ∈ setMarks) (hq : q ∈ alternativeMarks)
    (hpair : (first, last) ∈ quoteDelimiters) {s : List Char} (hs : ¬ [last, '\''] <:+: s) :
    Ends (fun cur => alternativeQuoted.run cur some)
      (Cursor.start (alternativeLiteral mark q first last s)) := by
  have hletter : (CharSet.ofList "nN".toList).mem q = false ∧
      (CharSet.ofList "qQ".toList).mem q = true := by
    rcases alternativeMarks_cases hq with rfl | rfl <;> decide
  have hlast : last ≠ '\'' :=
    (by decide : ∀ pair ∈ quoteDelimiters, pair.2 ≠ '\'') _ hpair
  refine ends_setMark hmark hletter.1 rfl fun next hnext => ?_
  refine Ends.set hnext hletter.2 fun next hnext => ?_
  have hquote : (CharSet.single '\'').mem '\'' = true := by decide
  refine Ends.set hnext hquote fun next hnext => ?_
  exact Ends.choice (by decide) hpair hnext (Ends.run_delimited hlast hs hnext)

/-- A string of the plain form is none of the alternative form. -/
theorem alternativeQuoted_eq_none (hmark : mark ∈ setMarks) (s : List Char) :
    (Matcher.pattern alternativeQuoted).tokenEnd? (plainLiteral mark s) = none := by
  have hnone : alternativeQuoted.matchAt? (.start (plainLiteral mark s)) = none := by
    rcases setMarks_cases hmark with rfl | rfl | rfl <;> rfl
  show (alternativeQuoted.matchAt? _).filter _ = none
  rw [hnone]
  rfl

/-! ### Reading what was written -/

variable (filename : Option String) (s : List Char)

theorem lexSql_quotedName : ∃ t : SqlToken,
    lexSql (String.ofList (quotedName s)) filename = ⟨[t], none⟩ ∧
      t.kind = .quotedIdentifier ∧ t.value = String.ofList s := by
  have hends : Ends (fun cur => (quoted '"').run cur some) (Cursor.start (quotedName s)) :=
    Ends.quoted rfl
  obtain ⟨stop, hstop, hrest⟩ := exists_tokenEnd?_of_ends rfl hends
  obtain ⟨t, hlex, hkind, htext⟩ := lexSql_of_whole (show mainState.rules =
      mainState.rules.take 4 ++ rule .quotedIdentifier (quoted '"') :: mainState.rules.drop 5 from rfl)
    (tokenEnd?_of_begins (by decide) _) hstop hrest rfl (by decide) filename
  have hkind : t.kind = .quotedIdentifier := hkind
  refine ⟨cookOne t, hlex, ?_, ?_⟩
  · rw [cookOne, hkind]
  · rw [cookOne, hkind]
    show normalizeIdentifier t.text = _
    rw [htext]
    exact normalizeIdentifier_double s

/-- A token of a string gets the text that the string stands for. -/
theorem cookOne_string {t : SqlToken} (h : t.kind = .string) :
    (cookOne t).kind = .string ∧ (cookOne t).value = unquoteString t.text := by
  obtain ⟨kind, text, value, span⟩ := t
  obtain rfl : kind = .string := h
  exact ⟨rfl, rfl⟩

theorem lexSql_plainLiteral (hmark : mark ∈ setMarks) : ∃ t : SqlToken,
    lexSql (String.ofList (plainLiteral mark s)) filename = ⟨[t], none⟩ ∧
      t.kind = .string ∧ t.value = String.ofList s := by
  obtain ⟨stop, hstop, hrest⟩ := exists_tokenEnd?_of_ends (p := plainString) rfl
    (ends_plainString hmark s)
  have hfront : ∀ r ∈ mainState.rules.take 6, r.matcher.tokenEnd? (plainLiteral mark s) = none := by
    intro r hr
    rcases List.mem_append.1 (show r ∈ mainState.rules.take 5 ++
        [rule .string alternativeQuoted] from hr) with hr | hr
    · rcases setMarks_cases hmark with rfl | rfl | rfl <;>
        exact tokenEnd?_of_begins (by decide) _ r hr
    · rw [List.mem_singleton.1 hr]
      exact alternativeQuoted_eq_none hmark s
  obtain ⟨t, hlex, hkind, htext⟩ := lexSql_of_whole (show mainState.rules =
      mainState.rules.take 6 ++ rule .string plainString :: mainState.rules.drop 7 from rfl)
    hfront hstop hrest rfl (by decide) filename
  obtain ⟨hcooked, hvalue⟩ := cookOne_string hkind
  exact ⟨cookOne t, hlex, hcooked,
    hvalue.trans (htext ▸ unquoteString_plainLiteral hmark s)⟩

variable {s}

theorem lexSql_alternativeLiteral (hmark : mark ∈ setMarks) (hq : q ∈ alternativeMarks)
    (hpair : (first, last) ∈ quoteDelimiters) (hs : ¬ [last, '\''] <:+: s) : ∃ t : SqlToken,
    lexSql (String.ofList (alternativeLiteral mark q first last s)) filename = ⟨[t], none⟩ ∧
      t.kind = .string ∧ t.value = String.ofList s := by
  obtain ⟨stop, hstop, hrest⟩ := exists_tokenEnd?_of_ends (p := alternativeQuoted) rfl
    (ends_alternativeQuoted hmark hq hpair hs)
  have hfront : ∀ r ∈ mainState.rules.take 5,
      r.matcher.tokenEnd? (alternativeLiteral mark q first last s) = none := by
    rcases setMarks_cases hmark with rfl | rfl | rfl <;>
      rcases alternativeMarks_cases hq with rfl | rfl <;> exact tokenEnd?_of_begins (by decide) _
  obtain ⟨t, hlex, hkind, htext⟩ := lexSql_of_whole (show mainState.rules =
      mainState.rules.take 5 ++ rule .string alternativeQuoted :: mainState.rules.drop 6 from rfl)
    hfront hstop hrest rfl (by decide) filename
  obtain ⟨hcooked, hvalue⟩ := cookOne_string hkind
  exact ⟨cookOne t, hlex, hcooked,
    hvalue.trans (htext ▸ unquoteString_alternativeLiteral hmark hq first last s)⟩

/-- **What is written as a literal is read back.** Written as a string in quotes, as a string of the
alternative form or as a name in quotes, a text is one token, and the token's normal form is the
text. -/
theorem lexSql_literals (s : String) (filename : Option String) :
    (∀ mark ∈ setMarks, ∃ t : SqlToken,
      lexSql (String.ofList (plainLiteral mark s.toList)) filename = ⟨[t], none⟩ ∧
        t.kind = .string ∧ t.value = s) ∧
    (∀ mark ∈ setMarks, ∀ q ∈ alternativeMarks, ∀ pair ∈ quoteDelimiters,
      ¬ [pair.2, '\''] <:+: s.toList → ∃ t : SqlToken,
        lexSql (String.ofList (alternativeLiteral mark q pair.1 pair.2 s.toList)) filename =
            ⟨[t], none⟩ ∧
          t.kind = .string ∧ t.value = s) ∧
    ∃ t : SqlToken, lexSql (String.ofList (quotedName s.toList)) filename = ⟨[t], none⟩ ∧
      t.kind = .quotedIdentifier ∧ t.value = s := by
  have hs : String.ofList s.toList = s := String.ofList_toList
  refine ⟨fun mark hmark => ?_, fun mark hmark q hq pair hpair hclose => ?_, ?_⟩
  · obtain ⟨t, hlex, hkind, hvalue⟩ := lexSql_plainLiteral filename s.toList hmark
    exact ⟨t, hlex, hkind, hvalue.trans hs⟩
  · obtain ⟨t, hlex, hkind, hvalue⟩ := lexSql_alternativeLiteral filename hmark hq hpair hclose
    exact ⟨t, hlex, hkind, hvalue.trans hs⟩
  · obtain ⟨t, hlex, hkind, hvalue⟩ := lexSql_quotedName filename s.toList
    exact ⟨t, hlex, hkind, hvalue.trans hs⟩

/-- A text that ends with the closing delimiter, and has a quote in it. -/
theorem lexSql_literals_delimiter :
    ['n'] ∈ setMarks ∧ 'Q' ∈ alternativeMarks ∧ ('[', ']') ∈ quoteDelimiters ∧
      ¬ [']', '\''] <:+: "it's [a]".toList ∧
      (∃ t : SqlToken, lexSql "n'it''s [a]'" = ⟨[t], none⟩ ∧ t.kind = .string ∧
        t.value = "it's [a]") ∧
      (∃ t : SqlToken, lexSql "nQ'[it's [a]]'" = ⟨[t], none⟩ ∧ t.kind = .string ∧
        t.value = "it's [a]") ∧
      ∃ t : SqlToken, lexSql "\"it's [a]\"" = ⟨[t], none⟩ ∧ t.kind = .quotedIdentifier ∧
        t.value = "it's [a]" := by
  have hmark : ['n'] ∈ setMarks := by decide
  have hclose : ¬ [']', '\''] <:+: "it's [a]".toList := Text.afterPair_eq_none.1 (by decide)
  obtain ⟨hplain, halternative, hname⟩ := lexSql_literals "it's [a]" none
  exact ⟨hmark, by decide, by decide, hclose, hplain _ hmark,
    halternative _ hmark 'Q' (by decide) ('[', ']') (by decide) hclose, hname⟩

end Sql
end SqlDoc

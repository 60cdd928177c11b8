/-
# Where texts in quotes end

A text in quotes may have blanks in it, so it may go on where another token would end. Whether it
does is decided by the quotes ahead: it ends at the first quote that is not one of two in a row, or
at the last one (`Text.afterQuote`), and the alternative form at the first closing delimiter with a
quote after it (`Text.afterPair`). Both look for words with a quote. So if of two texts that begin
alike the second has none of those after the place where they part that the first has not, a text in
quotes ends at the same place in both (`Sql.cuts_plainString`, `Sql.cuts_alternativeQuoted`).

Key definitions: `Text.afterQuote`, `Text.afterPair`, `Sql.Parted`.
Key theorems: `Pattern.rest_closeQuote`, `Pattern.rest_closePair`, `Sql.cuts_plainString`,
`Sql.cuts_alternativeQuoted`.
-/
import SqlDoc.Proofs.Pattern.Cutting
import SqlDoc.Sql.Grammar

namespace SqlDoc

namespace Text

/-- What is left after the quote that ends a text. Two quotes in a row do not end it, unless no
quote comes after them. -/
def afterQuote (quote : Char) : List Char → Option (List Char)
  | [] => none
  | [c] => if c = quote then some [] else none
  | c :: d :: rest =>
    if c = quote then
      if d = quote then (afterQuote quote rest).or (some (d :: rest)) else some (d :: rest)
    else afterQuote quote (d :: rest)

/-- What is left after the first place where one character stands behind the other. -/
def afterPair (first second : Char) : List Char → Option (List Char)
  | c :: d :: rest =>
    if c = first ∧ d = second then some rest else afterPair first second (d :: rest)
  | _ => none

variable {quote c d : Char} {ahead left more rest s s' : List Char}

/-! ### The quote that ends a text -/

theorem afterQuote_cons_of_ne (h : c ≠ quote) :
    afterQuote quote (c :: rest) = afterQuote quote rest := by
  cases rest <;> simp [afterQuote, h]

theorem afterQuote_twice (quote : Char) (rest : List Char) :
    afterQuote quote (quote :: quote :: rest) =
      (afterQuote quote rest).or (some (quote :: rest)) := by
  rw [afterQuote, if_pos rfl, if_pos rfl]

theorem afterQuote_once (h : ∀ c ∈ rest.head?, c ≠ quote) :
    afterQuote quote (quote :: rest) = some rest := by
  cases rest with
  | nil => rw [afterQuote, if_pos rfl]
  | cons d rest => rw [afterQuote, if_pos rfl, if_neg (h d rfl)]

theorem afterQuote_eq_none : afterQuote quote ahead = none ↔ quote ∉ ahead := by
  fun_induction afterQuote quote ahead <;> simp_all [eq_comm]

/-- The quote that ends the text is not left. -/
theorem cons_suffix_of_afterQuote (h : afterQuote quote ahead = some left) :
    quote :: left <:+ ahead := by
  fun_induction afterQuote quote ahead generalizing left with
  | case1 => cases h
  | case2 =>
    cases h
    exact List.suffix_refl _
  | case3 => cases h
  | case4 rest ih =>
    rcases Option.or_eq_some_iff.1 h with h | ⟨-, h⟩
    · exact (ih h).trans (List.suffix_append [quote, quote] rest)
    · cases h
      exact List.suffix_refl _
  | case5 d rest =>
    cases h
    exact List.suffix_refl _
  | case6 c d rest _ ih => exact (ih h).trans (List.suffix_cons c (d :: rest))

/-- The text ends where it did, if past a place no quotes come up that were not there. -/
theorem afterQuote_append (hpart : ∀ c ∈ s'.head?, c ≠ quote) (hquote : quote ∈ s' → quote ∈ s)
    (h : afterQuote quote (more ++ s) = some (left ++ s)) :
    afterQuote quote (more ++ s') = some (left ++ s') := by
  have hshort {ahead : List Char} (h : afterQuote quote ahead = some (left ++ s)) :
      s.length < ahead.length := by
    have := (cons_suffix_of_afterQuote h).length_le
    simp only [List.length_cons, List.length_append] at this
    omega
  fun_induction afterQuote quote more generalizing left with
  | case1 => exact absurd (hshort h) (Nat.lt_irrefl _)
  | case2 =>
    have hleft : left = [] := by
      have := (cons_suffix_of_afterQuote h).length_le
      simp only [List.length_cons, List.length_append, List.length_nil] at this
      exact List.length_eq_zero_iff.1 (by omega)
    rw [hleft]
    exact afterQuote_once hpart
  | case3 c hc =>
    rw [List.singleton_append, afterQuote_cons_of_ne hc] at h
    exact absurd (hshort h) (Nat.lt_irrefl _)
  | case4 rest ih =>
    rw [List.cons_append, List.cons_append, afterQuote_twice] at h ⊢
    cases hrest : afterQuote quote (rest ++ s) with
    | none =>
      rw [hrest, Option.none_or] at h
      have hleft : quote :: rest = left :=
        List.append_cancel_right (Option.some.inj h)
      rw [afterQuote_eq_none, List.mem_append, not_or] at hrest
      rw [afterQuote_eq_none.2, Option.none_or, ← hleft, List.cons_append]
      rw [List.mem_append, not_or]
      exact ⟨hrest.1, fun hmem => hrest.2 (hquote hmem)⟩
    | some found =>
      rw [hrest, Option.some_or] at h
      rw [ih (hrest.trans h) hshort, Option.some_or]
  | case5 d rest hd =>
    rw [List.cons_append, List.cons_append, afterQuote_once (by simpa using hd)] at h ⊢
    rw [← List.cons_append] at h ⊢
    rw [List.append_cancel_right (Option.some.inj h)]
  | case6 c d rest hc ih =>
    rw [List.cons_append, afterQuote_cons_of_ne hc] at h ⊢
    exact ih h hshort

/-! ### The first pair of characters -/

variable {first second : Char}

theorem afterPair_cons (h : ¬ (c = first ∧ rest.head? = some second)) :
    afterPair first second (c :: rest) = afterPair first second rest := by
  cases rest with
  | nil => simp [afterPair]
  | cons d rest =>
    rw [afterPair, if_neg]
    simpa using h

/-- What comes before the first character of a pair does not count. -/
theorem afterPair_append_left {piece : List Char} (hpiece : first ∉ piece) (rest : List Char) :
    afterPair first second (piece ++ rest) = afterPair first second rest := by
  induction piece with
  | nil => rfl
  | cons c piece ih =>
    rw [List.mem_cons, not_or] at hpiece
    rw [List.cons_append, afterPair_cons fun h => hpiece.1 h.1.symm, ih hpiece.2]

theorem afterPair_pair (first second : Char) (rest : List Char) :
    afterPair first second (first :: second :: rest) = some rest := by
  rw [afterPair, if_pos ⟨rfl, rfl⟩]

theorem afterPair_eq_none : afterPair first second ahead = none ↔ ¬ [first, second] <:+: ahead := by
  induction ahead with
  | nil => simp [afterPair]
  | cons c rest ih =>
    rw [List.infix_cons_iff]
    by_cases h : c = first ∧ rest.head? = some second
    · obtain ⟨rfl, hrest⟩ := h
      obtain ⟨rest, rfl⟩ := List.head?_eq_some_iff.1 hrest
      rw [afterPair_pair]
      simp
    · rw [afterPair_cons h, ih]
      have hbegins : ¬ [first, second] <+: c :: rest := by
        rintro ⟨more, hmore⟩
        obtain ⟨rfl, rfl⟩ := List.cons.inj hmore
        exact h ⟨rfl, rfl⟩
      simp [hbegins]

/-- The pair is not left. -/
theorem cons_suffix_of_afterPair (h : afterPair first second ahead = some left) :
    second :: left <:+ ahead := by
  fun_induction afterPair first second ahead with
  | case1 c d rest hpair =>
    cases h
    rw [hpair.2]
    exact List.suffix_cons c _
  | case2 c d rest hpair ih => exact (ih h).trans (List.suffix_cons c _)
  | case3 => cases h

/-- There is no pair, if past a place there is none that was not there. -/
theorem afterPair_append_none (hpart : ∀ c ∈ s'.head?, c ≠ second)
    (hpair : afterPair first second s = none → afterPair first second s' = none)
    (h : afterPair first second (more ++ s) = none) :
    afterPair first second (more ++ s') = none := by
  induction more with
  | nil => exact hpair h
  | cons c more ih =>
    rw [List.cons_append] at h ⊢
    by_cases hc : c = first ∧ (more ++ s).head? = some second
    · obtain ⟨rfl, hrest⟩ := hc
      obtain ⟨rest, hrest⟩ := List.head?_eq_some_iff.1 hrest
      rw [hrest, afterPair_pair] at h
      cases h
    · rw [afterPair_cons hc] at h
      rw [afterPair_cons fun hc' => ?_]
      · exact ih h
      · cases more with
        | nil => exact hpart second hc'.2 rfl
        | cons d more => exact hc hc'

/-- The first pair stands where it did. -/
theorem afterPair_append (h : afterPair first second (more ++ s) = some (left ++ s)) :
    afterPair first second (more ++ s') = some (left ++ s') := by
  have hlonger {left : List Char} : afterPair first second s ≠ some (left ++ s) := fun h => by
    have := (cons_suffix_of_afterPair h).length_le
    simp only [List.length_cons, List.length_append] at this
    omega
  induction more with
  | nil => exact absurd h hlonger
  | cons c more ih =>
    rw [List.cons_append] at h ⊢
    by_cases hc : c = first ∧ (more ++ s).head? = some second
    · obtain ⟨rfl, hrest⟩ := hc
      cases more with
      | nil =>
        have := (cons_suffix_of_afterPair h).length_le
        obtain ⟨rest, hrest⟩ := List.head?_eq_some_iff.1 hrest
        rw [List.nil_append] at hrest
        rw [List.nil_append, hrest, afterPair_pair] at h
        have := congrArg List.length (Option.some.inj h)
        simp only [List.length_append, List.length_cons] at this
        omega
      | cons d more =>
        obtain rfl : d = second := Option.some.inj hrest
        rw [List.cons_append, afterPair_pair] at h ⊢
        rw [List.append_cancel_right (Option.some.inj h)]
    · rw [afterPair_cons hc] at h
      cases more with
      | nil => exact absurd h hlonger
      | cons d more =>
        have hc' : ¬ (c = first ∧ (d :: more ++ s').head? = some second) := hc
        rw [afterPair_cons hc']
        exact ih h

end Text

namespace Pattern

open Text (afterQuote afterPair)

variable {text text' s s' : List Char}

/-- Every piece of the pattern moves the cursor. -/
def Moves (p : Pattern) : Prop :=
  ∀ {text : List Char} (cur : Cursor text) (find : Cursor text → Option (Cursor text)),
    p.run cur find = p.run cur fun next => if cur.seen < next.seen then find next else none

theorem moves_set (chars : CharSet) : (set chars).Moves := by
  intro text cur find
  rw [run_set, run_set]
  refine Option.bind_congr fun next hnext => ?_
  rw [if_pos]
  rw [Cursor.seen_of_next? hnext]
  exact Nat.lt_succ_self _

/-- A repetition of a pattern that moves the cursor goes on with turn after turn. -/
theorem run_star {p : Pattern} (hp : p.Moves) (greedy : Bool) (cur : Cursor text)
    (find : Cursor text → Option (Cursor text)) :
    (star p greedy).run cur find = again p.run greedy find cur := by
  have hturn : (p.run cur fun next =>
        if cur.seen < next.seen then again p.run greedy find next else find next) =
      p.run cur fun next =>
        if cur.seen < next.seen then again p.run greedy find next else none := by
    rw [hp]
    congr 1
    funext next
    split <;> rfl
  rw [again]
  cases greedy with
  | true =>
    show orElse ((plus true p).run cur find) (fun _ => find cur) = _
    rw [run, hturn]
    rfl
  | false =>
    show orElse (find cur) (fun _ => (plus false p).run cur find) = _
    rw [run, hturn]
    rfl

theorem mem_notSingle (quote c : Char) : (CharSet.compl (.single quote)).mem c = !(c == quote) := by
  rw [CharSet.mem_compl, CharSet.mem_single]

/-! ### Texts in quotes -/

/-- What stands between quotes: another character, or two quotes in a row. -/
def betweenQuotes (quote : Char) : Pattern :=
  alt (set (.compl (.single quote))) (seq (set (.single quote)) (set (.single quote)))

theorem run_betweenQuotes (quote : Char) (cur : Cursor text)
    (find : Cursor text → Option (Cursor text)) :
    (betweenQuotes quote).run cur find =
      orElse ((cur.next? (.compl (.single quote))).bind find) fun _ =>
        (cur.next? (.single quote)).bind fun mid => (mid.next? (.single quote)).bind find :=
  rfl

theorem moves_betweenQuotes (quote : Char) : (betweenQuotes quote).Moves := by
  intro text cur find
  have hone := moves_set (.compl (.single quote)) cur find
  rw [run_set, run_set] at hone
  rw [run_betweenQuotes, run_betweenQuotes, hone]
  congr 1
  funext _
  refine Option.bind_congr fun mid hmid => Option.bind_congr fun next hnext => ?_
  rw [if_pos]
  rw [Cursor.seen_of_next? hnext, Cursor.seen_of_next? hmid]
  omega

/-- Looks for the quote that ends a text. -/
def closeQuote (quote : Char) (cur : Cursor text) : Option (Cursor text) :=
  again (betweenQuotes quote).run true (fun cur => (set (.single quote)).run cur some) cur

section

variable {quote c : Char} {cur : Cursor text} {rest : List Char}

theorem closeQuote_nil (hrest : cur.rest = []) : closeQuote quote cur = none := by
  rw [closeQuote, again, if_pos rfl, run_betweenQuotes, run_set, Cursor.next?_nil _ hrest,
    Cursor.next?_nil _ hrest]
  rfl

theorem closeQuote_of_ne (hrest : cur.rest = c :: rest) (hc : c ≠ quote) :
    ∃ next, next.rest = rest ∧ closeQuote quote cur = closeQuote quote next := by
  have hin : (CharSet.compl (.single quote)).mem c = true := by simpa [mem_notSingle] using hc
  have hout : (CharSet.single quote).mem c = false := by simpa using hc
  obtain ⟨next, hnext, hnextrest, hseen⟩ := Cursor.next?_cons _ hrest hin
  refine ⟨next, hnextrest, ?_⟩
  rw [closeQuote, again, if_pos rfl, run_betweenQuotes, run_set, hnext,
    Cursor.next?_cons_of_not hrest hout, Option.bind_some, if_pos (by omega)]
  show orElse (orElse (closeQuote quote next) fun _ => none) (fun _ => none) = _
  cases closeQuote quote next <;> rfl

/-- At a quote the text goes on if another follows and there is an end after the two. -/
theorem closeQuote_quote (hrest : cur.rest = quote :: rest) :
    ∃ mid, mid.rest = rest ∧
      ((∀ d ∈ rest.head?, d ≠ quote) → closeQuote quote cur = some mid) ∧
      ∀ more, rest = quote :: more → ∃ next, next.rest = more ∧
        closeQuote quote cur = (closeQuote quote next).or (some mid) := by
  have hin : (CharSet.single quote).mem quote = true := by rw [CharSet.mem_single, beq_self_eq_true]
  have hout : (CharSet.compl (.single quote)).mem quote = false := by
    rw [mem_notSingle, beq_self_eq_true]
    rfl
  obtain ⟨mid, hmid, hmidrest, hmidseen⟩ := Cursor.next?_cons _ hrest hin
  refine ⟨mid, hmidrest, fun hnot => ?_, fun more hmore => ?_⟩
  · have hnone : mid.next? (.single quote) = none := by
      refine Cursor.next?_eq_none fun d hd => ?_
      rw [hmidrest] at hd
      rw [CharSet.mem_single]
      exact beq_eq_false_iff_ne.2 (hnot d hd)
    rw [closeQuote, again, if_pos rfl, run_betweenQuotes, run_set,
      Cursor.next?_cons_of_not hrest hout, hmid, Option.bind_some, hnone]
    rfl
  · obtain ⟨next, hnext, hnextrest, hseen⟩ := Cursor.next?_cons _ (hmidrest.trans hmore) hin
    refine ⟨next, hnextrest, ?_⟩
    rw [closeQuote, again, if_pos rfl, run_betweenQuotes, run_set,
      Cursor.next?_cons_of_not hrest hout, hmid, Option.bind_some, hnext, Option.bind_some,
      if_pos (by omega)]
    show orElse (orElse none fun _ => closeQuote quote next) (fun _ => some mid) = _
    cases closeQuote quote next <;> rfl

/-- What is left after the quote that ends a text depends on the text ahead. -/
theorem rest_closeQuote (quote : Char) (cur : Cursor text) :
    (closeQuote quote cur).map (·.rest) = afterQuote quote cur.rest := by
  induction hn : cur.rest.length using Nat.strongRecOn generalizing cur with
  | ind n ih =>
    cases hrest : cur.rest with
    | nil =>
      rw [closeQuote_nil hrest]
      rfl
    | cons c rest =>
      have hlength : rest.length < n := by
        rw [← hn, hrest, List.length_cons]
        exact Nat.lt_succ_self _
      by_cases hc : c = quote
      · subst hc
        obtain ⟨mid, hmid, honce, htwice⟩ := closeQuote_quote hrest
        by_cases hd : rest.head? = some c
        · obtain ⟨more, hmore⟩ := List.head?_eq_some_iff.1 hd
          obtain ⟨next, hnext, hclose⟩ := htwice more hmore
          have hrec := ih more.length (by rw [hmore, List.length_cons] at hlength; omega) next
            (congrArg List.length hnext)
          rw [hnext] at hrec
          rw [hmore, Text.afterQuote_twice, hclose, ← hrec]
          cases closeQuote c next with
          | none =>
            rw [Option.none_or, Option.map_some, hmid, hmore]
            rfl
          | some stop => rfl
        · have hnot : ∀ d ∈ rest.head?, d ≠ c := by
            rintro d hmem rfl
            exact hd hmem
          rw [honce hnot, Text.afterQuote_once hnot, Option.map_some, hmid]
      · obtain ⟨next, hnext, hclose⟩ := closeQuote_of_ne hrest hc
        rw [hclose, Text.afterQuote_cons_of_ne hc,
          ih rest.length hlength next (congrArg List.length hnext), hnext]

end

/-! ### The first place of a pair -/

/-- Looks for the first pair of characters. -/
def closePair (first second : Char) (cur : Cursor text) : Option (Cursor text) :=
  again (set .any).run false
    (fun cur => (seq (set (.single first)) (set (.single second))).run cur some) cur

/-- What is left after the first pair depends on the text ahead. -/
theorem rest_closePair (first second : Char) (cur : Cursor text) :
    (closePair first second cur).map (·.rest) = afterPair first second cur.rest := by
  induction hn : cur.rest.length using Nat.strongRecOn generalizing cur with
  | ind n ih =>
    cases hrest : cur.rest with
    | nil =>
      rw [closePair, again, if_neg Bool.false_ne_true, run_set, Cursor.next?_nil _ hrest]
      show Option.map _ (orElse ((cur.next? _).bind _) _) = _
      rw [Cursor.next?_nil _ hrest]
      rfl
    | cons c rest =>
      obtain ⟨next, hnext, hnextrest, hseen⟩ := Cursor.next?_cons .any hrest rfl
      have hrec := ih rest.length (by rw [← hn, hrest, List.length_cons]; exact Nat.lt_succ_self _)
        next (congrArg List.length hnextrest)
      rw [hnextrest] at hrec
      have hclose : closePair first second cur =
          orElse ((cur.next? (.single first)).bind fun mid =>
            (mid.next? (.single second)).bind some) fun _ => closePair first second next := by
        rw [closePair, again, if_neg Bool.false_ne_true, run_set, hnext, Option.bind_some,
          if_pos (by omega)]
        rfl
      rw [hclose]
      by_cases hc : c = first
      · subst hc
        obtain ⟨mid, hmid, hmidrest, -⟩ := Cursor.next?_cons (.single c) hrest (by simp)
        rw [hmid, Option.bind_some]
        by_cases hd : rest.head? = some second
        · obtain ⟨more, rfl⟩ := List.head?_eq_some_iff.1 hd
          obtain ⟨last, hlast, hlastrest, -⟩ :=
            Cursor.next?_cons (.single second) hmidrest (by simp)
          rw [hlast, Text.afterPair_pair, ← hlastrest]
          rfl
        · have hnone : mid.next? (.single second) = none := by
            refine Cursor.next?_eq_none fun d hmem => ?_
            rw [hmidrest] at hmem
            rw [CharSet.mem_single]
            refine beq_eq_false_iff_ne.2 fun heq => hd ?_
            rw [← heq]
            exact hmem
          rw [hnone, Text.afterPair_cons fun h => hd h.2, ← hrec]
          rfl
      · rw [Cursor.next?_cons_of_not hrest (by simpa using hc),
          Text.afterPair_cons fun h => hc h.1, ← hrec]
        rfl

/-! ### Texts that part -/

variable {s s' : List Char}

theorem Cuts.closeQuote {quote : Char} (hpart : ∀ c ∈ s'.head?, c ≠ quote)
    (hquote : quote ∈ s' → quote ∈ s) :
    @Cuts text text' s s' (closeQuote quote) (closeQuote quote) := by
  refine of_rest (rest_closeQuote quote) (rest_closeQuote quote) (fun h => ?_) (fun more h => ?_)
    fun more left h => Text.afterQuote_append hpart hquote h
  · exact (List.suffix_cons _ _).trans (Text.cons_suffix_of_afterQuote h)
  · rw [Text.afterQuote_eq_none, List.mem_append, not_or] at h ⊢
    exact ⟨h.1, fun hmem => h.2 (hquote hmem)⟩

theorem Cuts.closePair {first second : Char} (hpart : ∀ c ∈ s'.head?, c ≠ second)
    (hpair : [first, second] <:+: s' → [first, second] <:+: s) :
    @Cuts text text' s s' (closePair first second) (closePair first second) := by
  refine of_rest (rest_closePair first second) (rest_closePair first second) (fun h => ?_)
    (fun more h => Text.afterPair_append_none hpart (fun hnone => ?_) h)
    fun more left h => Text.afterPair_append h
  · exact (List.suffix_cons _ _).trans (Text.cons_suffix_of_afterPair h)
  · rw [Text.afterPair_eq_none] at hnone ⊢
    exact fun hin => hnone (hpair hin)

theorem Cuts.choice {ps : List Pattern}
    (h : ∀ p ∈ ps, @Cuts text text' s s' (fun cur => p.run cur some)
      fun cur => p.run cur some)
    {mark : Char} (hpart : ∀ c ∈ s'.head?, c = mark) :
    @Cuts text text' s s' (fun cur => (choice ps).run cur some)
      fun cur => (choice ps).run cur some := by
  induction ps with
  | nil => exact Cuts.stop.next rfl hpart
  | cons p ps ih =>
    obtain ⟨hp, hps⟩ := List.forall_mem_cons.1 h
    cases ps with
    | nil => exact hp
    | cons q ps => exact hp.orElse (ih hps)

theorem literal_pair (first second : Char) :
    literal (String.ofList [first, second]) =
      seq (set (.single first)) (set (.single second)) := by
  rw [literal, String.toList_ofList]
  rfl

end Pattern

namespace Sql

open Pattern (Cuts betweenQuotes closeQuote closePair set seq star opt oneOf literal)

variable {mark : Char} {text text' s s' : List Char}

/-- Where two texts part, the second ends or has the mark, which is a blank or begins a comment. In
what it has left there is no word with a quote that is not in what the first has left. -/
structure Parted (mark : Char) (s s' : List Char) : Prop where
  mark_cases : mark = ' ' ∨ mark = '/'
  head : ∀ c ∈ s'.head?, c = mark
  words : ∀ word, mark ∉ word → '"' ∈ word ∨ '\'' ∈ word → word <:+: s' → word <:+: s

namespace Parted

theorem mark_ne (h : Parted mark s s') {c : Char} (hblank : c ≠ ' ') (hslash : c ≠ '/') :
    mark ≠ c := by
  rcases h.mark_cases with rfl | rfl
  · exact hblank.symm
  · exact hslash.symm

theorem head_ne (h : Parted mark s s') {c : Char} (hblank : c ≠ ' ') (hslash : c ≠ '/') :
    ∀ d ∈ s'.head?, d ≠ c := by
  intro d hd
  rw [h.head d hd]
  exact h.mark_ne hblank hslash

theorem not_mem_single (h : Parted mark s s') {c : Char} (hblank : c ≠ ' ') (hslash : c ≠ '/') :
    (CharSet.single c).mem mark = false := by
  rw [CharSet.mem_single]
  exact beq_eq_false_iff_ne.2 (h.mark_ne hblank hslash)

theorem mayContain (h : Parted mark s s') {p : Pattern} (hblank : p.mayContain ' ' = false)
    (hslash : p.mayContain '/' = false) : p.mayContain mark = false := by
  rcases h.mark_cases with rfl | rfl
  · exact hblank
  · exact hslash

end Parted

theorem cuts_quoted {quote : Char} (hquote : quote = '"' ∨ quote = '\'') (h : Parted mark s s') :
    @Cuts text text' s s' (fun cur => (quoted quote).run cur some)
      fun cur => (quoted quote).run cur some := by
  have hpattern : quoted quote = seq (set (.single quote))
      (seq (star (betweenQuotes quote)) (set (.single quote))) := by
    rw [quoted, Pattern.literal_pair]
    rfl
  have hblank : quote ≠ ' ' := by rcases hquote with rfl | rfl <;> decide
  have hslash : quote ≠ '/' := by rcases hquote with rfl | rfl <;> decide
  have hmem : quote ∈ s' → quote ∈ s := fun hmem => by
    obtain ⟨before, after, hs'⟩ := List.append_of_mem hmem
    have hword := h.words [quote] (by simpa using h.mark_ne hblank hslash)
      (by simpa [eq_comm] using hquote) ⟨before, after, by simp [hs']⟩
    exact hword.subset (List.mem_singleton_self quote)
  have hclose (text : List Char) : (fun cur : Cursor text =>
      (seq (star (betweenQuotes quote)) (set (.single quote))).run cur some) =
      closeQuote quote := by
    funext cur
    exact Pattern.run_star (Pattern.moves_betweenQuotes quote) true cur _
  have hcuts := @Cuts.closeQuote text text' s s' quote (h.head_ne hblank hslash) hmem
  rw [← hclose, ← hclose] at hcuts
  rw [hpattern]
  exact hcuts.next (h.not_mem_single hblank hslash) h.head

theorem cuts_plainString (h : Parted mark s s') :
    @Cuts text text' s s' (fun cur => plainString.run cur some)
      fun cur => plainString.run cur some :=
  (cuts_quoted (.inr rfl) h).run (p := opt (oneOf "nN")) (h.mayContain (by decide) (by decide))
    h.head

/-- A string such as `q'[it's]'` after its opening delimiter. -/
theorem cuts_delimited {first last : Char} (hfirst : first ≠ ' ' ∧ first ≠ '/')
    (hlast : last ≠ ' ' ∧ last ≠ '/') (h : Parted mark s s') :
    let p := Pattern.concat [set (.single first), star (set .any) false,
      literal (String.ofList [last, '\''])]
    @Cuts text text' s s' (fun cur => p.run cur some)
      fun cur => p.run cur some := by
  intro p
  have hpattern : p = seq (set (.single first)) (seq (star (set .any) false)
      (seq (set (.single last)) (set (.single '\'')))) := by
    show Pattern.concat [_, _, literal _] = _
    rw [Pattern.literal_pair]
    rfl
  have hclose (text : List Char) : (fun cur : Cursor text => (seq (star (set .any) false)
      (seq (set (.single last)) (set (.single '\'')))).run cur some) = closePair last '\'' := by
    funext cur
    exact Pattern.run_star (Pattern.moves_set .any) false cur _
  have hword : mark ∉ [last, '\''] := by
    simp [h.mark_ne hlast.1 hlast.2, h.mark_ne (c := '\'') (by decide) (by decide)]
  have hcuts := @Cuts.closePair text text' s s' last '\'' (h.head_ne (by decide) (by decide))
    (h.words [last, '\''] hword (.inr (by simp)))
  rw [← hclose, ← hclose] at hcuts
  rw [hpattern]
  exact hcuts.next (h.not_mem_single hfirst.1 hfirst.2) h.head

theorem cuts_alternativeQuoted (h : Parted mark s s') :
    @Cuts text text' s s' (fun cur => alternativeQuoted.run cur some)
      fun cur => alternativeQuoted.run cur some := by
  have hdelimiters : ∀ pair ∈ quoteDelimiters, (pair.1 ≠ ' ' ∧ pair.1 ≠ '/') ∧
      pair.2 ≠ ' ' ∧ pair.2 ≠ '/' := by decide
  have hchoice := @Cuts.choice text text' s s'
    (quoteDelimiters.map fun pair => Pattern.concat [set (.single pair.1),
      star (set .any) false, literal (String.ofList [pair.2, '\''])])
    (fun p hp => by
      obtain ⟨pair, hpair, rfl⟩ := List.mem_map.1 hp
      obtain ⟨hfirst, hlast⟩ := hdelimiters _ hpair
      exact cuts_delimited hfirst hlast h) mark h.head
  have hquote := hchoice.run (p := literal "'") (h.mayContain (by decide) (by decide)) h.head
  have hmark := hquote.run (p := oneOf "qQ") (h.mayContain (by decide) (by decide)) h.head
  exact hmark.run (p := opt (oneOf "nN")) (h.mayContain (by decide) (by decide)) h.head

end Sql
end SqlDoc

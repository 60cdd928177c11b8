/-
# The pieces that a pattern describes

`Describes` says which pieces of text a pattern stands for, without the order in which a search
tries them. A search finds only pieces that the pattern describes (`run_describes`). How such a
piece may begin and end and what it may contain is computed from the pattern (`mayBeginWith`,
`mayEndWith`, `mayContain`), and of a run of characters of a set the search finds all
(`rest_of_matchAt?_many`). The two characters of `\r\n` are found together
(`seen_of_lineEnd_return_feed`).

Key definitions: `Pattern.Describes`, `Pattern.mayBeEmpty`, `Pattern.mayEndWith`,
`Pattern.mayContain`, `Pattern.mustContain`, `Pattern.mayBeginWith`.
Key theorems: `Pattern.run_describes`, `Pattern.Describes.mayEndWith`,
`Pattern.rest_of_matchAt?_many`, `Pattern.seen_of_lineEnd_return_feed`.
-/
import SqlDoc.Pattern.Layout

namespace SqlDoc

namespace Cursor

variable {text : List Char}

/-- A step reads the next character, which is in the set. -/
theorem rest_of_next? {cur next : Cursor text} {s : CharSet} (h : cur.next? s = some next) :
    ∃ c, s.mem c = true ∧ cur.rest = c :: next.rest := by
  unfold next? at h
  split at h
  · cases h
  · rename_i c rest hrest
    split at h
    · rename_i hc
      refine ⟨c, hc, ?_⟩
      rw [hrest, ← Option.some.inj h]
    · cases h

/-- There is no step at the end of the text, or where the next character is not in the set. -/
theorem head_of_next?_eq_none {cur : Cursor text} {s : CharSet} (h : cur.next? s = none) :
    ∀ c ∈ cur.rest.head?, s.mem c = false := by
  intro c hc
  unfold next? at h
  split at h
  · rename_i hrest
    rw [hrest] at hc
    cases hc
  · rename_i d rest hrest
    split at h
    · cases h
    · rename_i hd
      rw [hrest] at hc
      rw [← Option.some.inj hc]
      simpa using hd

theorem next?_isSome {cur : Cursor text} {s : CharSet} {c : Char} {rest : List Char}
    (hrest : cur.rest = c :: rest) (hc : s.mem c = true) : ∃ next, cur.next? s = some next := by
  cases h : cur.next? s with
  | some next => exact ⟨next, rfl⟩
  | none =>
    have := head_of_next?_eq_none h c (by rw [hrest]; rfl)
    rw [hc] at this
    cases this

end Cursor

namespace Pattern

variable {text : List Char} {β : Type}

/-- The piece is one that the pattern stands for. -/
inductive Describes : Pattern → List Char → Prop where
  | empty : Describes empty []
  | set {s : CharSet} {c : Char} (h : s.mem c = true) : Describes (set s) [c]
  | seq {p q : Pattern} {first second : List Char} (hp : Describes p first)
      (hq : Describes q second) : Describes (seq p q) (first ++ second)
  | left {p q : Pattern} {piece : List Char} (h : Describes p piece) : Describes (alt p q) piece
  | right {p q : Pattern} {piece : List Char} (h : Describes q piece) : Describes (alt p q) piece
  | once {greedy : Bool} {p : Pattern} {piece : List Char} (h : Describes p piece) :
      Describes (plus greedy p) piece
  | more {greedy : Bool} {p : Pattern} {first second : List Char} (hp : Describes p first)
      (hmore : Describes (plus greedy p) second) : Describes (plus greedy p) (first ++ second)

/-- What holds of the pieces of a pattern, and of two texts in a row if it holds of both, holds of a
repetition. -/
theorem Describes.of_plus {greedy : Bool} {p : Pattern} {piece : List Char} {P : List Char → Prop}
    (h : (plus greedy p).Describes piece) (hpiece : ∀ piece, p.Describes piece → P piece)
    (happend : ∀ first second, P first → P second → P (first ++ second)) : P piece := by
  generalize hq : plus greedy p = q at h
  induction h with
  | empty | set | seq | left | right => cases hq
  | once h =>
    cases hq
    exact hpiece _ h
  | more hp _ _ ih =>
    cases hq
    exact happend _ _ (hpiece _ hp) (ih rfl)

/-! ### What a search finds -/

/-- A repetition that goes on reads nothing more or a piece of the repetition. -/
theorem again_describes {p : Pattern} {greedy : Bool} {follow : Cursor text → Option β} {x : β}
    (hstep : ∀ (cur : Cursor text) (k : Cursor text → Option β), p.run cur k = some x →
      ∃ stop piece, p.Describes piece ∧ cur.rest = piece ++ stop.rest ∧ k stop = some x)
    (cur : Cursor text) (h : again p.run greedy follow cur = some x) :
    ∃ stop piece, (piece = [] ∨ (plus greedy p).Describes piece) ∧
      cur.rest = piece ++ stop.rest ∧ follow stop = some x := by
  have turn : (p.run cur fun next =>
      if cur.seen < next.seen then again p.run greedy follow next else none) = some x →
      ∃ stop piece, (piece = [] ∨ (plus greedy p).Describes piece) ∧
        cur.rest = piece ++ stop.rest ∧ follow stop = some x := by
    intro ht
    obtain ⟨mid, first, hfirst, hrest, hmid⟩ := hstep _ _ ht
    split at hmid
    · rename_i hlt
      obtain ⟨stop, second, hsecond, hrest', hf⟩ := again_describes hstep mid hmid
      refine ⟨stop, first ++ second, Or.inr ?_, by rw [hrest, hrest', List.append_assoc], hf⟩
      rcases hsecond with rfl | hsecond
      · rw [List.append_nil]
        exact .once hfirst
      · exact .more hfirst hsecond
    · cases hmid
  rw [again] at h
  cases greedy with
  | true =>
    simp only [if_true, orElse] at h
    split at h
    · rename_i y hy
      exact turn (h ▸ hy)
    · exact ⟨cur, [], Or.inl rfl, rfl, h⟩
  | false =>
    simp only [Bool.false_eq_true, if_false, orElse] at h
    split at h
    · rename_i y hy
      exact ⟨cur, [], Or.inl rfl, rfl, h ▸ hy⟩
    · exact turn h
termination_by text.length - cur.seen
decreasing_by
  have := mid.seen_le
  omega

/-- A search reads a piece of the pattern and goes on after it. -/
theorem run_describes (p : Pattern) {x : β} :
    ∀ (cur : Cursor text) (follow : Cursor text → Option β), p.run cur follow = some x →
      ∃ stop piece, p.Describes piece ∧ cur.rest = piece ++ stop.rest ∧ follow stop = some x := by
  induction p with
  | empty => exact fun cur _ h => ⟨cur, [], .empty, rfl, h⟩
  | set s =>
    intro cur follow h
    obtain ⟨next, hn, hf⟩ := Option.bind_eq_some_iff.1 h
    obtain ⟨c, hc, hrest⟩ := Cursor.rest_of_next? hn
    exact ⟨next, [c], .set hc, hrest, hf⟩
  | seq p q ihp ihq =>
    intro cur follow h
    obtain ⟨mid, first, hfirst, h1, hmid⟩ := ihp _ _ h
    obtain ⟨stop, second, hsecond, h2, hf⟩ := ihq _ _ hmid
    exact ⟨stop, first ++ second, .seq hfirst hsecond, by rw [h1, h2, List.append_assoc], hf⟩
  | alt p q ihp ihq =>
    intro cur follow h
    simp only [run, orElse] at h
    split at h
    · rename_i y hy
      obtain ⟨stop, piece, hpiece, hrest, hf⟩ := ihp _ _ (h ▸ hy)
      exact ⟨stop, piece, .left hpiece, hrest, hf⟩
    · obtain ⟨stop, piece, hpiece, hrest, hf⟩ := ihq _ _ h
      exact ⟨stop, piece, .right hpiece, hrest, hf⟩
  | plus greedy p ih =>
    intro cur follow h
    obtain ⟨mid, first, hfirst, h1, hmid⟩ := ih _ _ h
    split at hmid
    · obtain ⟨stop, second, hsecond, h2, hf⟩ := again_describes ih _ hmid
      refine ⟨stop, first ++ second, ?_, by rw [h1, h2, List.append_assoc], hf⟩
      rcases hsecond with rfl | hsecond
      · rw [List.append_nil]
        exact .once hfirst
      · exact .more hfirst hsecond
    · exact ⟨mid, first, .once hfirst, h1, hmid⟩

/-- A match is a piece of the pattern. -/
theorem describes_of_matchAt? {p : Pattern} {cur stop : Cursor text}
    (h : p.matchAt? cur = some stop) :
    ∃ piece, p.Describes piece ∧ cur.rest = piece ++ stop.rest := by
  obtain ⟨stop', piece, hpiece, hrest, hf⟩ := p.run_describes cur some h
  exact ⟨piece, hpiece, Option.some.inj hf ▸ hrest⟩

/-! ### How a piece ends -/

/-- Some piece of the pattern is empty. -/
def mayBeEmpty : Pattern → Bool
  | empty => true
  | set _ => false
  | seq p q => p.mayBeEmpty && q.mayBeEmpty
  | alt p q => p.mayBeEmpty || q.mayBeEmpty
  | plus _ p => p.mayBeEmpty

/-- Pieces of the pattern may end with the character. -/
def mayEndWith (c : Char) : Pattern → Bool
  | empty => false
  | set s => s.mem c
  | seq p q => q.mayEndWith c || (q.mayBeEmpty && p.mayEndWith c)
  | alt p q => p.mayEndWith c || q.mayEndWith c
  | plus _ p => p.mayEndWith c

theorem Describes.mayBeEmpty {p : Pattern} {piece : List Char} (h : p.Describes piece)
    (hpiece : piece = []) : p.mayBeEmpty = true := by
  induction h with
  | empty => rfl
  | set => cases hpiece
  | seq _ _ ihp ihq =>
    rw [List.append_eq_nil_iff] at hpiece
    rw [Pattern.mayBeEmpty, ihp hpiece.1, ihq hpiece.2]
    rfl
  | left _ ih => rw [Pattern.mayBeEmpty, ih hpiece, Bool.true_or]
  | right _ ih => rw [Pattern.mayBeEmpty, ih hpiece, Bool.or_true]
  | once _ ih => exact ih hpiece
  | more _ _ ihp _ => exact ihp (List.append_eq_nil_iff.1 hpiece).1

/-- The last character of a piece is one with which pieces may end. -/
theorem Describes.mayEndWith {p : Pattern} {piece : List Char} {c : Char} (h : p.Describes piece)
    (hlast : piece.getLast? = some c) : p.mayEndWith c = true := by
  induction h with
  | empty => cases hlast
  | set hc => exact Option.some.inj hlast ▸ hc
  | seq _ hq ihp ihq =>
    rw [List.getLast?_append, Option.or_eq_some_iff] at hlast
    rw [Pattern.mayEndWith, Bool.or_eq_true, Bool.and_eq_true]
    rcases hlast with hlast | ⟨hnone, hlast⟩
    · exact Or.inl (ihq hlast)
    · exact Or.inr ⟨hq.mayBeEmpty (List.getLast?_eq_none_iff.1 hnone), ihp hlast⟩
  | left _ ih => rw [Pattern.mayEndWith, ih hlast, Bool.true_or]
  | right _ ih => rw [Pattern.mayEndWith, ih hlast, Bool.or_true]
  | once _ ih => exact ih hlast
  | more _ _ ihp ihmore =>
    rw [List.getLast?_append, Option.or_eq_some_iff] at hlast
    rcases hlast with hlast | ⟨-, hlast⟩
    · exact ihmore hlast
    · exact ihp hlast

/-- Pieces of the pattern may contain the character. -/
def mayContain (c : Char) : Pattern → Bool
  | empty => false
  | set s => s.mem c
  | seq p q => p.mayContain c || q.mayContain c
  | alt p q => p.mayContain c || q.mayContain c
  | plus _ p => p.mayContain c

theorem Describes.mayContain {p : Pattern} {piece : List Char} {c : Char} (h : p.Describes piece)
    (hmem : c ∈ piece) : p.mayContain c = true := by
  induction h with
  | empty => cases hmem
  | set hc => exact List.mem_singleton.1 hmem ▸ hc
  | seq _ _ ihp ihq =>
    rw [Pattern.mayContain, Bool.or_eq_true]
    exact (List.mem_append.1 hmem).imp ihp ihq
  | left _ ih => rw [Pattern.mayContain, ih hmem, Bool.true_or]
  | right _ ih => rw [Pattern.mayContain, ih hmem, Bool.or_true]
  | once _ ih => exact ih hmem
  | more _ _ ihp ihmore => exact (List.mem_append.1 hmem).elim ihp ihmore

/-- The set is written as a list of characters, all of which `P` accepts. -/
def listedIn (P : Char → Bool) : CharSet → Bool
  | .none => true
  | .range first last => first = last && P first
  | .union s t => listedIn P s && listedIn P t
  | _ => false

theorem of_listedIn {P : Char → Bool} {s : CharSet} (h : listedIn P s = true) {c : Char}
    (hc : s.mem c = true) : P c = true := by
  induction s with
  | none => cases hc
  | range first last =>
    obtain ⟨heq, hP⟩ := Bool.and_eq_true_iff.1 h
    obtain rfl : first = last := of_decide_eq_true heq
    have hc : (CharSet.single first).mem c = true := hc
    rw [CharSet.mem_single, beq_iff_eq] at hc
    rwa [hc]
  | union s t ihs iht =>
    obtain ⟨hs, ht⟩ := Bool.and_eq_true_iff.1 h
    rw [CharSet.mem_union, Bool.or_eq_true] at hc
    exact hc.elim (ihs hs) (iht ht)
  | property | inter | compl | ignoreCase => cases h

/-- All pieces of the pattern contain a character that `P` accepts. -/
def mustContain (P : Char → Bool) : Pattern → Bool
  | empty => false
  | set s => listedIn P s
  | seq p q => p.mustContain P || q.mustContain P
  | alt p q => p.mustContain P && q.mustContain P
  | plus _ p => p.mustContain P

theorem Describes.mustContain {P : Char → Bool} {p : Pattern} {piece : List Char}
    (h : p.Describes piece) (hp : p.mustContain P = true) : ∃ c ∈ piece, P c = true := by
  induction h with
  | empty => cases hp
  | set hc => exact ⟨_, List.mem_cons_self, of_listedIn hp hc⟩
  | seq _ _ ihp ihq =>
    rcases (Bool.or_eq_true _ _).mp hp with hp | hq
    · obtain ⟨c, hc, hP⟩ := ihp hp
      exact ⟨c, List.mem_append_left _ hc, hP⟩
    · obtain ⟨c, hc, hP⟩ := ihq hq
      exact ⟨c, List.mem_append_right _ hc, hP⟩
  | left _ ih => exact ih (Bool.and_eq_true_iff.1 hp).1
  | right _ ih => exact ih (Bool.and_eq_true_iff.1 hp).2
  | once _ ih => exact ih hp
  | more _ _ ihp _ =>
    obtain ⟨c, hc, hP⟩ := ihp hp
    exact ⟨c, List.mem_append_left _ hc, hP⟩

/-- Pieces of the pattern may begin with the character. -/
def mayBeginWith (c : Char) : Pattern → Bool
  | empty => false
  | set s => s.mem c
  | seq p q => p.mayBeginWith c || (p.mayBeEmpty && q.mayBeginWith c)
  | alt p q => p.mayBeginWith c || q.mayBeginWith c
  | plus _ p => p.mayBeginWith c

/-- The first character of a piece is one with which pieces may begin. -/
theorem Describes.mayBeginWith {p : Pattern} {piece : List Char} {c : Char} (h : p.Describes piece)
    (hfirst : piece.head? = some c) : p.mayBeginWith c = true := by
  induction h with
  | empty => cases hfirst
  | set hc => exact Option.some.inj hfirst ▸ hc
  | seq hp _ ihp ihq =>
    rw [List.head?_append, Option.or_eq_some_iff] at hfirst
    rw [Pattern.mayBeginWith, Bool.or_eq_true, Bool.and_eq_true]
    rcases hfirst with hfirst | ⟨hnone, hfirst⟩
    · exact Or.inl (ihp hfirst)
    · exact Or.inr ⟨hp.mayBeEmpty (List.head?_eq_none_iff.1 hnone), ihq hfirst⟩
  | left _ ih => rw [Pattern.mayBeginWith, ih hfirst, Bool.true_or]
  | right _ ih => rw [Pattern.mayBeginWith, ih hfirst, Bool.or_true]
  | once _ ih => exact ih hfirst
  | more _ _ ihp ihmore =>
    rw [List.head?_append, Option.or_eq_some_iff] at hfirst
    rcases hfirst with hfirst | ⟨-, hfirst⟩
    · exact ihp hfirst
    · exact ihmore hfirst

/-! ### Runs of characters -/

variable {s : CharSet}

theorem run_set (cur : Cursor text) (follow : Cursor text → Option β) :
    (set s).run cur follow = (cur.next? s).bind follow :=
  rfl

theorem again_isSome (step : Cursor text → (Cursor text → Option (Cursor text)) →
    Option (Cursor text)) (cur : Cursor text) : ∃ stop, again step true some cur = some stop := by
  rw [again]
  simp only [if_true, orElse]
  split
  · rename_i y _
    exact ⟨y, rfl⟩
  · exact ⟨cur, rfl⟩

/-- A greedy repetition of one character stops before the first that is not in the set. -/
theorem rest_of_again_set (cur : Cursor text) {stop : Cursor text}
    (h : again (set s).run true some cur = some stop) : stop.rest = cur.rest.dropWhile s.mem := by
  rw [again] at h
  simp only [if_true, orElse, run_set] at h
  cases hn : cur.next? s with
  | none =>
    rw [hn] at h
    have hstop : cur = stop := Option.some.inj h
    have hhead := Cursor.head_of_next?_eq_none hn
    rw [← hstop]
    cases hrest : cur.rest with
    | nil => rfl
    | cons c rest =>
      rw [List.dropWhile_cons_of_neg]
      rw [hhead c (by rw [hrest]; rfl)]
      exact Bool.false_ne_true
  | some next =>
    obtain ⟨c, hc, hrest⟩ := Cursor.rest_of_next? hn
    have hseen : cur.seen < next.seen := by
      rw [Cursor.seen_of_next? hn]
      omega
    rw [hn, Option.bind_some, if_pos hseen] at h
    obtain ⟨last, hlast⟩ := again_isSome (set s).run next
    rw [hlast] at h
    rw [← Option.some.inj h, rest_of_again_set next hlast, hrest, List.dropWhile_cons_of_pos hc]
termination_by text.length - cur.seen
decreasing_by
  have := next.seen_le
  omega

/-- Of a run of characters of a set a search finds all. -/
theorem rest_of_matchAt?_many {cur stop : Cursor text}
    (h : (many (set s)).matchAt? cur = some stop) : stop.rest = cur.rest.dropWhile s.mem := by
  obtain ⟨next, hn, hf⟩ := Option.bind_eq_some_iff.1 h
  obtain ⟨c, hc, hrest⟩ := Cursor.rest_of_next? hn
  rw [if_pos (by rw [Cursor.seen_of_next? hn]; omega)] at hf
  rw [rest_of_again_set next hf, hrest, List.dropWhile_cons_of_pos hc]

/-- A run is found where its first character is. -/
theorem matchAt?_many_isSome {cur : Cursor text} {c : Char} {rest : List Char}
    (hrest : cur.rest = c :: rest) (hc : s.mem c = true) :
    ∃ stop, (many (set s)).matchAt? cur = some stop := by
  obtain ⟨next, hn⟩ := Cursor.next?_isSome hrest hc
  obtain ⟨stop, hstop⟩ := again_isSome (set s).run next
  refine ⟨stop, ?_⟩
  have hseen : cur.seen < next.seen := by
    rw [Cursor.seen_of_next? hn]
    omega
  rw [matchAt?, many, run, run_set, hn, Option.bind_some, if_pos hseen, hstop]

/-- A search for a run that may be empty finds all of it. -/
theorem rest_of_run_star (cur : Cursor text) : ∃ stop, (star (set s)).run cur some = some stop ∧
    stop.rest = cur.rest.dropWhile s.mem := by
  have hstar : (star (set s)).run cur some =
      orElse ((many (set s)).matchAt? cur) fun _ => some cur :=
    rfl
  rw [hstar]
  cases hmany : (many (set s)).matchAt? cur with
  | some stop => exact ⟨stop, rfl, rest_of_matchAt?_many hmany⟩
  | none =>
    refine ⟨cur, rfl, ?_⟩
    cases hrest : cur.rest with
    | nil => rfl
    | cons c rest =>
      rw [List.dropWhile_cons_of_neg]
      intro hc
      obtain ⟨stop, hstop⟩ := matchAt?_many_isSome hrest hc
      cases hmany.symm.trans hstop

/-- A character and a run behind it are what such a pattern stands for. -/
theorem describes_word_iff {first : CharSet} {piece : List Char} :
    (seq (set first) (star (set s))).Describes piece ↔
      ∃ c tail, piece = c :: tail ∧ first.mem c = true ∧ ∀ d ∈ tail, s.mem d = true := by
  constructor
  · intro h
    cases h with
    | seq hfirst hrest =>
      cases hfirst with
      | set hc =>
        refine ⟨_, _, rfl, hc, fun d hd => ?_⟩
        have hmay : (s.mem d || false) = true := hrest.mayContain hd
        rwa [Bool.or_false] at hmay
  · rintro ⟨c, tail, rfl, hc, htail⟩
    have hrest : (star (set s)).Describes tail := by
      induction tail with
      | nil => exact .right .empty
      | cons d tail ih =>
        obtain ⟨hd, htail⟩ := List.forall_mem_cons.1 htail
        cases ih htail with
        | left h => exact .left (.more (.set hd) h)
        | right h =>
          cases h
          exact .left (.once (.set hd))
    exact .seq (.set hc) hrest
/-- A character and a run behind it are found together. -/
theorem rest_of_run_word {first : CharSet} {cur : Cursor text} {c : Char} {rest : List Char}
    (hrest : cur.rest = c :: rest) (hc : first.mem c = true) :
    ∃ stop, (seq (set first) (star (set s))).run cur some = some stop ∧
      stop.rest = rest.dropWhile s.mem := by
  obtain ⟨mid, hmid⟩ := Cursor.next?_isSome hrest hc
  obtain ⟨_, -, hcons⟩ := Cursor.rest_of_next? hmid
  obtain ⟨stop, hstop, hleft⟩ := rest_of_run_star (s := s) mid
  rw [← (List.cons.inj (hrest.symm.trans hcons)).2] at hleft
  refine ⟨stop, ?_, hleft⟩
  rw [run, run_set, hmid, Option.bind_some, hstop]

/-! ### Line ends -/

theorem Describes.eq_of_single {c : Char} {piece : List Char}
    (h : (Pattern.set (CharSet.single c)).Describes piece) : piece = [c] := by
  cases h with
  | set hc =>
    rw [CharSet.mem_single, beq_iff_eq] at hc
    rw [hc]

theorem eq_of_describes_lineEnd {piece : List Char} (h : lineEnd.Describes piece) :
    piece = ['\r', '\n'] ∨ piece = ['\r'] ∨ piece = ['\n'] := by
  change Describes (alt (seq (set (CharSet.single '\r')) (set (CharSet.single '\n')))
    (alt (set (CharSet.single '\r')) (set (CharSet.single '\n')))) piece at h
  cases h with
  | left h =>
    cases h with
    | seq h1 h2 =>
      rw [h1.eq_of_single, h2.eq_of_single]
      exact Or.inl rfl
  | right h =>
    cases h with
    | left h => exact Or.inr (Or.inl h.eq_of_single)
    | right h => exact Or.inr (Or.inr h.eq_of_single)

/-- A carriage return ends a line, whatever comes after it. -/
theorem matchAt?_lineEnd_return (rest : List Char) :
    ∃ stop, lineEnd.matchAt? (.start ('\r' :: rest)) = some stop := by
  change ∃ stop, orElse _ (fun _ => orElse (some _) _) = some stop
  simp only [orElse]
  split
  · rename_i stop _
    exact ⟨stop, rfl⟩
  · exact ⟨_, rfl⟩

/-- With a line feed after it, the two are one line end. -/
theorem seen_of_lineEnd_return_feed {rest : List Char} {stop : Cursor ('\r' :: '\n' :: rest)}
    (h : lineEnd.matchAt? (.start ('\r' :: '\n' :: rest)) = some stop) : stop.seen = 2 := by
  have hseen : some 2 = some stop.seen := congrArg (Option.map Cursor.seen) h
  exact (Option.some.inj hseen).symm

end Pattern
end SqlDoc

/-
# Where the tags of a comment are

The tags of a comment follow each other, and what lies between them is layout and what decorates the
comment. So a token that is neither lies in one tag and no other, and what a tag holds lies within
its span (`parseComment_spans`). All this is read off how the tokens are dealt out to the tags
(`TagReader.Dealt`), which holds for every bound on the number of tags that is no less than that of
the tokens.

Key definitions: `TagReader.Dealt`.
Key theorems: `TagReader.nextTag_cases`, `TagReader.dealt_tagsUpTo`, `lexDoc_inOrder`,
`parseComment_spans`.
-/
import SqlDoc.Proofs.Doc.Nesting
import SqlDoc.Proofs.Doc.Stack

namespace SqlDoc

namespace TagState

variable {s : TagState} {j : Nat}

/-- The next `j` tokens are layout. -/
def LayoutFor (s : TagState) (j : Nat) : Prop :=
  ∀ i < j, (s.after i).kind?.any DocKind.isLayout = true

theorem kind?_after (s : TagState) (i : Nat) : (s.after i).kind? = s.rest[i]?.map (·.kind) := by
  rw [kind?, rest_after, List.head?_drop]

theorem rest_after_of_getElem? {i : Nat} {d : DocToken} (h : s.rest[i]? = some d) :
    (s.after i).rest = d :: s.rest.drop (i + 1) := by
  obtain ⟨hi, rfl⟩ := List.getElem?_eq_some_iff.1 h
  rw [rest_after, List.drop_eq_getElem_cons hi]

end TagState

namespace TagReader

variable {s : TagState}

/-! ### The next tag -/

/-- A reader that carries out one program after another. -/
theorem run_bind {α β : Type} (m : TagReader α) (f : α → TagReader β) (s : TagState) :
    (m >>= f).run s = (f (m.run s).1).run (m.run s).2 :=
  rfl

theorem run_get {α : Type} (f : TagState → TagReader α) (s : TagState) :
    (get >>= f).run s = (f s).run s :=
  rfl

theorem skipLayout_cases (s : TagState) : ∃ j ≤ s.rest.length, s.LayoutFor j ∧
    skipLayout.run s = ((), s.after j) ∧ (s.after j).kind?.any DocKind.isLayout = false := by
  obtain ⟨j, hj, -, hrun, -, -, hlayout, hend⟩ := takes_takeWhile (s := s)
    (p := fun s => s.kind?.any DocKind.isLayout) (I := fun _ => True) trivial fun s _ h => by
      refine ⟨?_, trivial⟩
      obtain ⟨kind, hkind, hlayout⟩ := (Option.any_eq_true _ _).1 h
      exact TagState.startsTag_of_kind? hkind (by rintro rfl; cases hlayout)
  refine ⟨j, hj, hlayout, Prod.ext rfl hrun, ?_⟩
  rcases hend with hend | hend
  · rw [TagState.kind?, hend]
    rfl
  · exact hend

/-- A description takes all up to the next marker that begins a tag. -/
theorem tagOf_description (hs : s.InOrder) (hne : s.rest ≠ []) (hmarker : s.atMarker = false)
    {n : Nat} (hn : 2 * s.rest.length + 1 ≤ n) :
    ∃ k, ((description n).run s).2 = s.after k ∧ TagOf s k ((description n).run s).1 := by
  obtain ⟨k, hk, hunmarked, hrun, hholds, hpos⟩ := (ReadsTo.all n).content .block s hs hn
  refine ⟨k, hrun, hpos rfl hne hmarker, hk, fun i _ hi => hunmarked i hi, ?_, hholds⟩
  rw [← hrun]
  rfl

/-- Layout is read, and then a tag, unless no tokens are left. -/
theorem nextTag_cases (hs : s.InOrder) : ∃ j ≤ s.rest.length, s.LayoutFor j ∧
    ((s.after j).rest = [] ∧ nextTag.run s = (none, s.after j) ∨
      ∃ k t, TagOf (s.after j) k t ∧ nextTag.run s = (some t, s.after (j + k))) := by
  obtain ⟨j, hj, hlayout, hskip, -⟩ := skipLayout_cases s
  refine ⟨j, hj, hlayout, ?_⟩
  have hs := hs.after j
  let bound := 2 * ((s.after j).rest.length + 1)
  have hbound : 2 * (s.after j).rest.length + 1 ≤ bound := by omega
  have hfound {m : TagReader Tag} (h : ∃ k, (m.run (s.after j)).2 = (s.after j).after k ∧
      TagOf (s.after j) k (m.run (s.after j)).1) :
      ∃ k t, TagOf (s.after j) k t ∧ (some <$> m).run (s.after j) = (some t, s.after (j + k)) := by
    obtain ⟨k, hrun, htag⟩ := h
    exact ⟨k, _, htag, Prod.ext rfl (hrun.trans (s.after_add j k).symm)⟩
  rw [nextTag, run_bind, hskip, run_get]
  dsimp only
  split
  · rename_i hnone
    refine Or.inl ⟨?_, rfl⟩
    cases hrest : (s.after j).rest with
    | nil => rfl
    | cons t rest =>
      rw [TagState.kind?_eq hrest] at hnone
      cases hnone
  · rename_i hkind
    obtain ⟨t, rest, hrest, -⟩ := TagState.rest_ne_nil_of_kind? hkind
    have hne : (s.after j).rest ≠ [] := hrest ▸ List.cons_ne_nil t rest
    exact Or.inr (hfound ((ReadsTo.all bound).tag .block _ hs (by omega) hne))
  · rename_i kind hother hkind
    obtain ⟨t, rest, hrest, -⟩ := TagState.rest_ne_nil_of_kind? hkind
    have hne : (s.after j).rest ≠ [] := hrest ▸ List.cons_ne_nil t rest
    have hmarker : (s.after j).atMarker = false := by
      rw [TagState.atMarker, hkind, Bool.and_eq_false_iff]
      exact Or.inr (by simpa using hother)
    exact Or.inr (hfound (tagOf_description hs hne hmarker hbound))

/-- A tag lies over each of its tokens. -/
theorem TagOf.encloses {k : Nat} {t : Tag} (ht : TagOf s k t) (hs : s.InOrder) {i : Nat}
    {d : DocToken} (hi : i < k) (hd : s.rest[i]? = some d) : t.span.Encloses d.span := by
  have hrest := TagState.rest_after_of_getElem? hd
  have hstop : d.span.stop = (s.after (i + 1)).stop := by
    rw [s.after_add, TagState.after_one hrest]
    rfl
  have hle := ht.le
  rw [ht.span]
  constructor
  · rw [← TagState.place_eq hrest]
    exact hs.place_le (by omega)
  · obtain ⟨m, rfl⟩ := Nat.exists_eq_add_of_lt hi
    have hle := (hs.after (i + 1)).stop_le m
    rw [← s.after_add, Nat.add_right_comm i 1 m] at hle
    exact hstop.le.trans hle

/-! ### All tags -/

/-- The tokens ahead are dealt out to the tags: what comes before a tag and after the last one is
layout. -/
inductive Dealt : TagState → List Tag → Prop where
  | nil {s : TagState} (h : s.LayoutFor s.rest.length) : Dealt s []
  | cons {s : TagState} {j k : Nat} {t : Tag} {tags : List Tag} (hlayout : s.LayoutFor j)
      (ht : TagOf (s.after j) k t) (h : Dealt (s.after (j + k)) tags) : Dealt s (t :: tags)

theorem dealt_tagsUpTo {n : Nat} (hs : s.InOrder) (hn : s.rest.length ≤ n) :
    Dealt s ((tagsUpTo n).run s).1 := by
  induction n generalizing s with
  | zero =>
    refine .nil fun i hi => ?_
    omega
  | succ n ih =>
    obtain ⟨j, hj, hlayout, hnext⟩ := nextTag_cases hs
    rw [tagsUpTo, run_bind]
    rcases hnext with ⟨hrest, hrun⟩ | ⟨k, t, ht, hrun⟩
    · rw [hrun]
      refine .nil ?_
      rw [s.rest_after, List.drop_eq_nil_iff] at hrest
      rwa [Nat.le_antisymm hrest hj]
    · rw [hrun]
      have := ht.pos
      refine .cons hlayout ht (ih (hs.after (j + k)) ?_)
      rw [s.rest_after, List.length_drop]
      omega

namespace Dealt

variable {tags : List Tag}

theorem tagOf (h : Dealt s tags) (hs : s.InOrder) :
    ∀ t ∈ tags, s.stop ≤ t.span.start ∧ t.span.start < t.span.stop ∧ (Construct.tag t).Nests := by
  induction h with
  | nil => exact fun _ h => absurd h List.not_mem_nil
  | @cons s j k t tags _ ht _ ih =>
    refine List.forall_mem_cons.2 ⟨?_, fun u hu => ?_⟩
    · obtain ⟨hstart, -, hspan, hnests⟩ := ht.holds (hs.after j) _ List.mem_cons_self
      exact ⟨((hs.stop_le j).trans (hs.after j).stop_le_place).trans hstart, hspan, hnests⟩
    · obtain ⟨hstart, hu⟩ := ih (hs.after (j + k)) u hu
      exact ⟨(hs.stop_le (j + k)).trans hstart, hu⟩

/-- The tags follow each other. -/
theorem pairwise (h : Dealt s tags) (hs : s.InOrder) :
    tags.Pairwise fun t u => t.span.stop ≤ u.span.start := by
  induction h with
  | nil => exact .nil
  | @cons s j k t tags _ ht h ih =>
    refine .cons (fun u hu => ?_) (ih (hs.after (j + k)))
    rw [ht.span]
    show ((s.after j).after k).stop ≤ u.span.start
    rw [← s.after_add]
    exact (h.tagOf (hs.after (j + k)) u hu).1

/-- A token that is no layout lies in one of the tags. -/
theorem encloses (h : Dealt s tags) (hs : s.InOrder) {i : Nat} {d : DocToken}
    (hd : s.rest[i]? = some d) (hlayout : d.kind.isLayout = false) :
    ∃ t ∈ tags, t.span.Encloses d.span := by
  have hkind : (s.after i).kind?.any DocKind.isLayout = false := by
    rw [s.kind?_after, hd]
    exact hlayout
  induction h generalizing i with
  | @nil s hall =>
    have hi : i < s.rest.length := (List.getElem?_eq_some_iff.1 hd).1
    rw [hall i hi] at hkind
    cases hkind
  | @cons s j k t tags hbefore ht h ih =>
    by_cases hij : i < j
    · rw [hbefore i hij] at hkind
      cases hkind
    obtain ⟨i, rfl⟩ := Nat.exists_eq_add_of_le (Nat.le_of_not_lt hij)
    have hd' : (s.after j).rest[i]? = some d := by
      rwa [s.rest_after, List.getElem?_drop]
    by_cases hik : i < k
    · exact ⟨t, List.mem_cons_self, ht.encloses (hs.after j) hik hd'⟩
    · obtain ⟨i, rfl⟩ := Nat.exists_eq_add_of_le (Nat.le_of_not_lt hik)
      rw [← Nat.add_assoc] at hd hkind
      rw [s.after_add] at hkind
      obtain ⟨u, hu, hencloses⟩ := ih (hs.after (j + k))
        (by rwa [s.rest_after, List.getElem?_drop]) hkind
      exact ⟨u, List.mem_cons_of_mem t hu, hencloses⟩

end Dealt

/-- What is not empty lies in no more than one of the spans that follow each other. -/
theorem countP_encloses_le_one {tags : List Tag} {span : Span} (hspan : span.start < span.stop)
    (h : tags.Pairwise fun t u => t.span.stop ≤ u.span.start) :
    tags.countP (fun t => t.span.Encloses span) ≤ 1 := by
  induction h with
  | nil => exact Nat.zero_le 1
  | @cons t tags ht _ ih =>
    rw [List.countP_cons]
    by_cases hencloses : t.span.Encloses span
    · have hnone : tags.countP (fun t => t.span.Encloses span) = 0 := by
        refine List.countP_eq_zero.2 fun u hu hother => ?_
        have hother : u.span.Encloses span := of_decide_eq_true hother
        exact lt_irrefl _ (hspan.trans_le ((hencloses.2.trans (ht u hu)).trans hother.1))
      simp [hnone, hencloses]
    · simpa [hencloses] using ih

/-- A token that is no layout lies in exactly one of the tags. -/
theorem Dealt.countP_encloses {tags : List Tag} (h : Dealt s tags) (hs : s.InOrder) {d : DocToken}
    (hd : d ∈ s.rest) (hlayout : d.kind.isLayout = false) :
    tags.countP (fun t => t.span.Encloses d.span) = 1 := by
  obtain ⟨i, hi⟩ := List.getElem?_of_mem hd
  have hrest := TagState.rest_after_of_getElem? hi
  have hspan : d.span.start < d.span.stop := by
    have hforward := (hs.after i).place_lt_stop_take (hrest ▸ List.cons_ne_nil _ _)
    rwa [TagState.place_eq hrest, TagState.take_eq_pass hrest] at hforward
  obtain ⟨t, ht, hencloses⟩ := h.encloses hs hi hlayout
  have hpos : 0 < tags.countP (fun t => t.span.Encloses d.span) :=
    List.countP_pos_iff.2 ⟨t, ht, decide_eq_true hencloses⟩
  exact Nat.le_antisymm (countP_encloses_le_one hspan (h.pairwise hs)) hpos

theorem tagsUpTo_of_rest_eq_nil (hrest : s.rest = []) (n : Nat) :
    ((tagsUpTo n).run s).1 = [] := by
  have hs : s.InOrder := by
    rw [TagState.InOrder, hrest]
    trivial
  cases n with
  | zero => rfl
  | succ n =>
    obtain ⟨j, -, -, ⟨-, hrun⟩ | ⟨k, t, ht, -⟩⟩ := nextTag_cases hs
    · rw [tagsUpTo, run_bind, hrun]
      rfl
    · have hle := ht.le
      have hpos := ht.pos
      rw [s.rest_after, hrest, List.drop_nil] at hle
      exact absurd hle (Nat.not_le_of_lt hpos)

/-- Asking for more tags than there are tokens changes nothing. -/
theorem tagsUpTo_eq {n m : Nat} (hs : s.InOrder) (hn : s.rest.length ≤ n)
    (hm : s.rest.length ≤ m) : ((tagsUpTo n).run s).1 = ((tagsUpTo m).run s).1 := by
  have hnil {s : TagState} (h : s.rest.length ≤ 0) : s.rest = [] :=
    List.length_eq_zero_iff.1 (Nat.le_zero.1 h)
  induction n generalizing s m with
  | zero => rw [tagsUpTo_of_rest_eq_nil (hnil hn), tagsUpTo_of_rest_eq_nil (hnil hn)]
  | succ n ih =>
    cases m with
    | zero => rw [tagsUpTo_of_rest_eq_nil (hnil hm), tagsUpTo_of_rest_eq_nil (hnil hm)]
    | succ m =>
      obtain ⟨j, -, -, hnext⟩ := nextTag_cases hs
      rw [tagsUpTo, tagsUpTo, run_bind, run_bind]
      rcases hnext with ⟨-, hrun⟩ | ⟨k, t, ht, hrun⟩
      · rw [hrun]
      · rw [hrun]
        have hpos := ht.pos
        have hless {l : Nat} (hl : s.rest.length ≤ l + 1) :
            (s.after (j + k)).rest.length ≤ l := by
          rw [s.rest_after, List.length_drop]
          omega
        exact congrArg (t :: ·) (ih (hs.after (j + k)) (hless hn) (hless hm))

end TagReader

/-! ### The tokens of a comment -/

theorem InOrderFrom.filter {p : Position} {tokens : List DocToken} (h : InOrderFrom p tokens)
    (keep : DocToken → Bool) : InOrderFrom p (tokens.filter keep) := by
  induction tokens generalizing p with
  | nil => trivial
  | cons t rest ih =>
    obtain ⟨hstart, hspan, hrest⟩ := h
    rw [List.filter_cons]
    split
    · exact ⟨hstart, hspan, ih hrest⟩
    · exact ih (hrest.mono (hstart.trans hspan.le))

theorem Lexer.position_lt_of_step {κ : Type} {g : Grammar κ} {lx next : Lexer g} {t : Token κ}
    (h : lx.step = .token t next) : lx.position < next.position := by
  rw [(Lexer.span_of_step h).2]
  exact lx.position.lt_advance (Lexer.text_ne_nil_of_step h)

theorem Lexer.Reads.inOrder {lx next : Lexer docGrammar} {tokens : List DocToken}
    (h : lx.Reads tokens next) : InOrderFrom lx.position tokens := by
  induction h with
  | nil => trivial
  | cons hstep _ ih =>
    rw [InOrderFrom, (Lexer.span_of_step hstep).1]
    exact ⟨le_refl _, Lexer.position_lt_of_step hstep, ih⟩

/-- The tokens of a comment follow each other. -/
theorem lexDoc_inOrder (text : String) (start : Position) :
    InOrderFrom start (lexDoc text start).1 := by
  obtain ⟨lx, hreads, -⟩ := lexDoc_reads text start
  exact hreads.inOrder

/-! ### The tags of a comment -/

open TagReader in
theorem parseComment_dealt (text : String) (start : Position) :
    let s : TagState := { rest := (lexDoc text start).1.filter fun d => !d.isTrivia, stop := start }
    s.InOrder ∧ Dealt s (parseComment text start).tags :=
  have hs := (lexDoc_inOrder text start).filter _
  ⟨hs, dealt_tagsUpTo hs (le_refl _)⟩

/-- No tag begins before its comment. -/
theorem parseComment_start_le (text : String) (start : Position) :
    ∀ t ∈ (parseComment text start).tags, start ≤ t.span.start := by
  obtain ⟨hs, hdealt⟩ := parseComment_dealt text start
  exact fun t ht => (hdealt.tagOf hs t ht).1

open TagReader in
/-- The tags of a comment are not empty and follow each other, and each token of the comment that is
neither trivia nor layout lies in exactly one of them. What is in a tag, however deep, lies within
what it is in. However many tags are asked for, no more are found than these. -/
theorem parseComment_spans (text : String) (start : Position) :
    let tokens := (lexDoc text start).1
    let tags := (parseComment text start).tags
    (∀ t ∈ tags, t.span.start < t.span.stop) ∧
      tags.Pairwise (fun t u => t.span.stop ≤ u.span.start) ∧
      (∀ d ∈ tokens, d.isTrivia = false → d.kind.isLayout = false →
        tags.countP (fun t => t.span.Encloses d.span) = 1) ∧
      (∀ t ∈ tags, (Construct.tag t).Nests) ∧
      ∀ n, tokens.length ≤ n →
        ((tagsUpTo n).run { rest := tokens.filter fun d => !d.isTrivia, stop := start }).1 =
          tags := by
  intro tokens tags
  obtain ⟨hs, hdealt⟩ := parseComment_dealt text start
  refine ⟨fun t ht => (hdealt.tagOf hs t ht).2.1, hdealt.pairwise hs, fun d hd htrivia hlayout =>
    hdealt.countP_encloses hs (List.mem_filter.2 ⟨hd, ?_⟩) hlayout,
    fun t ht => (hdealt.tagOf hs t ht).2.2, fun n hn => ?_⟩
  · rw [htrivia]
    rfl
  · exact tagsUpTo_eq hs ((List.length_filter_le _ _).trans hn) (le_refl _)

end SqlDoc

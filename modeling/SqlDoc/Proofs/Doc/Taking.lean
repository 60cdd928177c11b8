/-
# What a reader of tags takes

A program that reads tags takes tokens, in order, and does nothing else that lasts: the recordings
and delimiters that it opens are closed when it ends, so it leaves the state that comes after so
many tokens (`TagState.after`). None of the tokens it takes is a marker at the start of a line. Both
hold of a program if they hold of its parts (`Takes.bind`), and the programs for names, values and
the words of a tag are taken apart here.

Key definitions: `TagState.after`, `TagState.Unmarked`, `TagReader.Takes`.
Key theorems: `TagReader.Takes.bind`, `TagReader.Takes.recording`, `TagReader.Takes.nested`,
`TagReader.takes_takeWhile`, `TagReader.takes_reference`.
-/
import SqlDoc.Doc.Comment

namespace SqlDoc

/-! ### States after tokens -/

namespace TagState

variable {s : TagState} {t : DocToken} {rest : List DocToken} {n : Nat}

/-- The state after `n` tokens, or after all of them if there are not so many. -/
def after (s : TagState) : Nat → TagState
  | 0 => s
  | n + 1 => (s.after n).take

@[simp] theorem after_zero (s : TagState) : s.after 0 = s :=
  rfl

@[simp] theorem rest_after (s : TagState) (n : Nat) : (s.after n).rest = s.rest.drop n := by
  induction n with
  | zero => rfl
  | succ n ih => rw [after, rest_take, ih, List.tail_drop]

theorem after_add (s : TagState) (m n : Nat) : s.after (m + n) = (s.after m).after n := by
  induction n with
  | zero => rfl
  | succ n ih => exact congrArg take ih

theorem take_eq_pass (h : s.rest = t :: rest) : s.take = s.pass t rest := by
  unfold take
  split <;> simp_all

theorem after_one (h : s.rest = t :: rest) : s.after 1 = s.pass t rest :=
  take_eq_pass h

theorem kind?_eq (h : s.rest = t :: rest) : s.kind? = some t.kind := by
  rw [kind?, h]
  rfl

theorem place_eq (h : s.rest = t :: rest) : s.place = t.span.start := by
  rw [place, h]
  rfl

theorem rest_ne_nil_of_kind? {kind : DocKind} (h : s.kind? = some kind) :
    ∃ t rest, s.rest = t :: rest ∧ t.kind = kind := by
  cases hrest : s.rest with
  | nil =>
    rw [kind?, hrest] at h
    cases h
  | cons t rest =>
    rw [kind?_eq hrest] at h
    exact ⟨t, rest, rfl, Option.some.inj h⟩

/-- The state inside one more brace or bracket. -/
def deeper (s : TagState) : TagState :=
  { s with depth := s.depth + 1 }

/-- Taking a token does not look at what is open. -/
theorem after_deeper (s : TagState) (n : Nat) : s.deeper.after n = (s.after n).deeper := by
  induction n with
  | zero => rfl
  | succ n ih =>
    rw [after, ih, after, deeper, take, take]
    dsimp only
    split <;> rfl

@[simp] theorem rest_endRecording (s : TagState) : s.endRecording.2.rest = s.rest := by
  unfold endRecording
  split <;> rfl

/-- The recording begun last can be ended before tokens or after them. -/
theorem after_endRecording (s : TagState) (n : Nat) :
    (s.after n).endRecording.2 = s.endRecording.2.after n := by
  have hpass (s : TagState) (t : DocToken) (rest : List DocToken) :
      (s.pass t rest).endRecording.2 = s.endRecording.2.pass t rest := by
    cases h : s.recordings <;> simp [endRecording, pass, h]
  induction n with
  | zero => rfl
  | succ n ih =>
    show (s.after n).take.endRecording.2 = (s.endRecording.2.after n).take
    rw [← ih]
    cases h : (s.after n).rest with
    | nil =>
      have h' := (s.after n).rest_endRecording.trans h
      unfold take
      rw [h, h']
    | cons t rest =>
      rw [take_eq_pass h, take_eq_pass ((s.after n).rest_endRecording.trans h), hpass]

/-! ### Markers at the start of a line -/

/-- Next is a marker at the start of a line. -/
def startsTag (s : TagState) : Bool :=
  s.lineStart && s.kind? == some .tag

theorem startsTag_of_kind? {kind : DocKind} (h : s.kind? = some kind) (hkind : kind ≠ .tag) :
    s.startsTag = false := by
  rw [startsTag, h]
  simp [hkind]

theorem startsTag_of_lineStart (h : s.lineStart = false) : s.startsTag = false := by
  rw [startsTag, h, Bool.false_and]

/-- A marker at the start of a line begins a tag, whatever is open. -/
theorem startsTag_of_atMarker (h : s.atMarker = false) : s.startsTag = false := by
  rw [atMarker, Bool.and_eq_false_iff, Bool.or_eq_false_iff] at h
  rw [startsTag, Bool.and_eq_false_iff]
  exact h.imp_left And.left

/-- None of the next `n` tokens is a marker at the start of a line. -/
def Unmarked (s : TagState) (n : Nat) : Prop :=
  ∀ i < n, (s.after i).startsTag = false

theorem unmarked_zero (s : TagState) : s.Unmarked 0 :=
  fun _ hi => absurd hi (Nat.not_lt_zero _)

theorem unmarked_one (h : s.startsTag = false) : s.Unmarked 1 := by
  intro i hi
  rw [Nat.lt_one_iff.1 hi]
  exact h

theorem Unmarked.add {m : Nat} (h1 : s.Unmarked m) (h2 : (s.after m).Unmarked n) :
    s.Unmarked (m + n) := by
  intro i hi
  by_cases him : i < m
  · exact h1 i him
  · obtain ⟨j, rfl⟩ := Nat.exists_eq_add_of_le (Nat.le_of_not_lt him)
    rw [after_add]
    exact h2 j (by omega)

/-- Recordings do not decide what is a marker. -/
theorem unmarked_endRecording (s : TagState) (n : Nat) :
    s.endRecording.2.Unmarked n ↔ s.Unmarked n := by
  have hsame (i : Nat) : (s.endRecording.2.after i).startsTag = (s.after i).startsTag := by
    rw [← after_endRecording]
    unfold endRecording
    split <;> rfl
  unfold Unmarked
  simp only [hsame]

theorem unmarked_beginRecording (s : TagState) (n : Nat) :
    s.beginRecording.Unmarked n ↔ s.Unmarked n :=
  (s.beginRecording.unmarked_endRecording n).symm

/-- What is open does not decide what is a marker at the start of a line. -/
theorem unmarked_deeper (s : TagState) (n : Nat) : s.deeper.Unmarked n ↔ s.Unmarked n := by
  unfold Unmarked
  simp only [after_deeper]
  rfl

end TagState

/-! ### Programs -/

namespace TagReader

variable {α β : Type}

/-- From the state `s` the program takes some of the tokens ahead and does nothing else that lasts.
None of them is a marker at the start of a line. Their number and the result have `Q`. -/
def Takes (m : TagReader α) (s : TagState) (Q : Nat → α → Prop := fun _ _ => True) : Prop :=
  ∃ n ≤ s.rest.length, s.Unmarked n ∧ (m.run s).2 = s.after n ∧ Q n (m.run s).1

section

variable {m : TagReader α} {f : α → TagReader β} {s : TagState} {Q R : Nat → α → Prop}
  {P : Nat → β → Prop}

theorem Takes.pure {a : α} (h : Q 0 a) : Takes (Pure.pure a) s Q :=
  ⟨0, Nat.zero_le _, s.unmarked_zero, rfl, h⟩

theorem Takes.mono (hm : Takes m s Q) (h : ∀ n a, Q n a → R n a) : Takes m s R :=
  let ⟨n, hn, hunmarked, hrun, hQ⟩ := hm
  ⟨n, hn, hunmarked, hrun, h n _ hQ⟩

theorem Takes.bind (hm : Takes m s Q)
    (hf : ∀ n a, n ≤ s.rest.length → Q n a → Takes (f a) (s.after n) fun k b => P (n + k) b) :
    Takes (m >>= f) s P := by
  obtain ⟨n, hn, hunmarked, hrun, hQ⟩ := hm
  obtain ⟨k, hk, hunmarked', hrun', hP⟩ := hf n _ hn hQ
  have hbind : (m >>= f).run s = (f (m.run s).1).run (s.after n) := by
    rw [← hrun]
    rfl
  rw [s.rest_after, List.length_drop] at hk
  refine ⟨n + k, by omega, hunmarked.add hunmarked', ?_, ?_⟩
  · rw [hbind, hrun', s.after_add]
  · rw [hbind]
    exact hP

theorem Takes.map {g : α → β} (hm : Takes m s Q) (hg : ∀ n a, Q n a → P n (g a)) :
    Takes (g <$> m) s P :=
  let ⟨n, hn, hunmarked, hrun, hQ⟩ := hm
  ⟨n, hn, hunmarked, hrun, hg n _ hQ⟩

/-- A program that only looks. -/
theorem Takes.look {a : α} (hrun : m.run s = (a, s)) (hf : Takes (f a) s P) :
    Takes (m >>= f) s P := by
  have hbind : (m >>= f).run s = (f (m.run s).1).run (m.run s).2 := rfl
  rw [hrun] at hbind
  unfold Takes
  rw [hbind]
  exact hf

theorem Takes.get {f : TagState → TagReader β} (hf : Takes (f s) s P) :
    Takes (MonadState.get >>= f) s P :=
  hf.look rfl

theorem Takes.at? {kind : DocKind} {f : Bool → TagReader β}
    (hf : Takes (f (s.kind? == some kind)) s P) : Takes (TagReader.at? kind >>= f) s P :=
  hf.look rfl

theorem Takes.secondIs {kind : DocKind} {f : Bool → TagReader β}
    (hf : Takes (f (s.secondKind? == some kind)) s P) :
    Takes (TagReader.secondIs kind >>= f) s P :=
  hf.look rfl

end

section

variable {s : TagState} {t : DocToken} {rest : List DocToken}

/-- The next token is taken, if it is no marker at the start of a line. -/
theorem takes_take (h : s.rest = t :: rest) (hstart : s.startsTag = false) :
    Takes take s fun n _ => n = 1 :=
  ⟨1, by simp [h], TagState.unmarked_one hstart, rfl, rfl⟩

theorem takes_take_of_kind (h : s.rest = t :: rest) (hkind : t.kind ≠ .tag) :
    Takes take s fun n _ => n = 1 :=
  takes_take h (TagState.startsTag_of_kind? (TagState.kind?_eq h) hkind)

theorem takes_takeKind {kind : DocKind} (hkind : kind ≠ .tag) : Takes (takeKind kind) s := by
  refine Takes.at? ?_
  split
  · rename_i h
    obtain ⟨t, rest, hrest, ht⟩ := TagState.rest_ne_nil_of_kind? (eq_of_beq h)
    exact (takes_take_of_kind hrest (ht ▸ hkind)).mono fun _ _ _ => trivial
  · exact .pure trivial

/-- What is taken as long as `p` accepts the state are the tokens before the first state that it
does not accept. Up to there `I` holds. -/
theorem takes_takeWhile {p : TagState → Bool} {I : TagState → Prop} (hs : I s)
    (hp : ∀ s, I s → p s = true → s.startsTag = false ∧ I s.take) :
    Takes (takeWhile p) s fun n taken => taken = s.rest.take n ∧ I (s.after n) ∧
      (∀ i < n, p (s.after i) = true) ∧ ((s.after n).rest = [] ∨ p (s.after n) = false) := by
  show ∃ n ≤ s.rest.length, s.Unmarked n ∧ (s.takeWhile p).2 = s.after n ∧
    (s.takeWhile p).1 = s.rest.take n ∧ _
  fun_induction TagState.takeWhile p s with
  | case1 s h =>
    exact ⟨0, Nat.zero_le _, s.unmarked_zero, rfl, List.take_zero.symm, hs,
      fun _ hi => absurd hi (Nat.not_lt_zero _), Or.inl h⟩
  | case2 s t rest h haccept more next heq ih =>
    obtain ⟨hstart, htake⟩ := hp s hs haccept
    have hpass : s.pass t rest = s.after 1 := (TagState.after_one h).symm
    rw [TagState.take_eq_pass h] at htake
    obtain ⟨n, hn, hunmarked, hrun, htaken, hI, hall, hend⟩ := ih htake
    rw [heq] at hrun htaken
    rw [hpass] at hunmarked hrun hI hall hend
    have hadd (i : Nat) : (s.after 1).after i = s.after (i + 1) := by
      rw [Nat.add_comm, s.after_add]
    rw [hadd] at hrun hI hend
    refine ⟨n + 1, ?_, ?_, hrun, ?_, hI, fun i hi => ?_, hend⟩
    · rw [h]
      exact Nat.succ_le_succ hn
    · rw [Nat.add_comm]
      exact (TagState.unmarked_one hstart).add hunmarked
    · rw [h, List.take_succ_cons]
      exact congrArg (t :: ·) htaken
    · cases i with
      | zero => exact haccept
      | succ i =>
        rw [← hadd]
        exact hall i (by omega)
  | case3 s t rest h hreject =>
    exact ⟨0, Nat.zero_le _, s.unmarked_zero, rfl, List.take_zero.symm, hs,
      fun _ hi => absurd hi (Nat.not_lt_zero _), Or.inr (by simpa using hreject)⟩

/-- Where `p` accepts no state with a marker at the start of a line next. -/
theorem takes_takeWhile_unmarked {p : TagState → Bool}
    (hp : ∀ s : TagState, p s = true → s.startsTag = false) : Takes (takeWhile p) s :=
  (takes_takeWhile (I := fun _ => True) trivial fun s _ h => ⟨hp s h, trivial⟩).mono
    fun _ _ _ => trivial

theorem takes_skipBlanks : Takes skipBlanks s := by
  refine Takes.bind (takes_takeWhile_unmarked fun s h => ?_) fun _ _ _ _ => .pure trivial
  exact TagState.startsTag_of_kind? (eq_of_beq h) nofun

/-- Blanks do not begin a line. -/
theorem takes_skipBlanks_inLine (hs : s.lineStart = false) :
    Takes skipBlanks s fun n _ => (s.after n).lineStart = false := by
  refine Takes.bind (takes_takeWhile (I := fun s => s.lineStart = false) hs fun s hI h => ?_)
    fun n _ _ hn => .pure hn.2.1
  refine ⟨TagState.startsTag_of_lineStart hI, ?_⟩
  obtain ⟨t, rest, hrest, hkind⟩ := TagState.rest_ne_nil_of_kind? (eq_of_beq h)
  rw [TagState.take_eq_pass hrest]
  simp [TagState.pass, hkind, hI]

end

section

variable {m : TagReader α} {s : TagState} {Q : Nat → α → Prop}

theorem Takes.recording (hm : Takes m s.beginRecording Q) :
    Takes (TagReader.recording m) s fun n a => Q n a.1 := by
  obtain ⟨n, hn, hunmarked, hrun, hQ⟩ := hm
  refine ⟨n, hn, (s.unmarked_beginRecording n).1 hunmarked, ?_, hQ⟩
  · show ((m.run s.beginRecording).2.endRecording).2 = s.after n
    rw [hrun, TagState.after_endRecording]
    rfl

theorem Takes.nested (hm : Takes m s.deeper Q) : Takes (TagReader.nested m) s Q := by
  obtain ⟨n, hn, hunmarked, hrun, hQ⟩ := hm
  refine ⟨n, hn, (s.unmarked_deeper n).1 hunmarked, ?_, hQ⟩
  have hleave : ((TagReader.nested m).run s).2 =
      { (m.run s.deeper).2 with depth := (m.run s.deeper).2.depth - 1 } := rfl
  rw [hleave, hrun, s.after_deeper]
  rfl

/-- The span reaches from where the next token begins to where the last token taken ends. -/
theorem Takes.spanned (hm : Takes m s Q) :
    Takes (TagReader.spanned m) s fun n a => Q n a.1 ∧ a.2 = .between s.place (s.after n).stop := by
  obtain ⟨n, hn, hunmarked, hrun, hQ⟩ := hm
  refine ⟨n, hn, hunmarked, hrun, hQ, ?_⟩
  show Span.between s.place (m.run s).2.stop = _
  rw [hrun]

end

/-! ### Names and values -/

variable {s : TagState}

/-- Names and the dots between them are taken. -/
theorem takes_qualifiers :
    Takes qualifiers s fun n taken => taken = s.rest.take n ∧
      ∀ t ∈ taken, t.kind = .dot ∨ t.kind = .identifier := by
  show ∃ n ≤ s.rest.length, s.Unmarked n ∧ (qualifiers s).2 = s.after n ∧
    (qualifiers s).1 = s.rest.take n ∧
      ∀ t ∈ (qualifiers s).1, t.kind = .dot ∨ t.kind = .identifier
  fun_induction qualifiers s with
  | case1 s dot name rest h hkind more next heq ih =>
    let mid := s.pass dot (name :: rest)
    have hmid : mid = s.after 1 := (TagState.after_one h).symm
    have hnext : mid.pass name rest = mid.after 1 := (TagState.after_one rfl).symm
    have hdot : s.startsTag = false :=
      TagState.startsTag_of_kind? ((TagState.kind?_eq h).trans (congrArg some hkind.1)) nofun
    have hname : mid.startsTag = false := TagState.startsTag_of_lineStart (by
      simp [mid, TagState.pass, hkind.1])
    obtain ⟨n, hn, hunmarked, hrun, htaken, hkinds⟩ := ih
    rw [heq] at hrun htaken hkinds
    rw [hnext, hmid, ← s.after_add] at hunmarked hrun
    refine ⟨1 + 1 + n, ?_, ?_, ?_, ?_, ?_⟩
    · have hn : n ≤ rest.length := hn
      simp only [h, List.length_cons]
      omega
    · refine ((TagState.unmarked_one hdot).add ?_).add hunmarked
      exact TagState.unmarked_one (hmid ▸ hname)
    · rw [s.after_add]
      exact hrun
    · rw [h, Nat.add_comm, List.take_succ_cons, List.take_succ_cons]
      exact congrArg (dot :: name :: ·) htaken
    · exact List.forall_mem_cons.2 ⟨Or.inl hkind.1, List.forall_mem_cons.2 ⟨Or.inr hkind.2, hkinds⟩⟩
  | case2 s dot name rest h hkind =>
    exact ⟨0, Nat.zero_le _, s.unmarked_zero, rfl, List.take_zero.symm, List.forall_mem_nil _⟩
  | case3 s h =>
    exact ⟨0, Nat.zero_le _, s.unmarked_zero, rfl, List.take_zero.symm, List.forall_mem_nil _⟩

/-- A name is taken with the names and dots behind it. -/
theorem takes_dottedName :
    Takes dottedName s fun n _ => (s.kind? = some .identifier → 0 < n) ∧
      ∀ t ∈ s.rest.take n, t.kind = .dot ∨ t.kind = .identifier := by
  have hnone (h : s.kind? ≠ some .identifier) : (s.kind? = some .identifier → 0 < 0) ∧
      ∀ t ∈ s.rest.take 0, t.kind = .dot ∨ t.kind = .identifier :=
    ⟨fun hkind => absurd hkind h, fun _ ht => absurd ht List.not_mem_nil⟩
  refine Takes.get ?_
  split
  · rename_i hrest
    refine .pure (hnone fun hkind => ?_)
    obtain ⟨t, rest, h, -⟩ := TagState.rest_ne_nil_of_kind? hkind
    rw [hrest] at h
    cases h
  · rename_i t rest hrest
    split
    · rename_i hkind
      refine .pure (hnone fun h => ?_)
      rw [TagState.kind?_eq hrest] at h
      exact absurd (Option.some.inj h) hkind
    · rename_i hkind
      have hkind : t.kind = .identifier := Decidable.not_not.1 hkind
      refine Takes.bind (takes_take_of_kind hrest (hkind ▸ nofun)) fun n _ _ hn => ?_
      refine takes_qualifiers.bind fun k taken _ hk => .pure ?_
      subst hn
      have htake : s.rest.take (1 + (k + 0)) = t :: taken := by
        rw [hk.1, s.rest_after, hrest, Nat.add_comm, List.take_succ_cons]
        rfl
      rw [htake]
      exact ⟨fun _ => by omega, List.forall_mem_cons.2 ⟨Or.inr hkind, hk.2⟩⟩

/-- Arguments end the recording in which they begin. -/
theorem takes_argumentsFrom (depth : Nat) :
    ∃ n ≤ s.rest.length, s.Unmarked n ∧
      (argumentsFrom depth s).2 = s.endRecording.2.after n := by
  have hmarker {s : TagState} {P : Prop} (h : ¬ (s.atMarker = true ∨ P)) : s.Unmarked 1 := by
    refine TagState.unmarked_one (TagState.startsTag_of_atMarker ?_)
    exact Bool.not_eq_true _ ▸ fun hmarker => h (Or.inl hmarker)
  fun_induction argumentsFrom depth s with
  | case1 depth s h text next heq =>
    refine ⟨0, Nat.zero_le _, s.unmarked_zero, ?_⟩
    rw [heq]
    rfl
  | case2 depth s t rest h hstop text next heq =>
    refine ⟨0, Nat.zero_le _, s.unmarked_zero, ?_⟩
    rw [heq]
    rfl
  | case3 depth s t rest h hstop hcomma text next heq more last hmore ih =>
    obtain ⟨n, hn, hunmarked, hrun⟩ := ih
    have hnext : next.rest = t :: rest := by
      rw [← h, ← s.rest_endRecording, heq]
    have hpass : next.pass t rest = s.endRecording.2.after 1 := by
      rw [heq, TagState.after_one hnext]
    rw [TagState.unmarked_beginRecording, hpass, ← TagState.after_endRecording,
      TagState.unmarked_endRecording] at hunmarked
    refine ⟨1 + n, ?_, (hmarker hstop).add hunmarked, ?_⟩
    · have hn : n ≤ rest.length := hn
      rw [h, List.length_cons]
      omega
    · rw [hmore] at hrun
      rw [TagState.after_add, ← hpass]
      exact hrun
  | case4 depth s t rest h hstop hcomma _ ih =>
    obtain ⟨n, hn, hunmarked, hrun⟩ := ih
    rw [← TagState.after_one h] at hunmarked
    refine ⟨1 + n, ?_, (hmarker hstop).add hunmarked, ?_⟩
    · have hn : n ≤ rest.length := hn
      rw [h, List.length_cons]
      omega
    · rw [TagState.after_add, ← TagState.after_endRecording, TagState.after_one h]
      exact hrun

theorem takes_arguments (h : s.kind? = some .lparen) : Takes arguments s fun n _ => 0 < n := by
  obtain ⟨t, rest, hrest, hkind⟩ := TagState.rest_ne_nil_of_kind? h
  refine (takes_take_of_kind hrest (hkind ▸ nofun)).bind fun n _ _ hn => ?_
  -- the recording begun here is the one that the arguments end
  have hargs : Takes (modify TagState.beginRecording >>= fun _ => argumentsFrom 0) (s.after n) :=
    let ⟨k, hk, hunmarked, hrun⟩ := takes_argumentsFrom (s := (s.after n).beginRecording) 0
    ⟨k, hk, ((s.after n).unmarked_beginRecording k).1 hunmarked, hrun, trivial⟩
  have htail : Takes ((modify TagState.beginRecording >>= fun _ => argumentsFrom 0) >>= fun texts =>
      takeKind .rparen >>= fun _ => Pure.pure (if texts = [""] then [] else texts)) (s.after n)
      fun k _ => 0 < n + k := by
    refine hargs.bind fun k _ _ _ => Takes.bind (takes_takeKind nofun) fun l _ _ _ => .pure ?_
    omega
  exact htail

theorem takes_reference :
    Takes reference s fun n _ => s.kind? = some .identifier → 0 < n := by
  refine takes_dottedName.recording.bind fun n _ _ hn => Takes.at? ?_
  split
  · rename_i h
    have hargs : Takes (some <$> arguments) (s.after n) fun k _ => 0 < k :=
      (takes_arguments (eq_of_beq h)).map fun _ _ hk => hk
    refine hargs.bind fun k _ _ hk => .pure fun _ => ?_
    omega
  · exact .pure hn.1

theorem takes_word (hs : s.lineStart = false) : Takes word s := by
  refine Takes.map (takes_takeWhile (I := fun s => s.lineStart = false) hs fun s hI h => ?_)
    fun _ _ _ => trivial
  refine ⟨TagState.startsTag_of_lineStart hI, ?_⟩
  cases hrest : s.rest with
  | nil =>
    rw [TagState.take, hrest]
    exact hI
  | cons t rest =>
    rw [TagState.kind?_eq hrest] at h
    have hlayout : t.kind.isLayout = false := by simpa using h
    rw [TagState.take_eq_pass hrest]
    cases hkind : t.kind <;> simp_all [TagState.pass, DocKind.isLayout]

theorem takes_skipDash : Takes skipDash s := by
  refine takes_skipBlanks.bind fun n _ _ _ => Takes.get ?_
  split
  · rename_i h
    cases hrest : (s.after n).rest with
    | nil =>
      rw [hrest] at h
      cases h
    | cons t rest =>
      rw [hrest] at h
      have htext : t.kind = .text := (by simpa using h : t.kind = .text ∧ _).1
      exact (takes_take_of_kind hrest (htext ▸ nofun)).mono fun _ _ _ => trivial
  · exact .pure trivial

theorem takes_errorName : Takes errorName s := by
  refine takes_skipBlanks.bind fun n _ _ _ => Takes.bind
    (takes_takeWhile_unmarked fun s h => ?_) fun _ _ _ _ => .pure trivial
  cases hkind : s.kind? with
  | none =>
    rw [hkind] at h
    cases h
  | some kind =>
    refine TagState.startsTag_of_kind? hkind ?_
    rintro rfl
    rw [hkind] at h
    cases h

theorem takes_apiVisibility : Takes apiVisibility s := by
  refine takes_skipBlanks.bind fun n _ _ _ => Takes.get ?_
  split
  · exact .pure trivial
  · rename_i t rest hrest
    split
    · exact .pure trivial
    · rename_i hkind
      have hkind : t.kind = .identifier := Decidable.not_not.1 hkind
      exact (takes_take_of_kind hrest (hkind ▸ nofun)).bind fun _ _ _ _ => .pure trivial

/-! ### The name and the default value of a parameter -/

theorem takes_bracketedParam (h : s.kind? = some .lbracket) : Takes bracketedParam s := by
  obtain ⟨t, rest, hrest, hkind⟩ := TagState.rest_ne_nil_of_kind? h
  refine (takes_take_of_kind hrest (hkind ▸ nofun)).bind fun _ _ _ _ => takes_skipBlanks.bind
    fun _ _ _ _ => takes_dottedName.bind fun _ name _ _ => takes_skipBlanks.bind
    fun _ _ _ _ => Takes.at? ?_
  have hclose (s : TagState) (default : Option String) :
      Takes (do takeKind .rbracket; Pure.pure (name, default)) s :=
    Takes.bind (takes_takeKind nofun) fun _ _ _ _ => .pure trivial
  split
  · rename_i hequals
    obtain ⟨t, rest, hrest, hkind⟩ := TagState.rest_ne_nil_of_kind? (eq_of_beq hequals)
    refine (takes_take_of_kind hrest (hkind ▸ nofun)).bind fun _ _ _ _ => ?_
    refine (Takes.recording (takes_takeWhile_unmarked fun s h => ?_)).bind
      fun _ _ _ _ => hclose _ _
    rw [Bool.and_eq_true, Bool.not_eq_true'] at h
    exact TagState.startsTag_of_atMarker h.2
  · exact hclose _ none

theorem takes_plainParam : Takes plainParam s := by
  refine takes_dottedName.bind fun _ name _ _ => Takes.at? (Takes.secondIs ?_)
  have hdefault (s : TagState) : Takes (do
      if ← at? .equals then
        take
        skipBlanks
        return (name, some (← word))
      else return (name, none)) s := by
    refine Takes.at? ?_
    split
    · rename_i hequals
      obtain ⟨t, rest, hrest, hkind⟩ := TagState.rest_ne_nil_of_kind? (eq_of_beq hequals)
      refine (takes_take_of_kind hrest (by simp [hkind])).bind fun n _ _ hn => ?_
      -- an equals sign does not begin a line, and so the word is on the line of the name
      have hline : (s.after n).lineStart = false := by
        rw [hn, TagState.after_one hrest]
        simp [TagState.pass, hkind]
      exact (takes_skipBlanks_inLine hline).bind fun _ _ _ hline => (takes_word hline).bind
        fun _ _ _ _ => .pure trivial
    · exact .pure trivial
  split
  · rename_i h
    obtain ⟨t, rest, hrest, hkind⟩ :=
      TagState.rest_ne_nil_of_kind? (eq_of_beq (Bool.and_eq_true_iff.1 h).1)
    exact (takes_take_of_kind hrest (by simp [hkind])).bind fun _ _ _ _ => hdefault _
  · exact hdefault _

end TagReader
end SqlDoc

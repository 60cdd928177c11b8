/-
# What the programs for a comment consume

Every program that reads a comment consumes some of the tokens ahead, whatever state it begins in,
and leaves the state that comes after them (`TagReader.Consumes`). `TagReader.Takes` tells how many
they are; here it matters which, and what the program gives for them. So every recording that was
open is fed these tokens and is open still: a program ends the recordings that it begins, and no
other (`Consumes.recordings`). Where a program is carried out while it is recorded, the recording is
the text of the tokens that it consumes (`Consumes.recording`).

Key definitions: `TagReader.Consumes`, `Separated`, `ReferenceOf`, `BracketedOf`.
Key theorems: `Consumes.bind`, `Consumes.recording`, `consumes_arguments`, `consumes_reference`,
`consumes_bracketedParam`.
-/
import SqlDoc.Proofs.Doc.Description
import SqlDoc.Proofs.Doc.Flattening
import SqlDoc.Proofs.Doc.Taking

namespace SqlDoc

/-! ### Recordings -/

namespace TagState

variable {s : TagState}

/-- Every token ahead that is no layout has a text, which does not end with a blank. -/
def Solid (s : TagState) : Prop :=
  ∀ t ∈ s.rest, t.IsSolid

theorem Solid.after (h : s.Solid) (n : Nat) : (s.after n).Solid := by
  rw [Solid, rest_after]
  exact fun t ht => h t (List.mem_of_mem_drop ht)

/-- Where `tokens` are ahead and then others, the state after them has the others ahead. -/
theorem rest_after_of_append {tokens left : List DocToken} (h : s.rest = tokens ++ left) :
    (s.after tokens.length).rest = left := by
  rw [rest_after, h, List.drop_left]

end TagState

namespace TagReader

variable {α β : Type}

/-- Begun in the state `s`, the program consumes some of the tokens ahead and does nothing else that
lasts. If all tokens ahead are solid, the tokens consumed and the result have `P`. -/
def Consumes (m : TagReader α) (s : TagState)
    (P : List DocToken → α → Prop := fun _ _ => True) : Prop :=
  ∃ tokens left, s.rest = tokens ++ left ∧ (m.run s).2 = s.after tokens.length ∧
    (s.Solid → P tokens (m.run s).1)

namespace Consumes

variable {m : TagReader α} {f : α → TagReader β} {s : TagState} {P Q : List DocToken → α → Prop}
  {R : List DocToken → β → Prop}

theorem pure {a : α} (h : P [] a) : Consumes (Pure.pure a) s P :=
  ⟨[], s.rest, rfl, rfl, fun _ => h⟩

theorem mono (hm : Consumes m s P) (h : ∀ tokens a, P tokens a → Q tokens a) : Consumes m s Q :=
  let ⟨tokens, left, hrest, hrun, hP⟩ := hm
  ⟨tokens, left, hrest, hrun, fun hs => h tokens _ (hP hs)⟩

theorem weaken (hm : Consumes m s P) : Consumes m s :=
  hm.mono fun _ _ _ => trivial

/-- First come the tokens of the first program, and then those of the second, which is begun where
the first has ended. -/
theorem bind (hm : Consumes m s P)
    (hf : ∀ tokens a mid, mid = s.after tokens.length → s.rest = tokens ++ mid.rest →
      Consumes (f a) mid fun more b => P tokens a → R (tokens ++ more) b) :
    Consumes (m >>= f) s R := by
  obtain ⟨tokens, left, hrest, hrun, hP⟩ := hm
  have hmid : s.rest = tokens ++ (s.after tokens.length).rest := by
    rw [TagState.rest_after_of_append hrest, hrest]
  obtain ⟨more, last, hmore, hrun', hR⟩ := hf tokens (m.run s).1 _ rfl hmid
  have hbind : (m >>= f).run s = (f (m.run s).1).run (s.after tokens.length) := by
    rw [← hrun]
    rfl
  refine ⟨tokens ++ more, last, ?_, ?_, fun hs => ?_⟩
  · rw [hmid, hmore, List.append_assoc]
  · rw [hbind, hrun', List.length_append, s.after_add]
  · rw [hbind]
    exact hR (hs.after _) (hP hs)

theorem map {g : α → β} (hm : Consumes m s P) (hg : ∀ tokens a, P tokens a → R tokens (g a)) :
    Consumes (g <$> m) s R :=
  let ⟨tokens, left, hrest, hrun, hP⟩ := hm
  ⟨tokens, left, hrest, hrun, fun hs => hg tokens _ (hP hs)⟩

/-- A program that only looks. -/
theorem look {a : α} (hrun : m.run s = (a, s)) (hf : Consumes (f a) s R) :
    Consumes (m >>= f) s R := by
  have hbind : (m >>= f).run s = (f (m.run s).1).run (m.run s).2 := rfl
  rw [hrun] at hbind
  unfold Consumes
  rw [hbind]
  exact hf

theorem get {f : TagState → TagReader β} (hf : Consumes (f s) s R) :
    Consumes (MonadState.get >>= f) s R :=
  hf.look rfl

theorem at? {kind : DocKind} {f : Bool → TagReader β}
    (hf : Consumes (f (s.kind? == some kind)) s R) : Consumes (TagReader.at? kind >>= f) s R :=
  hf.look rfl

theorem secondIs {kind : DocKind} {f : Bool → TagReader β}
    (hf : Consumes (f (s.secondKind? == some kind)) s R) :
    Consumes (TagReader.secondIs kind >>= f) s R :=
  hf.look rfl

/-- Every recording that was open is fed the tokens that are consumed, and stays open. -/
theorem recordings (hm : Consumes m s) :
    ∃ tokens, s.rest = tokens ++ (m.run s).2.rest ∧
      (m.run s).2.recordings = s.recordings.map (recordTokens tokens) := by
  obtain ⟨tokens, left, hrest, hrun, -⟩ := hm
  refine ⟨tokens, ?_, ?_⟩
  · rw [hrun, TagState.rest_after_of_append hrest, hrest]
  · rw [hrun, s.recordings_after, hrest, List.take_left]
    rfl

/-- What is recorded while a program is carried out is the text of the tokens that it consumes. -/
theorem recording (hm : Consumes m s.beginRecording P) :
    Consumes (TagReader.recording m) s fun tokens r =>
      P tokens r.1 ∧ r.2 = flatDocText tokens := by
  obtain ⟨tokens, left, hrest, hrun, hP⟩ := hm
  refine ⟨tokens, left, hrest, ?_, fun hs => ⟨hP hs, ?_⟩⟩
  · show ((m.run s.beginRecording).2.endRecording).2 = s.after tokens.length
    rw [hrun, TagState.after_endRecording]
    rfl
  · show ((m.run s.beginRecording).2.endRecording).1 = flatDocText tokens
    have hrecordings : (m.run s.beginRecording).2.recordings =
        recordTokens tokens [] :: s.recordings.map (recordTokens tokens) := by
      rw [hrun, TagState.recordings_after, hrest, List.take_left]
      rfl
    have hsolid : ∀ t ∈ tokens, DocToken.IsSolid t := fun t ht =>
      hs t (hrest ▸ List.mem_append_left left ht)
    rw [TagState.endRecording, hrecordings, ← trim_recordTokens hsolid]

theorem nested (hm : Consumes m s.deeper P) : Consumes (TagReader.nested m) s P := by
  obtain ⟨tokens, left, hrest, hrun, hP⟩ := hm
  refine ⟨tokens, left, hrest, ?_, hP⟩
  have hleave : ((TagReader.nested m).run s).2 =
      { (m.run s.deeper).2 with depth := (m.run s.deeper).2.depth - 1 } := rfl
  rw [hleave, hrun, s.after_deeper]
  rfl

theorem spanned (hm : Consumes m s P) :
    Consumes (TagReader.spanned m) s fun tokens r =>
      P tokens r.1 ∧ r.2 = .between s.place (s.after tokens.length).stop := by
  obtain ⟨tokens, left, hrest, hrun, hP⟩ := hm
  refine ⟨tokens, left, hrest, hrun, fun hs => ⟨hP hs, ?_⟩⟩
  show Span.between s.place (m.run s).2.stop = _
  rw [hrun]

theorem ite {c : Prop} [Decidable c] {m m' : TagReader α} (h : c → Consumes m s P)
    (h' : ¬ c → Consumes m' s P) : Consumes (if c then m else m') s P := by
  split
  · exact h ‹_›
  · exact h' ‹_›

end Consumes

/-! ### Tokens -/

variable {s : TagState}

/-- The next token is consumed. -/
theorem consumes_take (s : TagState) :
    Consumes take s fun tokens _ => tokens = s.rest.take 1 := by
  cases hrest : s.rest with
  | nil =>
    refine ⟨[], [], hrest, ?_, fun _ => rfl⟩
    show s.take = s
    rw [TagState.take, hrest]
  | cons t rest => exact ⟨[t], rest, hrest, rfl, fun _ => rfl⟩

theorem consumes_take_cons {t : DocToken} {rest : List DocToken} (h : s.rest = t :: rest) :
    Consumes take s fun tokens _ => tokens = [t] :=
  (consumes_take s).mono fun tokens _ htokens => by rw [htokens, h]; rfl

/-- Where something may be closed: the tokens are one of the kind, or none. -/
def Closes (kind : DocKind) (tokens : List DocToken) : Prop :=
  tokens = [] ∨ ∃ t, t.kind = kind ∧ tokens = [t]

theorem consumes_takeKind (kind : DocKind) (s : TagState) :
    Consumes (takeKind kind) s fun tokens _ => Closes kind tokens := by
  refine .at? (.ite (fun h => ?_) fun _ => .pure (Or.inl rfl))
  obtain ⟨t, rest, hrest, ht⟩ := TagState.rest_ne_nil_of_kind? (eq_of_beq h)
  exact (consumes_take_cons hrest).mono fun _ _ htokens => Or.inr ⟨t, ht, htokens⟩

/-- What is consumed as long as `p` accepts the state, all of which have `C`. -/
theorem consumes_takeWhile {p : TagState → Bool} {C : DocToken → Prop}
    (hp : ∀ (s : TagState) t rest, s.rest = t :: rest → p s = true → C t) (s : TagState) :
    Consumes (takeWhile p) s fun tokens taken => taken = tokens ∧ ∀ t ∈ tokens, C t := by
  suffices h : ∃ left, s.rest = (s.takeWhile p).1 ++ left ∧
      (s.takeWhile p).2 = s.after (s.takeWhile p).1.length ∧ ∀ t ∈ (s.takeWhile p).1, C t by
    obtain ⟨left, hrest, hrun, hall⟩ := h
    exact ⟨(s.takeWhile p).1, left, hrest, hrun, fun _ => ⟨rfl, hall⟩⟩
  fun_induction TagState.takeWhile p s with
  | case1 s h => exact ⟨s.rest, rfl, rfl, List.forall_mem_nil _⟩
  | case2 s t rest h haccept more next heq ih =>
    rw [heq] at ih
    obtain ⟨left, hrest, hrun, hall⟩ := ih
    have hrest : rest = more ++ left := hrest
    refine ⟨left, by rw [h, hrest]; rfl, ?_, List.forall_mem_cons.2 ⟨hp s t rest h haccept, hall⟩⟩
    have hrun : next = (s.pass t rest).after more.length := hrun
    rw [hrun, ← TagState.after_one h, ← s.after_add, List.length_cons, Nat.add_comm]
  | case3 s t rest h hreject => exact ⟨s.rest, rfl, rfl, List.forall_mem_nil _⟩

/-- The tokens are of these kinds. -/
def AllOf (kinds : List DocKind) (tokens : List DocToken) : Prop :=
  ∀ t ∈ tokens, t.kind ∈ kinds

theorem allOf_nil (kinds : List DocKind) : AllOf kinds [] :=
  List.forall_mem_nil _

theorem AllOf.mono {kinds more : List DocKind} {tokens : List DocToken} (h : AllOf kinds tokens)
    (hmore : kinds ⊆ more) : AllOf more tokens :=
  fun t ht => hmore (h t ht)

/-- Blanks are among them. -/
theorem AllOf.ofBlanks {kinds : List DocKind} {tokens : List DocToken}
    (h : AllOf [.whitespace] tokens) : AllOf (.whitespace :: kinds) tokens :=
  h.mono (List.cons_subset_cons _ (List.nil_subset _))

theorem AllOf.append {kinds : List DocKind} {first second : List DocToken}
    (h1 : AllOf kinds first) (h2 : AllOf kinds second) : AllOf kinds (first ++ second) :=
  List.forall_mem_append.2 ⟨h1, h2⟩

theorem allOf_singleton {kinds : List DocKind} {t : DocToken} (h : t.kind ∈ kinds) :
    AllOf kinds [t] :=
  List.forall_mem_singleton.2 h

theorem consumes_skipBlanks (s : TagState) :
    Consumes skipBlanks s fun tokens _ => AllOf [.whitespace] tokens := by
  have hkind (s : TagState) (t : DocToken) (rest : List DocToken) (hrest : s.rest = t :: rest)
      (h : (s.kind? == some .whitespace) = true) : t.kind ∈ [DocKind.whitespace] := by
    rw [TagState.kind?_eq hrest] at h
    exact List.mem_singleton.2 (Option.some.inj (eq_of_beq h))
  refine (consumes_takeWhile hkind s).bind fun tokens _ mid _ _ => .pure fun h => ?_
  rw [List.append_nil]
  exact h.2

/-! ### Names and arguments -/

theorem consumes_qualifiers (s : TagState) :
    Consumes qualifiers s fun tokens taken =>
      taken = tokens ∧ AllOf [.dot, .identifier] tokens := by
  suffices h : ∃ left, s.rest = (qualifiers s).1 ++ left ∧
      (qualifiers s).2 = s.after (qualifiers s).1.length ∧
      AllOf [.dot, .identifier] (qualifiers s).1 by
    obtain ⟨left, hrest, hrun, hall⟩ := h
    exact ⟨(qualifiers s).1, left, hrest, hrun, fun _ => ⟨rfl, hall⟩⟩
  fun_induction qualifiers s with
  | case1 s dot name rest h hkind more next heq ih =>
    rw [heq] at ih
    obtain ⟨left, hrest, hrun, hall⟩ := ih
    have hrest : rest = more ++ left := hrest
    have hfirst : s.after 1 = s.pass dot (name :: rest) := TagState.after_one h
    have hsecond : (s.after 1).after 1 = (s.pass dot (name :: rest)).pass name rest := by
      rw [hfirst]
      exact TagState.after_one rfl
    refine ⟨left, by rw [h, hrest]; rfl, ?_, ?_⟩
    · have hrun : next = ((s.pass dot (name :: rest)).pass name rest).after more.length := hrun
      rw [hrun, ← hsecond, ← s.after_add, ← s.after_add]
      exact congrArg s.after (by simp only [List.length_cons]; omega)
    · have hboth : AllOf [.dot, .identifier] [dot, name] :=
        (allOf_singleton (hkind.1 ▸ List.mem_cons_self)).append
          (allOf_singleton (hkind.2 ▸ List.mem_cons_of_mem _ List.mem_cons_self))
      exact hboth.append hall
  | case2 s dot name rest h hkind => exact ⟨s.rest, rfl, rfl, allOf_nil _⟩
  | case3 s h => exact ⟨s.rest, rfl, rfl, allOf_nil _⟩

theorem consumes_dottedName (s : TagState) :
    Consumes dottedName s fun tokens _ => AllOf [.dot, .identifier] tokens ∧
      (s.kind? = some .identifier → tokens ≠ []) := by
  refine .get ?_
  split
  · rename_i hrest
    refine .pure ⟨allOf_nil _, fun hkind => ?_⟩
    obtain ⟨t, rest, h, -⟩ := TagState.rest_ne_nil_of_kind? hkind
    rw [hrest] at h
    cases h
  · rename_i t rest hrest
    refine .ite (fun hkind => .pure ⟨allOf_nil _, fun h => ?_⟩) fun hkind => ?_
    · rw [TagState.kind?_eq hrest] at h
      exact absurd (Option.some.inj h) hkind
    · have hkind : t.kind = .identifier := Decidable.not_not.1 hkind
      refine (consumes_take_cons hrest).bind fun _ _ mid _ _ => (consumes_qualifiers mid).bind
        fun more _ _ _ _ => .pure fun hmore hfirst => ?_
      rw [hfirst, List.append_nil]
      have hname : AllOf [.dot, .identifier] [t] :=
        allOf_singleton (hkind ▸ List.mem_cons_of_mem _ List.mem_cons_self)
      exact ⟨hname.append hmore.2, fun _ => List.cons_ne_nil t more⟩

/-- How many parentheses are open after a token, if `depth` are open before it. -/
def parensAfter (depth : Nat) (t : DocToken) : Nat :=
  match t.kind with
  | .lparen => depth + 1
  | .rparen => depth - 1
  | _ => depth

/-- The commas outside parentheses, `depth` of which are open in front, separate the tokens into
pieces. No parenthesis that is not open is closed. -/
inductive Separated : Nat → List DocToken → List (List DocToken) → Prop where
  | nil (depth : Nat) : Separated depth [] [[]]
  | comma {t : DocToken} {rest : List DocToken} {pieces : List (List DocToken)}
      (ht : t.kind = .comma) (h : Separated 0 rest pieces) :
      Separated 0 (t :: rest) ([] :: pieces)
  | token {depth : Nat} {t : DocToken} {rest piece : List DocToken}
      {pieces : List (List DocToken)}
      (hclose : ¬ (t.kind = .rparen ∧ depth = 0)) (hcomma : ¬ (t.kind = .comma ∧ depth = 0))
      (h : Separated (parensAfter depth t) rest (piece :: pieces)) :
      Separated depth (t :: rest) ((t :: piece) :: pieces)

theorem Separated.mem {depth : Nat} {tokens : List DocToken} {pieces : List (List DocToken)}
    (h : Separated depth tokens pieces) : ∀ piece ∈ pieces, ∀ t ∈ piece, t ∈ tokens := by
  induction h with
  | nil => exact List.forall_mem_singleton.2 (List.forall_mem_nil _)
  | comma ht h ih =>
    refine List.forall_mem_cons.2 ⟨List.forall_mem_nil _, fun piece hpiece t ht => ?_⟩
    exact List.mem_cons_of_mem _ (ih piece hpiece t ht)
  | token hclose hcomma h ih =>
    obtain ⟨hfirst, hmore⟩ := List.forall_mem_cons.1 ih
    refine List.forall_mem_cons.2 ⟨List.forall_mem_cons.2 ⟨List.mem_cons_self, fun t ht => ?_⟩,
      fun piece hpiece t ht => ?_⟩
    · exact List.mem_cons_of_mem _ (hfirst t ht)
    · exact List.mem_cons_of_mem _ (hmore piece hpiece t ht)

/-- Arguments end the recording in which they begin. It has got the tokens of the first argument,
and the others are recorded one by one. -/
theorem argumentsFrom_eq (depth : Nat) (s : TagState) :
    ∃ tokens left piece pieces, s.rest = tokens ++ left ∧
      (argumentsFrom depth s).2 = s.endRecording.2.after tokens.length ∧
      Separated depth tokens (piece :: pieces) ∧
      (s.Solid → ∀ text recordings, s.recordings = text :: recordings →
        (argumentsFrom depth s).1 =
          String.ofList (Text.trimChars (recordTokens piece text)) :: pieces.map flatDocText) := by
  have hend {s next : TagState} {text : String} (heq : s.endRecording = (text, next))
      {chars : List Char} {recordings : List (List Char)} (h : s.recordings = chars :: recordings) :
      text = String.ofList (Text.trimChars chars) := by
    rw [TagState.endRecording, h] at heq
    exact (congrArg Prod.fst heq).symm
  fun_induction argumentsFrom depth s with
  | case1 depth s h text next heq =>
    refine ⟨[], s.rest, [], [], rfl, (congrArg Prod.snd heq).symm, .nil depth,
      fun _ chars recordings hrecordings => ?_⟩
    rw [hend heq hrecordings]
    rfl
  | case2 depth s t rest h hstop text next heq =>
    refine ⟨[], s.rest, [], [], rfl, (congrArg Prod.snd heq).symm, .nil depth,
      fun _ chars recordings hrecordings => ?_⟩
    rw [hend heq hrecordings]
    rfl
  | case3 depth s t rest h hstop hcomma text next heq more last hmore ih =>
    obtain ⟨tokens, left, piece, pieces, hrest, hrun, hseparated, htexts⟩ := ih
    have hrest : rest = tokens ++ left := hrest
    have hnext : next.rest = t :: rest := by
      rw [← h, ← s.rest_endRecording, heq]
    obtain ⟨hkind, rfl⟩ := hcomma
    refine ⟨t :: tokens, left, [], piece :: pieces, by rw [h, hrest]; rfl, ?_,
      .comma hkind hseparated, fun hs chars recordings hrecordings => ?_⟩
    · have hrun : last = (next.pass t rest).after tokens.length := by
        rw [hmore] at hrun
        exact hrun
      show last = s.endRecording.2.after (t :: tokens).length
      rw [hrun, heq, ← TagState.after_one hnext, ← next.after_add, List.length_cons, Nat.add_comm]
    · have hsolid : ((next.pass t rest).beginRecording).Solid := fun u hu =>
        hs u (h ▸ List.mem_cons_of_mem t hu)
      have hmores := htexts hsolid [] _ rfl
      rw [hmore] at hmores
      have hmores : more =
          String.ofList (Text.trimChars (recordTokens piece [])) :: pieces.map flatDocText := hmores
      have hpiece : ∀ u ∈ piece, DocToken.IsSolid u := fun u hu =>
        hsolid u (hrest ▸ List.mem_append_left left (hseparated.mem piece List.mem_cons_self u hu))
      rw [trim_recordTokens hpiece] at hmores
      rw [hend heq hrecordings, hmores]
      rfl
  | case4 depth s t rest h hstop hcomma _ ih =>
    obtain ⟨tokens, left, piece, pieces, hrest, hrun, hseparated, htexts⟩ := ih
    have hrest : rest = tokens ++ left := hrest
    refine ⟨t :: tokens, left, t :: piece, pieces, by rw [h, hrest]; rfl, ?_,
      .token (fun hclose => hstop (Or.inr hclose)) hcomma hseparated,
      fun hs chars recordings hrecordings => ?_⟩
    · rw [hrun, ← TagState.after_one h, TagState.after_endRecording, ← TagState.after_add,
        List.length_cons, Nat.add_comm]
    · have hsolid : (s.pass t rest).Solid := fun u hu => hs u (h ▸ List.mem_cons_of_mem t hu)
      refine htexts hsolid (recordToken t chars) (recordings.map (recordToken t)) ?_
      show s.recordings.map (recordToken t) = _
      rw [hrecordings]
      rfl

/-- The tokens are a call's arguments in parentheses, and the texts are those between the commas. -/
def ArgumentsOf (tokens : List DocToken) : Option (List String) → Prop
  | none => tokens = []
  | some texts => ∃ first inside close pieces, tokens = first :: (inside ++ close) ∧
      first.kind = .lparen ∧ Closes .rparen close ∧ Separated 0 inside pieces ∧
      texts = if pieces.map flatDocText = [""] then [] else pieces.map flatDocText

theorem consumes_arguments (s : TagState) :
    Consumes arguments s fun tokens texts =>
      s.kind? = some .lparen → ArgumentsOf tokens (some texts) := by
  refine (consumes_take s).bind fun front _ mid _ _ => ?_
  -- the recording begun here is the one that the arguments end
  have hinside : Consumes (modify TagState.beginRecording >>= fun _ => argumentsFrom 0) mid
      fun inside texts => ∃ pieces, Separated 0 inside pieces ∧ texts = pieces.map flatDocText := by
    obtain ⟨inside, left, piece, pieces, hrest, hrun, hseparated, htexts⟩ :=
      argumentsFrom_eq 0 mid.beginRecording
    refine ⟨inside, left, hrest, hrun, fun hs => ⟨piece :: pieces, hseparated, ?_⟩⟩
    have hpiece : ∀ t ∈ piece, DocToken.IsSolid t := fun t ht =>
      hs t (hrest ▸ List.mem_append_left left (hseparated.mem piece List.mem_cons_self t ht))
    rw [List.map_cons, ← trim_recordTokens hpiece]
    exact htexts hs [] mid.recordings rfl
  have hrest : Consumes ((modify TagState.beginRecording >>= fun _ => argumentsFrom 0) >>=
      fun texts => takeKind .rparen >>= fun _ =>
        Pure.pure (if texts = [""] then [] else texts)) mid
      fun more texts => front = s.rest.take 1 → s.kind? = some .lparen →
        ArgumentsOf (front ++ more) (some texts) := by
    refine hinside.bind fun inside _ last _ _ => (consumes_takeKind .rparen last).bind
      fun close _ _ _ _ => .pure fun hclose hpieces hfront hopen => ?_
    obtain ⟨t, rest, hrest, hkind⟩ := TagState.rest_ne_nil_of_kind? hopen
    obtain ⟨pieces, hseparated, rfl⟩ := hpieces
    rw [hrest] at hfront
    refine ⟨t, inside, close, pieces, ?_, hkind, hclose, hseparated, rfl⟩
    rw [hfront, List.append_nil]
    rfl
  exact hrest

/-- The tokens are a name, perhaps with arguments behind it, and the reference has their texts. -/
def ReferenceOf (tokens : List DocToken) (r : Reference) : Prop :=
  ∃ name args, tokens = name ++ args ∧ name ≠ [] ∧ AllOf [.dot, .identifier] name ∧
    r.text = flatDocText name ∧ ArgumentsOf args r.args

theorem consumes_reference (s : TagState) :
    Consumes reference s fun tokens r => s.kind? = some .identifier → ReferenceOf tokens r := by
  refine (consumes_dottedName s.beginRecording).recording.bind fun name r mid _ _ => .at? ?_
  have hfinish (m : TagReader (Option (List String))) (hm : Consumes m mid ArgumentsOf) :
      Consumes (m >>= fun args =>
        Pure.pure ({ name := r.1.getD .empty, text := r.2, args } : Reference)) mid
        fun more ref =>
          (AllOf [.dot, .identifier] name ∧ (s.kind? = some .identifier → name ≠ [])) ∧
            r.2 = flatDocText name → s.kind? = some .identifier →
              ReferenceOf (name ++ more) ref := by
    refine hm.bind fun more args _ _ _ => .pure fun hargs ⟨⟨hname, hne⟩, htext⟩ hkind => ?_
    refine ⟨name, more, ?_, hne hkind, hname, htext, hargs⟩
    rw [List.append_nil]
  refine .ite (fun hopen => hfinish (some <$> arguments) ?_) fun _ =>
    hfinish (Pure.pure none) (.pure rfl)
  exact (consumes_arguments mid).map fun _ _ hargs => hargs (eq_of_beq hopen)

/-! ### The fields of a tag -/

/-- A word has no layout, and its text is that of its tokens. -/
theorem consumes_word (s : TagState) :
    Consumes word s fun tokens text =>
      text = docText tokens ∧ ∀ t ∈ tokens, t.kind.isLayout = false := by
  have hlayout (s : TagState) (t : DocToken) (rest : List DocToken) (hrest : s.rest = t :: rest)
      (h : (!s.kind?.any DocKind.isLayout) = true) : t.kind.isLayout = false := by
    rw [TagState.kind?_eq hrest] at h
    simpa using h
  exact (consumes_takeWhile hlayout s).map fun tokens taken h => ⟨h.1 ▸ rfl, h.2⟩

theorem consumes_skipDash (s : TagState) :
    Consumes skipDash s fun tokens _ => AllOf [.whitespace, .text] tokens := by
  refine (consumes_skipBlanks s).bind fun blanks _ mid _ _ => .get (.ite (fun hdash => ?_)
    fun _ => .pure fun hblanks => ?_)
  · cases hrest : mid.rest with
    | nil =>
      rw [hrest] at hdash
      cases hdash
    | cons t rest =>
      rw [hrest] at hdash
      have htext : t.kind = .text := (by simpa using hdash : t.kind = .text ∧ _).1
      refine (consumes_take_cons hrest).mono fun _ _ htokens hblanks => ?_
      rw [htokens]
      exact hblanks.ofBlanks.append
        (allOf_singleton (htext ▸ List.mem_cons_of_mem _ List.mem_cons_self))
  · exact hblanks.ofBlanks.append (allOf_nil _)

/-- The kinds of tokens in the name of an exception or the code of an error. -/
def errorKinds : List DocKind :=
  [.identifier, .number, .text, .dot]

theorem consumes_errorName (s : TagState) :
    Consumes errorName s fun tokens _ => AllOf (.whitespace :: errorKinds) tokens := by
  have hkind (s : TagState) (t : DocToken) (rest : List DocToken) (hrest : s.rest = t :: rest)
      (h : (s.kind?.any fun kind => errorKinds.contains kind) = true) : t.kind ∈ errorKinds := by
    rw [TagState.kind?_eq hrest] at h
    exact List.contains_iff_mem.1 h
  refine (consumes_skipBlanks s).bind fun blanks _ mid _ _ => (consumes_takeWhile hkind mid).bind
    fun more _ _ _ _ => .pure fun hmore hblanks => ?_
  rw [List.append_nil]
  have hmore : AllOf errorKinds more := hmore.2
  exact hblanks.ofBlanks.append
    (hmore.mono (List.subset_cons_self _ _))

theorem consumes_apiVisibility (s : TagState) :
    Consumes apiVisibility s fun tokens _ => AllOf (.whitespace :: errorKinds) tokens := by
  have hnone (mid : TagState) (blanks : List DocToken) :
      Consumes (Pure.pure (Visibility.api "")) mid fun more _ => AllOf [.whitespace] blanks →
        AllOf (.whitespace :: errorKinds) (blanks ++ more) :=
    .pure fun hblanks => hblanks.ofBlanks.append
      (allOf_nil _)
  refine (consumes_skipBlanks s).bind fun blanks _ mid _ _ => .get ?_
  split
  · exact hnone mid blanks
  · rename_i t rest hrest
    refine .ite (fun _ => hnone mid blanks) fun hkind => ?_
    have hkind : t.kind = .identifier := Decidable.not_not.1 hkind
    refine (consumes_take_cons hrest).bind fun _ _ _ _ _ => .pure fun hone hblanks => ?_
    rw [hone, List.append_nil]
    exact hblanks.ofBlanks.append
      (allOf_singleton (hkind ▸ List.mem_cons_of_mem _ List.mem_cons_self))

/-- The tokens are an equals sign and a default value, whose text it is, or none. -/
def ValueOf (tokens : List DocToken) : Option String → Prop
  | none => tokens = []
  | some text => ∃ first inside, tokens = first :: inside ∧ first.kind = .equals ∧
      (∀ t ∈ inside, t.kind ≠ .rbracket) ∧ text = flatDocText inside

/-- The tokens are a parameter in brackets, with the default value. -/
def BracketedOf (tokens : List DocToken) (default : Option String) : Prop :=
  ∃ first front value close, tokens = first :: (front ++ (value ++ close)) ∧
    first.kind = .lbracket ∧
    AllOf [.whitespace, .dot, .identifier] front ∧ ValueOf value default ∧ Closes .rbracket close

/-- After the name of a parameter in brackets comes a default value, if there is one, and then what
closes the brackets. -/
theorem consumes_defaultValue (name : Option Name) (s : TagState) :
    Consumes (do
      let default ← do
        if ← at? .equals then
          take
          let r ← recording (takeWhile fun s => s.kind? != some .rbracket && !s.atMarker)
          Pure.pure (some r.2)
        else Pure.pure none
      takeKind .rbracket
      Pure.pure (name, default)) s fun tokens r =>
        ∃ value close, tokens = value ++ close ∧ ValueOf value r.2 ∧ Closes .rbracket close := by
  have hclose (s : TagState) (default : Option String) :
      Consumes (do takeKind .rbracket; Pure.pure (name, default)) s
        fun close r => r.2 = default ∧ Closes .rbracket close :=
    (consumes_takeKind .rbracket s).bind fun close _ _ _ _ => .pure fun hclose => by
      rw [List.append_nil]
      exact ⟨rfl, hclose⟩
  refine .at? (.ite (fun hequals => ?_) fun _ => (hclose s none).mono fun close r hr =>
    ⟨[], close, rfl, hr.1 ▸ rfl, hr.2⟩)
  obtain ⟨t, rest, hrest, hkind⟩ := TagState.rest_ne_nil_of_kind? (eq_of_beq hequals)
  have hinside (s : TagState) (t : DocToken) (rest : List DocToken) (hrest : s.rest = t :: rest)
      (h : (s.kind? != some .rbracket && !s.atMarker) = true) : t.kind ≠ .rbracket := by
    rw [TagState.kind?_eq hrest] at h
    rintro hkind
    simp [hkind] at h
  refine (consumes_take_cons hrest).bind fun _ _ mid _ _ =>
    (consumes_takeWhile hinside mid.beginRecording).recording.bind fun inside r mid _ _ =>
    (hclose mid _).mono fun close r' hr hrecorded hfirst => ?_
  refine ⟨t :: inside, close, ?_, ?_, hr.2⟩
  · rw [hfirst]
    rfl
  · rw [hr.1]
    exact ⟨t, inside, rfl, hkind, hrecorded.1.2, hrecorded.2⟩

theorem consumes_bracketedParam (s : TagState) :
    Consumes bracketedParam s fun tokens r =>
      s.kind? = some .lbracket → BracketedOf tokens r.2 := by
  refine (consumes_take s).bind fun front _ mid _ _ => (consumes_skipBlanks mid).bind
    fun blanks _ mid _ _ => (consumes_dottedName mid).bind fun names name mid _ _ =>
    (consumes_skipBlanks mid).bind fun blanks' _ mid _ _ => ?_
  refine (consumes_defaultValue name mid).mono
    fun more r hmore hblanks' hnames hblanks hfront hopen => ?_
  obtain ⟨value, close, rfl, hvalue, hclose⟩ := hmore
  obtain ⟨t, rest, hrest, hkind⟩ := TagState.rest_ne_nil_of_kind? hopen
  rw [hrest] at hfront
  refine ⟨t, blanks ++ (names ++ blanks'), value, close, ?_, hkind, ?_, hvalue, hclose⟩
  · rw [hfront]
    simp only [List.take_succ_cons, List.take_zero, List.cons_append, List.nil_append,
      List.append_assoc]
  · exact hblanks.ofBlanks.append ((hnames.1.mono (List.subset_cons_self _ _)).append
      hblanks'.ofBlanks)

/-- The tokens are a parameter without brackets, with the default value, which has no layout. -/
def PlainOf (tokens : List DocToken) : Option String → Prop
  | none => AllOf [.whitespace, .dot, .identifier] tokens
  | some text => ∃ front value, tokens = front ++ value ∧
      AllOf [.whitespace, .dot, .identifier, .equals] front ∧
      (∀ t ∈ value, t.kind.isLayout = false) ∧ text = docText value

theorem consumes_plainParam (s : TagState) :
    Consumes plainParam s fun tokens r => PlainOf tokens r.2 := by
  have hdefault (name : Option Name) (mid : TagState) (front : List DocToken) : Consumes (do
      if ← at? .equals then
        take
        skipBlanks
        return (name, some (← word))
      else return (name, none)) mid fun more r =>
        AllOf [.whitespace, .dot, .identifier] front → PlainOf (front ++ more) r.2 := by
    refine .at? (.ite (fun hequals => ?_) fun _ => .pure fun hfront => ?_)
    · obtain ⟨t, rest, hrest, hkind⟩ := TagState.rest_ne_nil_of_kind? (eq_of_beq hequals)
      refine (consumes_take_cons hrest).bind fun _ _ mid _ _ => (consumes_skipBlanks mid).bind
        fun blanks _ mid _ _ => (consumes_word mid).bind
        fun value text _ _ _ => .pure fun hvalue hblanks hone hfront => ?_
      refine ⟨front ++ ([t] ++ blanks), value, ?_, ?_, hvalue.2, hvalue.1⟩
      · rw [hone]
        simp only [List.append_nil, List.append_assoc]
      · have hequals : t.kind ∈ [DocKind.whitespace, .dot, .identifier, .equals] := by
          rw [hkind]
          decide
        exact (hfront.mono (by decide)).append ((allOf_singleton hequals).append hblanks.ofBlanks)
    · rw [List.append_nil]
      exact hfront
  refine (consumes_dottedName s).bind fun names name mid _ _ => .at? (.secondIs (.ite
    (fun hblank => ?_) fun _ => (hdefault name mid names).mono fun more r h hnames => ?_))
  · obtain ⟨t, rest, hrest, hkind⟩ :=
      TagState.rest_ne_nil_of_kind? (eq_of_beq (Bool.and_eq_true_iff.1 hblank).1)
    refine (consumes_take_cons hrest).bind fun one _ mid _ _ =>
      (hdefault name mid (names ++ one)).mono fun more r h hone hnames => ?_
    rw [← List.append_assoc]
    refine h ((hnames.1.mono (List.subset_cons_self _ _)).append ?_)
    rw [hone]
    exact allOf_singleton (hkind ▸ List.mem_cons_self)
  · exact h (hnames.1.mono (List.subset_cons_self _ _))

end TagReader
end SqlDoc

/-
# Names in comments

No part of a name that a comment gives contains a dot, since quotes mean nothing there. So what
such a name is displayed as says what its parts are (`Name.last_eq_of_display_eq`).

Key definitions: `Name.IsPlain`, `DocToken.IsPlain`, `TagReader.Keeps`.
Key theorems: `Name.parse_isPlain`, `lexDoc_isPlain`, `TagReader.Keeps.bind`,
`parseComment_isPlain`.
-/
import SqlDoc.Proofs.Doc.Places
import SqlDoc.Proofs.Doc.Taking

namespace SqlDoc

/-! ### Names without dots in their parts -/

/-- No part of the name contains a dot. -/
def Name.IsPlain (n : Name) : Prop :=
  ∀ part ∈ n.parts, '.' ∉ part.toList

namespace Name

/-- The unqualified part is what stands behind the last dot. -/
theorem IsPlain.last_eq {n : Name} (h : n.IsPlain) :
    n.last = String.ofList ((n.display.toList.splitOn '.').getLastD []) := by
  have hdisplay : n.display.toList = ['.'].intercalate (n.parts.map String.toList) :=
    String.toList_intercalate
  rw [hdisplay, last]
  cases hparts : n.parts with
  | nil => rfl
  | cons part more =>
    have hdots : ∀ piece ∈ (part :: more).map String.toList, '.' ∉ piece := by
      intro piece hpiece
      obtain ⟨part, hpart, rfl⟩ := List.mem_map.1 hpiece
      exact h part (hparts ▸ hpart)
    rw [List.splitOn_intercalate '.' hdots (by simp), List.getLastD_eq_getLast?,
      List.getLastD_eq_getLast?, List.getLast?_map]
    cases hlast : (part :: more).getLast? with
    | none => rfl
    | some last => exact String.ofList_toList.symm

/-- Names that are displayed alike have the same unqualified part. -/
theorem last_eq_of_display_eq {n m : Name} (hn : n.IsPlain) (hm : m.IsPlain)
    (h : n.display = m.display) : n.last = m.last := by
  rw [hn.last_eq, hm.last_eq, h]

end Name

namespace Text

theorem eq_of_ofNat_eq_dot {n : Nat} (h : Char.ofNat n = '.') : n = 0x2E := by
  unfold Char.ofNat at h
  by_cases hvalid : n.isValidChar
  · rw [dif_pos hvalid] at h
    exact congrArg Char.toNat h
  · rw [dif_neg hvalid] at h
    cases h

/-- No letter becomes a dot. -/
theorem dot_of_mem_upperChar {c : Char} (h : '.' ∈ upperChar c) : c = '.' := by
  unfold upperChar caseMap at h
  split at h
  · rename_i n hn
    obtain ⟨run, hrun, ⟨hfirst, -⟩, rfl⟩ := CaseRun.exists_of_lookup hn
    have habove : (upperRuns.all fun run => (0x2E : Int) < run.first + run.shift) = true := by
      decide
    have hrun := of_decide_eq_true (List.all_eq_true.1 habove run hrun)
    have hcode := eq_of_ofNat_eq_dot (List.mem_singleton.1 h).symm
    omega
  · split at h
    · rename_i image himage
      have hnone : (upperExpansions.all fun e => !(e.2.map Char.ofNat).contains '.') = true := by
        decide
      obtain ⟨_, _, hsplit, _⟩ := List.lookup_eq_some_iff.1 himage
      have hmem : (c.toNat, image) ∈ upperExpansions := by
        rw [hsplit]
        simp
      have := List.all_eq_true.1 hnone _ hmem
      simp_all
    · exact (List.mem_singleton.1 h).symm

theorem mem_of_mem_trimChars {c : Char} {text : List Char} (h : c ∈ trimChars text) : c ∈ text := by
  unfold trimChars dropTrailing at h
  rw [List.mem_reverse] at h
  have hmem := (List.dropWhile_sublist _).subset h
  rw [List.mem_reverse] at hmem
  exact (List.dropWhile_sublist _).subset hmem

end Text

namespace Name

/-- The pieces of a text without quotes are those between its dots. -/
theorem not_mem_pieces {text : List Char} (hquote : '"' ∉ text) :
    ∀ piece ∈ pieces false text, '.' ∉ piece ∧ '"' ∉ piece := by
  induction text with
  | nil => simp [pieces]
  | cons c rest ih =>
    rw [List.mem_cons, not_or] at hquote
    obtain ⟨hc, hrest⟩ := hquote
    have ih := ih hrest
    rw [pieces]
    by_cases hdot : c = '.'
    · simpa [hdot] using ih
    · rw [if_neg (by simp [hdot]), if_neg (Ne.symm hc)]
      cases hpieces : pieces false rest with
      | nil => exact absurd hpieces (pieces_ne_nil false rest)
      | cons piece more =>
        rw [hpieces] at ih
        obtain ⟨⟨hp, hq⟩, hmore⟩ := List.forall_mem_cons.1 ih
        exact List.forall_mem_cons.2 ⟨⟨List.not_mem_cons_of_ne_of_not_mem (Ne.symm hdot) hp,
          List.not_mem_cons_of_ne_of_not_mem hc hq⟩, hmore⟩

theorem dot_not_mem_normalizeIdentifier {piece : List Char} (hdot : '.' ∉ piece)
    (hquote : '"' ∉ piece) : '.' ∉ (normalizeIdentifier (String.ofList piece)).toList := by
  have hunquoted : betweenQuotes? (Text.trimChars piece) = none := by
    unfold betweenQuotes?
    split
    · rename_i rest htext
      exact absurd (Text.mem_of_mem_trimChars (htext ▸ List.mem_cons_self)) hquote
    · rfl
  rw [normalizeIdentifier, String.toList_ofList, hunquoted]
  dsimp only
  rw [String.toList_ofList, List.mem_flatMap]
  rintro ⟨c, hc, hupper⟩
  rw [Text.dot_of_mem_upperChar hupper] at hc
  exact hdot (Text.mem_of_mem_trimChars hc)

/-- A name that is written without quotes is plain. -/
theorem parse_isPlain {text : String} (hquote : '"' ∉ text.toList) : (parse text).IsPlain := by
  have hpieces := not_mem_pieces hquote
  have hparts : ∀ part ∈ (pieces false text.toList).map fun piece =>
      normalizeIdentifier (String.ofList piece), '.' ∉ part.toList := by
    intro part hpart
    obtain ⟨piece, hpiece, rfl⟩ := List.mem_map.1 hpart
    exact dot_not_mem_normalizeIdentifier (hpieces piece hpiece).1 (hpieces piece hpiece).2
  unfold parse
  split
  · rename_i piece hsingle
    rw [hsingle] at hparts
    split
    · exact fun _ h => absurd h List.not_mem_nil
    · exact hparts
  · exact hparts

end Name

/-! ### Tokens without quotes -/

/-- If the token may stand in a name, it contains no quote. -/
def DocToken.IsPlain (t : DocToken) : Prop :=
  t.kind = .identifier ∨ t.kind = .dot → '"' ∉ t.text.toList

namespace Doc

/-- What is read for a part of a name or a dot contains no quote. -/
theorem avoids_rules (id : docGrammar.StateId) :
    ((docGrammar.state id).rules.all fun r =>
      (r.kind ≠ .identifier && r.kind ≠ .dot) || r.matcher.avoids '"') = true := by
  rcases stateId_cases id with rfl | rfl | rfl | rfl
  · exact (by decide : (mainState.rules.all fun r =>
      (r.kind ≠ .identifier && r.kind ≠ .dot) || r.matcher.avoids '"') = true)
  · exact (by decide : (lineStartState.rules.all fun r =>
      (r.kind ≠ .identifier && r.kind ≠ .dot) || r.matcher.avoids '"') = true)
  · exact (by decide : (braceState.rules.all fun r =>
      (r.kind ≠ .identifier && r.kind ≠ .dot) || r.matcher.avoids '"') = true)
  · exact (by decide : (bracketState.rules.all fun r =>
      (r.kind ≠ .identifier && r.kind ≠ .dot) || r.matcher.avoids '"') = true)

end Doc

theorem lexDoc_isPlain {text : String} {start : Position} :
    ∀ t ∈ (lexDoc text start).1, t.IsPlain := by
  intro t ht hkind
  cases Lexer.makes_of_mem_run ht with
  | @rule id rule read stop hrule hsame hstop htext =>
    have hcheck := List.all_eq_true.1 (Doc.avoids_rules id) rule hrule
    have havoids : rule.matcher.avoids '"' = true := by
      rw [hsame] at hcheck
      rcases hkind with hkind | hkind <;> simpa [hkind] using hcheck
    rw [htext]
    exact Matcher.not_mem_of_avoids havoids hstop
  | @fallback id hfallback =>
    -- what no rule reads becomes text
    have htext : t.kind = .text := by
      rcases Doc.stateId_cases id with rfl | rfl | rfl | rfl
      · exact (Fallback.token.inj hfallback).symm
      · cases hfallback
      · exact (Fallback.token.inj hfallback).symm
      · exact (Fallback.token.inj hfallback).symm
    rw [htext] at hkind
    rcases hkind with hkind | hkind <;> cases hkind

/-! ### What a reader leaves -/

/-- If the tag is about a parameter, the name of that is plain. -/
def TagBody.IsPlain (b : TagBody) : Prop :=
  ∀ name type default isOptional, b = .param (some name) type default isOptional → name.IsPlain

namespace TagReader

variable {α β : Type}

/-- Where all tokens ahead are plain, they still are after the program, and its result has `Q`. -/
def Keeps (m : TagReader α) (Q : α → Prop := fun _ => True) : Prop :=
  ∀ s : TagState, (∀ t ∈ s.rest, t.IsPlain) →
    Q (m.run s).1 ∧ ∀ t ∈ (m.run s).2.rest, t.IsPlain

section

variable {m : TagReader α} {f : α → TagReader β} {Q : α → Prop} {R : β → Prop}

theorem Keeps.pure {a : α} (h : Q a) : Keeps (Pure.pure a) Q :=
  fun _ hs => ⟨h, hs⟩

theorem Keeps.bind (hm : Keeps m Q) (hf : ∀ a, Q a → Keeps (f a) R) : Keeps (m >>= f) R := by
  intro s hs
  obtain ⟨hQ, hrest⟩ := hm s hs
  exact hf _ hQ _ hrest

/-- A program that is followed by others whatever its result. -/
theorem Keeps.then (hm : Keeps m) (hf : ∀ a, Keeps (f a) R) : Keeps (m >>= f) R :=
  hm.bind fun a _ => hf a

theorem Keeps.map {g : α → β} (hm : Keeps m Q) (hg : ∀ a, Q a → R (g a)) : Keeps (g <$> m) R := by
  intro s hs
  obtain ⟨hQ, hrest⟩ := hm s hs
  exact ⟨hg _ hQ, hrest⟩

theorem Keeps.weaken (hm : Keeps m Q) : Keeps m :=
  fun s hs => ⟨trivial, (hm s hs).2⟩

theorem keeps_get : Keeps get fun s => ∀ t ∈ s.rest, t.IsPlain :=
  fun _ hs => ⟨hs, hs⟩

theorem keeps_modify {g : TagState → TagState} (hg : ∀ s, (g s).rest ⊆ s.rest) :
    Keeps (modify g) :=
  fun s hs => ⟨trivial, fun t ht => hs t (hg s ht)⟩

end

theorem keeps_take : Keeps take :=
  keeps_modify fun s t ht => by
    rw [TagState.rest_take] at ht
    exact List.mem_of_mem_tail ht

theorem keeps_at? (kind : DocKind) : Keeps (at? kind) :=
  keeps_get.bind fun _ _ => .pure trivial

theorem keeps_secondIs (kind : DocKind) : Keeps (secondIs kind) :=
  keeps_get.bind fun _ _ => .pure trivial

theorem keeps_takeKind (kind : DocKind) : Keeps (takeKind kind) :=
  (keeps_at? kind).then fun _ => by
    split
    · exact keeps_take
    · exact .pure trivial

theorem keeps_takeWhile (p : TagState → Bool) : Keeps (takeWhile p) := by
  intro s hs
  refine ⟨trivial, fun t ht => hs t ?_⟩
  have := s.takeWhile_append p
  rw [← this]
  exact List.mem_append_right _ ht

theorem keeps_skipBlanks : Keeps skipBlanks :=
  (keeps_takeWhile _).then fun _ => .pure trivial

theorem keeps_skipLayout : Keeps skipLayout :=
  (keeps_takeWhile _).then fun _ => .pure trivial

section

variable {m : TagReader α} {Q : α → Prop}

theorem Keeps.recording (hm : Keeps m Q) : Keeps (recording m) fun a => Q a.1 := by
  refine (keeps_modify (g := TagState.beginRecording) fun _ => List.Subset.refl _).then
    fun _ => hm.bind fun a ha => ?_
  refine Keeps.then (fun s hs => ⟨trivial, ?_⟩) fun _ => .pure ha
  show ∀ t ∈ s.endRecording.2.rest, t.IsPlain
  unfold TagState.endRecording
  split <;> exact hs

theorem Keeps.nested (hm : Keeps m Q) : Keeps (nested m) Q :=
  (keeps_modify (g := fun s => { s with depth := s.depth + 1 }) fun _ => List.Subset.refl _).then
    fun _ => hm.bind fun _ ha =>
      (keeps_modify (g := fun s => { s with depth := s.depth - 1 })
        fun _ => List.Subset.refl _).then fun _ => .pure ha

theorem Keeps.spanned (hm : Keeps m Q) : Keeps (spanned m) fun a => Q a.1 :=
  keeps_get.bind fun _ _ => hm.bind fun _ ha => keeps_get.bind fun _ _ => .pure ha

end

/-! ### Names and values -/

/-- The tokens that follow a name contain no quote. -/
theorem keeps_qualifiers : Keeps qualifiers fun more => ∀ t ∈ more, '"' ∉ t.text.toList := by
  intro s hs
  show (∀ t ∈ (qualifiers s).1, '"' ∉ t.text.toList) ∧ ∀ t ∈ (qualifiers s).2.rest, t.IsPlain
  fun_induction qualifiers s with
  | case1 s dot name rest h hkind more next heq ih =>
    rw [h] at hs
    obtain ⟨hdot, hname, hrest⟩ : dot.IsPlain ∧ name.IsPlain ∧ ∀ t ∈ rest, t.IsPlain := by
      simpa using hs
    obtain ⟨hmore, hnext⟩ := ih hrest
    rw [heq] at hmore hnext
    refine ⟨?_, hnext⟩
    simpa using ⟨hdot (.inr hkind.1), hname (.inl hkind.2), hmore⟩
  | case2 s dot name rest h hkind => exact ⟨by simp, hs⟩
  | case3 s h => exact ⟨by simp, hs⟩

theorem not_mem_tokensText {c : Char} {tokens : List DocToken}
    (h : ∀ t ∈ tokens, c ∉ t.text.toList) : c ∉ (tokensText tokens).toList := by
  induction tokens with
  | nil => exact List.not_mem_nil
  | cons t more ih =>
    obtain ⟨ht, hmore⟩ := List.forall_mem_cons.1 h
    rw [tokensText_cons, String.toList_append, List.mem_append, not_or]
    exact ⟨ht, ih hmore⟩

theorem keeps_dottedName : Keeps dottedName fun name => ∀ n ∈ name, n.IsPlain := by
  refine keeps_get.bind fun s hs => ?_
  split
  · exact .pure (by simp)
  · rename_i t rest hrest
    split
    · exact .pure (by simp)
    · rename_i hkind
      refine keeps_take.then fun _ => Keeps.bind keeps_qualifiers fun more hmore => .pure ?_
      have ht : '"' ∉ t.text.toList :=
        hs t (hrest ▸ List.mem_cons_self) (.inl (Decidable.not_not.1 hkind))
      have htext : '"' ∉ (docText (t :: more)).toList := by
        exact not_mem_tokensText (List.forall_mem_cons.2 ⟨ht, hmore⟩)
      exact fun n hn => Option.some.inj hn ▸ Name.parse_isPlain htext

theorem keeps_argumentsFrom (depth : Nat) : Keeps (argumentsFrom depth) := by
  intro s hs
  have hend {s next : TagState} {text : String} (h : s.endRecording = (text, next)) :
      next.rest = s.rest := by
    rw [← s.rest_endRecording, h]
  have hpass {s : TagState} {t : DocToken} {rest : List DocToken} (h : s.rest = t :: rest)
      (hs : ∀ t ∈ s.rest, t.IsPlain) : ∀ t ∈ rest, t.IsPlain :=
    fun u hu => hs u (h ▸ List.mem_cons_of_mem t hu)
  refine ⟨trivial, ?_⟩
  show ∀ t ∈ (argumentsFrom depth s).2.rest, t.IsPlain
  fun_induction argumentsFrom depth s with
  | case1 depth s h text next heq => exact hend heq ▸ hs
  | case2 depth s t rest h hstop text next heq => exact hend heq ▸ hs
  | case3 depth s t rest h hstop hcomma text next heq more last hmore ih =>
    rw [hmore] at ih
    exact ih (hpass h hs)
  | case4 depth s t rest h hstop hcomma _ ih => exact ih (hpass h hs)

theorem keeps_arguments : Keeps arguments :=
  keeps_take.then fun _ =>
    (keeps_modify (g := TagState.beginRecording) fun _ => List.Subset.refl _).then fun _ =>
      (keeps_argumentsFrom 0).then fun _ => (keeps_takeKind _).then fun _ => .pure trivial

theorem keeps_reference : Keeps reference := by
  refine Keeps.bind (Keeps.recording keeps_dottedName) fun _ _ => (keeps_at? _).then fun _ => ?_
  split
  · exact (Keeps.map keeps_arguments fun _ _ => trivial).then fun _ => .pure trivial
  · exact .pure trivial

theorem keeps_word : Keeps word :=
  (keeps_takeWhile _).map fun _ _ => trivial

theorem keeps_skipDash : Keeps skipDash := by
  refine keeps_skipBlanks.then fun _ => keeps_get.bind fun _ _ => ?_
  split
  · exact keeps_take
  · exact .pure trivial

theorem keeps_errorName : Keeps errorName :=
  keeps_skipBlanks.then fun _ => (keeps_takeWhile _).then fun _ => .pure trivial

theorem keeps_apiVisibility : Keeps apiVisibility := by
  refine keeps_skipBlanks.then fun _ => keeps_get.bind fun _ _ => ?_
  split
  · exact .pure trivial
  · split
    · exact .pure trivial
    · exact keeps_take.then fun _ => .pure trivial

/-! ### The fields of a tag -/

theorem keeps_bracketedParam : Keeps bracketedParam fun p => ∀ n ∈ p.1, n.IsPlain := by
  refine keeps_take.then fun _ => keeps_skipBlanks.then fun _ =>
    Keeps.bind keeps_dottedName fun name hname => keeps_skipBlanks.then fun _ =>
      (keeps_at? _).then fun _ => ?_
  have hclose (text : Option String) :
      Keeps (do takeKind .rbracket; Pure.pure (name, text)) fun p => ∀ n ∈ p.1, n.IsPlain :=
    (keeps_takeKind _).then fun _ => .pure hname
  split
  · exact keeps_take.then fun _ => (keeps_takeWhile _).recording.then fun _ => hclose _
  · exact hclose none

theorem keeps_plainParam : Keeps plainParam fun p => ∀ n ∈ p.1, n.IsPlain := by
  refine Keeps.bind keeps_dottedName fun name hname => (keeps_at? _).then fun _ =>
    (keeps_secondIs _).then fun _ => ?_
  have hdefault : Keeps (do
      if ← at? .equals then
        take
        skipBlanks
        return (name, some (← word))
      else return (name, none)) fun p => ∀ n ∈ p.1, n.IsPlain := by
    refine (keeps_at? _).then fun _ => ?_
    split
    · exact keeps_take.then fun _ => keeps_skipBlanks.then fun _ => keeps_word.then
        fun _ => .pure hname
    · exact .pure hname
  split
  · exact keeps_take.then fun _ => hdefault
  · exact hdefault

section

variable {e : TagReader DocExpr}

theorem keeps_typeConstraint (he : Keeps e) : Keeps (typeConstraint e) := by
  refine keeps_skipBlanks.then fun _ => (keeps_at? _).then fun _ => (keeps_secondIs _).then
    fun _ => ?_
  split
  · exact he.map fun _ _ => trivial
  · exact .pure trivial

theorem keeps_linkTarget (he : Keeps e) : Keeps (linkTarget e) := by
  refine keeps_get.bind fun _ _ => ?_
  split
  · exact .pure trivial
  · split
    · exact he.map fun _ _ => trivial
    · exact keeps_take.then fun _ => .pure trivial
    · refine (keeps_secondIs _).then fun _ => ?_
      split
      · exact keeps_take.then fun _ => Keeps.map keeps_reference fun _ _ => trivial
      · exact .pure trivial
    · exact Keeps.map keeps_reference fun _ _ => trivial
    · exact .pure trivial

theorem keeps_link (he : Keeps e) : Keeps (link e) TagBody.IsPlain :=
  keeps_skipBlanks.then fun _ => (keeps_linkTarget he).recording.then fun _ => .pure nofun

theorem keeps_param (he : Keeps e) : Keeps (param e) TagBody.IsPlain := by
  refine (keeps_typeConstraint he).then fun _ => keeps_skipBlanks.then fun _ =>
    (keeps_at? _).then fun _ => ?_
  have hbody (type : Option DocExpr) (isOptional : Bool) (p : Option Name × Option String)
      (hp : ∀ n ∈ p.1, n.IsPlain) :
      Keeps (do skipDash; Pure.pure (TagBody.param p.1 type p.2 isOptional)) TagBody.IsPlain :=
    keeps_skipDash.then fun _ => .pure fun name _ _ _ h => hp name (TagBody.param.inj h).1
  split
  · exact keeps_bracketedParam.bind fun p hp => hbody _ _ p hp
  · refine (keeps_at? _).then fun _ => ?_
    split
    · exact keeps_plainParam.bind fun p hp => hbody _ _ p hp
    · exact hbody _ _ (none, none) (by simp)

theorem keeps_tagBody (he : Keeps e) (marker : String) :
    Keeps (tagBody e marker) TagBody.IsPlain := by
  unfold tagBody
  split
  · exact keeps_param he
  · split
    · exact keeps_link he
    · split
      · exact .pure nofun
      · exact .pure nofun
      · exact (keeps_typeConstraint he).map fun _ _ => nofun
      · exact (keeps_typeConstraint he).map fun _ _ => nofun
      · exact keeps_errorName.map fun _ _ => nofun
      · exact keeps_errorName.map fun _ _ => nofun
      · exact keeps_errorName.map fun _ _ => nofun
      · exact .pure nofun
      · exact .pure nofun
      · exact .pure nofun
      · exact .pure nofun
      · exact keeps_apiVisibility.map fun _ _ => nofun
      · exact .pure nofun

end

/-! ### Content -/

/-- What the programs that contain themselves keep, with calls that go `n` deep. -/
structure KeepsTo (n : Nat) : Prop where
  content : ∀ scope, Keeps (content n scope)
  items : ∀ close, Keeps (items n close)
  expression : Keeps (expression n)
  inlineTag : Keeps (inlineTag n)
  tag : ∀ scope, Keeps (tag n scope) fun t => t.body.IsPlain

namespace KeepsTo

theorem zero : KeepsTo 0 where
  content _ := .pure trivial
  items _ := .pure trivial
  expression := keeps_get.bind fun _ _ => .pure trivial
  inlineTag := .pure trivial
  tag _ := .pure nofun

variable {n : Nat}

theorem content_succ (h : KeepsTo n) (scope : Scope) : Keeps (TagReader.content (n + 1) scope) := by
  unfold TagReader.content
  refine keeps_get.bind fun s _ => ?_
  split
  · exact .pure trivial
  · split
    · exact .pure trivial
    · have hmore (node : ContentNode) : Keeps (do
          Pure.pure (node.cons (← TagReader.content n scope))) :=
        (h.content scope).then fun _ => .pure trivial
      split
      · exact (h.inlineTag.map fun _ _ => trivial).then fun _ => hmore _
      · split
        · exact (h.expression.map fun _ _ => trivial).then fun _ => hmore _
        · split
          · exact (h.expression.map fun _ _ => trivial).then fun _ => hmore _
          · split
            · exact keeps_take.then fun _ => (Keeps.map keeps_reference fun _ _ => trivial).then
                fun _ => hmore _
            · exact keeps_take.then fun _ => hmore _

theorem items_succ (h : KeepsTo n) (close : DocKind) : Keeps (TagReader.items (n + 1) close) := by
  unfold TagReader.items
  refine keeps_get.bind fun s _ => ?_
  split
  · exact .pure trivial
  · split
    · exact .pure trivial
    · split
      · exact keeps_take.then fun _ => h.items close
      · have hmore (item : ExprItem) : Keeps (do
            Pure.pure (item :: (← TagReader.items n close))) :=
          (h.items close).then fun _ => .pure trivial
        split
        · exact (h.inlineTag.map fun _ _ => trivial).then fun _ => hmore _
        · split
          · exact (h.expression.map fun _ _ => trivial).then fun _ => hmore _
          · split
            · exact keeps_take.then fun _ => (Keeps.map keeps_reference fun _ _ => trivial).then
                fun _ => hmore _
            · split
              · exact (Keeps.map keeps_reference fun _ _ => trivial).then fun _ => hmore _
              · exact keeps_take.then fun _ => hmore _

theorem expression_succ (h : KeepsTo n) : Keeps (TagReader.expression (n + 1)) := by
  unfold TagReader.expression
  refine (keeps_at? _).then fun _ => Keeps.then ?_ fun _ => .pure trivial
  refine (Keeps.spanned (Q := fun _ => True) ?_).weaken
  exact keeps_take.then fun _ => (h.items _).nested.recording.weaken.then fun _ =>
    (keeps_takeKind _).then fun _ => .pure trivial

theorem inlineTag_succ (h : KeepsTo n) : Keeps (TagReader.inlineTag (n + 1)) := by
  unfold TagReader.inlineTag
  exact keeps_take.then fun _ => (h.tag .inline).nested.weaken.then fun _ =>
    (keeps_takeKind _).then fun _ => .pure trivial

theorem tag_succ (h : KeepsTo n) (scope : Scope) :
    Keeps (TagReader.tag (n + 1) scope) fun t => t.body.IsPlain := by
  unfold TagReader.tag
  refine keeps_get.bind fun s _ => ?_
  refine Keeps.bind (Keeps.spanned (Q := fun p => p.1.IsPlain) ?_) fun _ hbody => .pure hbody
  exact keeps_take.then fun _ => (keeps_tagBody h.expression _).bind fun _ hbody =>
    (h.content scope).then fun _ => .pure hbody

theorem all (n : Nat) : KeepsTo n := by
  induction n with
  | zero => exact zero
  | succ n ih =>
    exact {
      content := ih.content_succ
      items := ih.items_succ
      expression := ih.expression_succ
      inlineTag := ih.inlineTag_succ
      tag := ih.tag_succ }

end KeepsTo

theorem keeps_description (n : Nat) : Keeps (description n) fun t => t.body.IsPlain :=
  ((KeepsTo.all n).content .block).spanned.then fun _ => .pure nofun

theorem keeps_nextTag : Keeps nextTag fun t => ∀ tag ∈ t, tag.body.IsPlain := by
  refine keeps_skipLayout.then fun _ => keeps_get.bind fun s _ => ?_
  split
  · exact .pure nofun
  · exact ((KeepsTo.all _).tag .block).map fun _ h _ htag => Option.some.inj htag ▸ h
  · exact (keeps_description _).map fun _ h _ htag => Option.some.inj htag ▸ h

theorem keeps_tagsUpTo (n : Nat) : Keeps (tagsUpTo n) fun tags => ∀ t ∈ tags, t.body.IsPlain := by
  induction n with
  | zero => exact .pure nofun
  | succ n ih =>
    refine keeps_nextTag.bind fun next hnext => ?_
    cases next with
    | none => exact .pure nofun
    | some tag =>
      exact ih.bind fun more hmore => .pure (List.forall_mem_cons.2 ⟨hnext tag rfl, hmore⟩)

end TagReader

/-- The tags of a comment give plain names to what they are about. -/
theorem parseComment_isPlain {text : String} {start : Position} :
    ∀ t ∈ (parseComment text start).tags, t.body.IsPlain := by
  let tokens := (lexDoc text start).1.filter fun t => !t.isTrivia
  have htokens : ∀ t ∈ tokens, t.IsPlain := fun t ht =>
    lexDoc_isPlain t ((List.mem_filter.1 ht).1)
  exact (TagReader.keeps_tagsUpTo tokens.length { rest := tokens, stop := start } htokens).1

end SqlDoc

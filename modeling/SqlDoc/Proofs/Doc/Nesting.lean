/-
# How expressions and tags lie in each other

Expressions and tags have spans of their own, and may hold further ones. A program that reads one
takes the tokens from the start of its span to the end, and those of what it holds lie between
(`TagState.Holds`). The programs that contain themselves are given bounds that are great enough:
each call needs twice the number of the tokens ahead at most, and a call that is made where it was
made before has taken a token since (`TagReader.ReadsTo.all`).

Key definitions: `Construct`, `Construct.Nests`, `TagState.InOrder`, `TagState.Holds`,
`TagReader.ReadsTo`.
Key theorems: `TagReader.takes_tagBody`, `TagReader.ReadsTo.all`.
-/
import Mathlib.Logic.Relation
import SqlDoc.Proofs.Doc.Taking
import SqlDoc.Proofs.Position.Order

namespace SqlDoc

/-! ### Constructs -/

/-- An expression or a tag, which have spans of their own. -/
inductive Construct where
  | expr (e : DocExpr)
  | tag (t : Tag)

/-- The construct that a piece of an expression is, if it is one. -/
def ExprItem.constructs : ExprItem → List Construct
  | .inlineTag t => [.tag t]
  | .nested e => [.expr e]
  | _ => []

/-- The construct that a piece of content is, if it is one. -/
def ContentNode.constructs : ContentNode → List Construct
  | .brace e => [.expr e]
  | .bracket e => [.expr e]
  | .inlineTag t => [.tag t]
  | _ => []

/-- The expression that a link points at, if it does. -/
def LinkTarget.constructs : LinkTarget → List Construct
  | .expression e => [.expr e]
  | _ => []

/-- The expression among the fields of a tag, if there is one. -/
def TagBody.constructs : TagBody → List Construct
  | .param _ type _ _ => type.toList.map .expr
  | .returns type => type.toList.map .expr
  | .link target _ => target.constructs
  | _ => []

/-- The constructs in a list of pieces of content. -/
def contentConstructs (content : List ContentNode) : List Construct :=
  content.flatMap ContentNode.constructs

theorem contentConstructs_cons (node : ContentNode) (content : List ContentNode) :
    contentConstructs (node.cons content) = node.constructs ++ contentConstructs content := by
  unfold ContentNode.cons
  split <;> rfl

namespace Construct

def span : Construct → Span
  | expr e => e.span
  | tag t => t.span

/-- The constructs that stand directly in a construct. -/
def inner : Construct → List Construct
  | expr e => e.items.flatMap ExprItem.constructs
  | tag t => t.body.constructs ++ contentConstructs t.content

/-- The second construct stands directly in the first. -/
def Contains (outer inner : Construct) : Prop :=
  inner ∈ outer.inner

/-- Whatever stands in the construct, however deep, lies within what it stands in directly, and is
not empty. -/
def Nests (c : Construct) : Prop :=
  ∀ outer inner, Relation.ReflTransGen Contains c outer → outer.Contains inner →
    outer.span.Encloses inner.span ∧ inner.span.start < inner.span.stop

theorem Nests.of_inner {c : Construct}
    (h : ∀ i ∈ c.inner, c.span.Encloses i.span ∧ i.span.start < i.span.stop ∧ i.Nests) :
    c.Nests := by
  intro outer inner hreach hinner
  rcases hreach.cases_head with rfl | ⟨mid, hmid, hrest⟩
  · exact ⟨(h inner hinner).1, (h inner hinner).2.1⟩
  · exact (h mid hmid).2.2 outer inner hrest hinner

end Construct

/-! ### Tokens in order -/

/-- The tokens follow each other from a position on, and none is empty. -/
def InOrderFrom (stop : Position) : List DocToken → Prop
  | [] => True
  | t :: rest => stop ≤ t.span.start ∧ t.span.start < t.span.stop ∧ InOrderFrom t.span.stop rest

theorem InOrderFrom.mono {p q : Position} {tokens : List DocToken} (h : InOrderFrom q tokens)
    (hpq : p ≤ q) : InOrderFrom p tokens := by
  cases tokens with
  | nil => trivial
  | cons t rest => exact ⟨hpq.trans h.1, h.2⟩

namespace TagState

variable {s s' : TagState} {n k : Nat}

/-- The tokens ahead follow the last one in order. -/
def InOrder (s : TagState) : Prop :=
  InOrderFrom s.stop s.rest

theorem InOrder.take (hs : s.InOrder) : s.take.InOrder := by
  cases hrest : s.rest with
  | nil =>
    unfold TagState.take
    rw [hrest]
    exact hs
  | cons t rest =>
    rw [InOrder, hrest] at hs
    rw [take_eq_pass hrest]
    exact hs.2.2

theorem InOrder.after (hs : s.InOrder) (n : Nat) : (s.after n).InOrder := by
  induction n with
  | zero => exact hs
  | succ n ih => exact ih.take

theorem InOrder.stop_le_place (hs : s.InOrder) : s.stop ≤ s.place := by
  cases hrest : s.rest with
  | nil =>
    rw [place, hrest]
    exact le_refl _
  | cons t rest =>
    rw [InOrder, hrest] at hs
    rw [place_eq hrest]
    exact hs.1

/-- A token lies between the place before it and where the state after it is. -/
theorem InOrder.place_lt_stop_take (hs : s.InOrder) (hrest : s.rest ≠ []) :
    s.place < s.take.stop := by
  obtain ⟨t, rest, hrest⟩ := List.exists_cons_of_ne_nil hrest
  rw [InOrder, hrest] at hs
  rw [place_eq hrest, take_eq_pass hrest]
  exact hs.2.1

theorem InOrder.stop_le_take (hs : s.InOrder) : s.stop ≤ s.take.stop := by
  by_cases hrest : s.rest = []
  · unfold TagState.take
    rw [hrest]
  · exact hs.stop_le_place.trans (hs.place_lt_stop_take hrest).le

theorem InOrder.stop_le (hs : s.InOrder) (n : Nat) : s.stop ≤ (s.after n).stop := by
  induction n with
  | zero => exact le_refl _
  | succ n ih => exact ih.trans (hs.after n).stop_le_take

theorem InOrder.place_lt_stop (hs : s.InOrder) (hn : 0 < n) (hlen : n ≤ s.rest.length) :
    s.place < (s.after n).stop := by
  obtain ⟨n, rfl⟩ := Nat.exists_eq_add_of_lt hn
  rw [Nat.zero_add, Nat.add_comm, after_add]
  have hrest : s.rest ≠ [] := List.length_pos_iff.1 (by omega)
  exact (hs.place_lt_stop_take hrest).trans_le ((hs.after 1).stop_le n)

theorem InOrder.place_le (hs : s.InOrder) (hlen : n ≤ s.rest.length) :
    s.place ≤ (s.after n).place := by
  cases Nat.eq_zero_or_pos n with
  | inl hn =>
    rw [hn]
    exact le_refl _
  | inr hn => exact (hs.place_lt_stop hn hlen).le.trans (hs.after n).stop_le_place

/-- Where tokens end is told by the tokens and where the last one ended. -/
theorem stop_after_congr (hrest : s.rest = s'.rest) (hstop : s.stop = s'.stop) (n : Nat) :
    (s.after n).stop = (s'.after n).stop := by
  induction n with
  | zero => exact hstop
  | succ n ih =>
    have hsame : (s.after n).rest = (s'.after n).rest := by
      rw [rest_after, rest_after, hrest]
    show (s.after n).take.stop = (s'.after n).take.stop
    cases h : (s.after n).rest with
    | nil =>
      unfold take
      rw [h, hsame.symm.trans h]
      exact ih
    | cons t rest => rw [take_eq_pass h, take_eq_pass (hsame.symm.trans h)]; rfl

/-! ### What tokens hold -/

/-- The constructs lie in the next `n` tokens, and so does what stands in them. -/
def Holds (s : TagState) (n : Nat) (cs : List Construct) : Prop :=
  ∀ c ∈ cs, s.place ≤ c.span.start ∧ c.span.stop ≤ (s.after n).stop ∧
    c.span.start < c.span.stop ∧ c.Nests

theorem holds_nil (s : TagState) (n : Nat) : s.Holds n [] :=
  fun _ h => absurd h List.not_mem_nil

theorem Holds.append {cs ds : List Construct} (hc : s.Holds n cs) (hd : s.Holds n ds) :
    s.Holds n (cs ++ ds) :=
  List.forall_mem_append.2 ⟨hc, hd⟩

/-- More tokens hold as much. -/
theorem Holds.more {cs : List Construct} (h : s.Holds n cs) (hs : s.InOrder) (k : Nat) :
    s.Holds (n + k) cs := by
  intro c hc
  obtain ⟨hstart, hstop, hrest⟩ := h c hc
  rw [after_add]
  exact ⟨hstart, hstop.trans ((hs.after n).stop_le k), hrest⟩

/-- Tokens hold what those after the first of them hold. -/
theorem Holds.earlier {cs : List Construct} (h : (s.after n).Holds k cs) (hs : s.InOrder)
    (hn : n ≤ s.rest.length) : s.Holds (n + k) cs := by
  intro c hc
  obtain ⟨hstart, hstop, hrest⟩ := h c hc
  rw [after_add]
  exact ⟨(hs.place_le hn).trans hstart, hstop, hrest⟩

theorem Holds.congr {cs : List Construct} (h : s.Holds n cs) (hrest : s.rest = s'.rest)
    (hstop : s.stop = s'.stop) : s'.Holds n cs := by
  have hplace : s.place = s'.place := by rw [place, place, hrest, hstop]
  intro c hc
  rw [← hplace, ← stop_after_congr hrest hstop]
  exact h c hc

/-- What reaches over some tokens, and holds only what lies in them, lies in them. -/
theorem holds_singleton {c : Construct} (hs : s.InOrder) (hn : 0 < n) (hlen : n ≤ s.rest.length)
    (hspan : c.span = .between s.place (s.after n).stop) (hinner : s.Holds n c.inner) :
    s.Holds n [c] := by
  have hforward : c.span.start < c.span.stop := by
    rw [hspan]
    exact hs.place_lt_stop hn hlen
  intro d hd
  rw [List.mem_singleton.1 hd]
  refine ⟨by rw [hspan]; exact le_refl _, by rw [hspan]; exact le_refl _, hforward, ?_⟩
  refine .of_inner fun i hi => ?_
  obtain ⟨hstart, hstop, hi, hnests⟩ := hinner i hi
  refine ⟨?_, hi, hnests⟩
  rw [hspan]
  exact ⟨hstart, hstop⟩

end TagState

namespace TagReader

open TagState (holds_nil holds_singleton)

variable {s : TagState} {bound : Nat}

/-! ### The fields of a tag -/

/-- Where at most `bound` tokens are ahead, the program reads the expression that opens there. -/
def ReadsExpr (expression : TagReader DocExpr) (bound : Nat) : Prop :=
  ∀ s : TagState, s.InOrder → s.rest.length ≤ bound →
    s.kind? = some .lbrace ∨ s.kind? = some .lbracket →
    Takes expression s fun n e => 0 < n ∧ s.Holds n [.expr e]

section

variable {expression : TagReader DocExpr}

theorem takes_typeConstraint (he : ReadsExpr expression bound) (hs : s.InOrder)
    (hbound : s.rest.length ≤ bound) :
    Takes (typeConstraint expression) s fun n type => s.Holds n (type.toList.map .expr) := by
  refine takes_skipBlanks.bind fun n _ hn _ => Takes.at? (Takes.secondIs ?_)
  split
  · rename_i h
    have hopen := eq_of_beq (Bool.and_eq_true_iff.1 h).1
    have hbound : (s.after n).rest.length ≤ bound := by
      rw [s.rest_after, List.length_drop]
      omega
    exact (he _ (hs.after n) hbound (Or.inl hopen)).map fun k e h => h.2.earlier hs hn
  · exact .pure (holds_nil _ _)

theorem takes_linkTarget (he : ReadsExpr expression bound) (hs : s.InOrder)
    (hbound : s.rest.length ≤ bound) :
    Takes (linkTarget expression) s fun n target => s.Holds n target.constructs := by
  refine Takes.get ?_
  split
  · exact .pure (holds_nil _ _)
  · rename_i t rest hrest
    split
    · rename_i hkind
      have hopen : s.kind? = some .lbrace := (TagState.kind?_eq hrest).trans (congrArg some hkind)
      exact (he s hs hbound (Or.inl hopen)).map fun n e h => h.2
    · rename_i hkind
      exact (takes_take_of_kind hrest (hkind ▸ nofun)).bind fun _ _ _ _ => .pure (holds_nil _ _)
    · rename_i hkind
      refine Takes.secondIs ?_
      split
      · exact (takes_take_of_kind hrest (hkind ▸ nofun)).bind fun _ _ _ _ =>
          takes_reference.map fun _ _ _ => holds_nil _ _
      · exact .pure (holds_nil _ _)
    · exact takes_reference.map fun _ _ _ => holds_nil _ _
    · exact .pure (holds_nil _ _)

theorem takes_link (he : ReadsExpr expression bound) (hs : s.InOrder)
    (hbound : s.rest.length ≤ bound) :
    Takes (link expression) s fun n body => s.Holds n body.constructs := by
  refine takes_skipBlanks.bind fun n _ hn _ => ?_
  have hbound : (s.after n).rest.length ≤ bound := by
    rw [s.rest_after, List.length_drop]
    omega
  have htarget := takes_linkTarget he (s := (s.after n).beginRecording) (hs.after n) hbound
  refine htarget.recording.bind fun k p hk hp => .pure ?_
  have hp : (s.after n).Holds k p.1.constructs := hp.congr rfl rfl
  exact hp.earlier hs hn

theorem takes_param (he : ReadsExpr expression bound) (hs : s.InOrder)
    (hbound : s.rest.length ≤ bound) :
    Takes (param expression) s fun n body => s.Holds n body.constructs := by
  refine (takes_typeConstraint he hs hbound).bind fun n type _ htype => takes_skipBlanks.bind
    fun k _ _ _ => Takes.at? ?_
  -- the rest of the fields holds nothing, and so the datatype lies in whatever is taken
  have hbody (s' : TagState) (isOptional : Bool) (p : Option Name × Option String) :
      Takes (do skipDash; Pure.pure (TagBody.param p.1 type p.2 isOptional)) s'
        fun _ body => ∀ m, s.Holds (n + m) body.constructs :=
    takes_skipDash.bind fun _ _ _ _ => .pure fun m => htype.more hs m
  split
  · rename_i hopen
    exact (takes_bracketedParam (eq_of_beq hopen)).bind fun _ p _ _ =>
      (hbody _ _ p).mono fun _ _ h => h _
  · refine Takes.at? ?_
    split
    · exact takes_plainParam.bind fun _ p _ _ => (hbody _ _ p).mono fun _ _ h => h _
    · exact (hbody _ _ (none, none)).mono fun _ _ h => h _

theorem takes_tagBody (he : ReadsExpr expression bound) (hs : s.InOrder)
    (hbound : s.rest.length ≤ bound) (marker : String) :
    Takes (tagBody expression marker) s fun n body => s.Holds n body.constructs := by
  unfold tagBody
  split
  · exact takes_param he hs hbound
  · split
    · exact takes_link he hs hbound
    · split
      · exact .pure (holds_nil _ _)
      · exact .pure (holds_nil _ _)
      · exact (takes_typeConstraint he hs hbound).map fun _ _ h => h
      · exact (takes_typeConstraint he hs hbound).map fun _ _ h => h
      · exact takes_errorName.map fun _ _ _ => holds_nil _ _
      · exact takes_errorName.map fun _ _ _ => holds_nil _ _
      · exact takes_errorName.map fun _ _ _ => holds_nil _ _
      · exact .pure (holds_nil _ _)
      · exact .pure (holds_nil _ _)
      · exact .pure (holds_nil _ _)
      · exact .pure (holds_nil _ _)
      · exact takes_apiVisibility.map fun _ _ _ => holds_nil _ _
      · exact .pure (holds_nil _ _)

end

/-! ### Content -/

/-- A tag begins with the next token. It takes `n` tokens, of which only the first may be a marker
at the start of a line. What stands in it lies in them. -/
structure TagOf (s : TagState) (n : Nat) (t : Tag) : Prop where
  pos : 0 < n
  le : n ≤ s.rest.length
  unmarked : ∀ i, 0 < i → i < n → (s.after i).startsTag = false
  span : t.span = .between s.place (s.after n).stop
  inner : s.Holds n (Construct.tag t).inner

theorem TagOf.holds {n : Nat} {t : Tag} (h : TagOf s n t) (hs : s.InOrder) : s.Holds n [.tag t] :=
  holds_singleton (c := .tag t) hs h.pos h.le h.span h.inner

/-- What the programs that contain themselves take, given the bound `n`. -/
structure ReadsTo (n : Nat) : Prop where
  content : ∀ (scope : Scope) (s : TagState), s.InOrder → 2 * s.rest.length + 1 ≤ n →
    Takes (content n scope) s fun k nodes => s.Holds k (contentConstructs nodes) ∧
      (scope = .block → s.rest ≠ [] → s.atMarker = false → 0 < k)
  items : ∀ (close : DocKind) (s : TagState), s.InOrder → 2 * s.rest.length + 1 ≤ n →
    Takes (items n close) s fun k items => s.Holds k (items.flatMap ExprItem.constructs)
  expression : ∀ bound, 2 * bound ≤ n → ReadsExpr (expression n) bound
  inlineTag : ∀ s : TagState, s.InOrder → 2 * s.rest.length ≤ n → s.kind? = some .lbrace →
    s.secondKind? = some .tag → Takes (inlineTag n) s fun k t => 0 < k ∧ s.Holds k [.tag t]
  tag : ∀ (scope : Scope) (s : TagState), s.InOrder → 2 * s.rest.length ≤ n → s.rest ≠ [] →
    ∃ k, ((TagReader.tag n scope).run s).2 = s.after k ∧ TagOf s k ((TagReader.tag n scope).run s).1

namespace ReadsTo

theorem zero : ReadsTo 0 where
  content _ _ _ h := absurd h (Nat.not_succ_le_zero _)
  items _ _ _ h := absurd h (Nat.not_succ_le_zero _)
  expression bound h s _ hbound hopen := by
    obtain ⟨t, rest, hrest⟩ : ∃ t rest, s.rest = t :: rest := by
      rcases hopen with hopen | hopen <;>
        exact let ⟨t, rest, hrest, _⟩ := TagState.rest_ne_nil_of_kind? hopen; ⟨t, rest, hrest⟩
    rw [hrest, List.length_cons] at hbound
    omega
  inlineTag s _ h hopen := by
    obtain ⟨t, rest, hrest, -⟩ := TagState.rest_ne_nil_of_kind? hopen
    rw [hrest, List.length_cons] at h
    omega
  tag _ s _ h hne := by
    have := List.length_pos_iff.2 hne
    omega

variable {n : Nat}

theorem expression_succ (h : ReadsTo n) (hbound : 2 * bound ≤ n + 1) :
    ReadsExpr (TagReader.expression (n + 1)) bound := by
  intro s hs hlen hopen
  obtain ⟨t, rest, hrest, hkind⟩ : ∃ t rest, s.rest = t :: rest ∧ t.kind ≠ .tag := by
    rcases hopen with hopen | hopen
    · obtain ⟨t, rest, hrest, hkind⟩ := TagState.rest_ne_nil_of_kind? hopen
      exact ⟨t, rest, hrest, by simp [hkind]⟩
    · obtain ⟨t, rest, hrest, hkind⟩ := TagState.rest_ne_nil_of_kind? hopen
      exact ⟨t, rest, hrest, by simp [hkind]⟩
  have hpieces (close : DocKind) (hclose : close ≠ .tag) : Takes (do
      take
      let result ← recording (nested (TagReader.items n close))
      takeKind close
      pure result) s fun k r => 0 < k ∧ s.Holds k (r.1.flatMap ExprItem.constructs) := by
    refine (takes_take_of_kind hrest hkind).bind fun k _ hk hone => ?_
    have hfuel : 2 * (s.after k).rest.length + 1 ≤ n := by
      rw [s.rest_after, List.length_drop]
      omega
    let inside := (s.after k).beginRecording.deeper
    have hitems := (h.items close inside (hs.after k) hfuel).nested.recording
    refine hitems.bind fun l r _ hr => (takes_takeKind hclose).bind fun m _ _ _ => .pure ?_
    have hr : (s.after k).Holds l (r.1.flatMap ExprItem.constructs) := hr.congr rfl rfl
    exact ⟨by omega, (hr.more (hs.after k) m).earlier hs hk⟩
  unfold TagReader.expression
  refine Takes.at? ((hpieces _ ?_).spanned.bind fun k r hk hr =>
    .pure ⟨hr.1.1, holds_singleton hs hr.1.1 hk hr.2 hr.1.2⟩)
  split <;> decide

theorem content_succ (h : ReadsTo n) (scope : Scope) (s : TagState) (hs : s.InOrder)
    (hfuel : 2 * s.rest.length + 1 ≤ n + 1) :
    Takes (TagReader.content (n + 1) scope) s fun k nodes =>
      s.Holds k (contentConstructs nodes) ∧
        (scope = .block → s.rest ≠ [] → s.atMarker = false → 0 < k) := by
  unfold TagReader.content
  refine Takes.get ?_
  split
  · rename_i hrest
    exact .pure ⟨holds_nil _ _, fun _ hne => absurd hrest hne⟩
  · rename_i t rest hrest
    split
    · rename_i hstop
      refine .pure ⟨holds_nil _ _, fun hscope _ hmarker => ?_⟩
      rcases hstop with hstop | ⟨hstop, -⟩
      · rw [hmarker] at hstop
        cases hstop
      · rw [hscope] at hstop
        cases hstop
    · rename_i hgo
      have hstart : s.startsTag = false :=
        TagState.startsTag_of_atMarker (Bool.not_eq_true _ ▸ fun hmarker => hgo (Or.inl hmarker))
      have hmore (m : TagReader ContentNode)
          (hm : Takes m s fun k node => 0 < k ∧ s.Holds k node.constructs) :
          Takes (do
              let node ← m
              Pure.pure (node.cons (← TagReader.content n scope))) s
            fun k nodes => s.Holds k (contentConstructs nodes) ∧
              (scope = .block → s.rest ≠ [] → s.atMarker = false → 0 < k) := by
        refine hm.bind fun k node hle hnode => ?_
        have hfuel : 2 * (s.after k).rest.length + 1 ≤ n := by
          rw [s.rest_after, List.length_drop]
          omega
        refine (h.content scope (s.after k) (hs.after k) hfuel).bind fun l nodes _ hnodes => .pure
          ⟨?_, fun _ _ _ => by omega⟩
        rw [contentConstructs_cons]
        exact (hnode.2.more hs l).append (hnodes.1.earlier hs hle)
      have htake {node : ContentNode} (hnode : node.constructs = []) :
          Takes (do take; Pure.pure node) s fun k node => 0 < k ∧ s.Holds k node.constructs :=
        (takes_take hrest hstart).bind fun k _ _ hone => .pure
          ⟨by omega, hnode ▸ holds_nil _ _⟩
      split
      · rename_i hopen
        have hkind := (TagState.kind?_eq hrest).trans (congrArg some hopen.1)
        exact hmore _ ((h.inlineTag s hs (by omega) hkind hopen.2).map fun _ _ ht => ht)
      · have hexpr (hopen : s.kind? = some .lbrace ∨ s.kind? = some .lbracket) :=
          h.expression s.rest.length (by omega) s hs (le_refl _) hopen
        split
        · rename_i hopen
          have hkind := (TagState.kind?_eq hrest).trans (congrArg some hopen)
          exact hmore _ ((hexpr (Or.inl hkind)).map fun _ _ he => he)
        · split
          · rename_i hopen
            have hkind := (TagState.kind?_eq hrest).trans (congrArg some hopen)
            exact hmore _ ((hexpr (Or.inr hkind)).map fun _ _ he => he)
          · split
            · exact hmore (do take; ContentNode.hash <$> reference)
                ((takes_take hrest hstart).bind fun k _ _ hone => takes_reference.map
                  fun l _ _ => ⟨by omega, holds_nil _ _⟩)
            · refine hmore (do take; Pure.pure (contentToken scope t)) (htake ?_)
              unfold contentToken
              split <;> try rfl
              split <;> rfl

theorem items_succ (h : ReadsTo n) (close : DocKind) (s : TagState) (hs : s.InOrder)
    (hfuel : 2 * s.rest.length + 1 ≤ n + 1) :
    Takes (TagReader.items (n + 1) close) s
      fun k items => s.Holds k (items.flatMap ExprItem.constructs) := by
  unfold TagReader.items
  refine Takes.get ?_
  split
  · exact .pure (holds_nil _ _)
  · rename_i t rest hrest
    split
    · exact .pure (holds_nil _ _)
    · rename_i hgo
      have hstart : s.startsTag = false :=
        TagState.startsTag_of_atMarker (Bool.not_eq_true _ ▸ fun hmarker => hgo (Or.inr hmarker))
      have hitems {k : Nat} (hk : 0 < k) (hle : k ≤ s.rest.length) :
          Takes (TagReader.items n close) (s.after k)
            fun l items => s.Holds (k + l) (items.flatMap ExprItem.constructs) := by
        have hfuel : 2 * (s.after k).rest.length + 1 ≤ n := by
          rw [s.rest_after, List.length_drop]
          omega
        exact (h.items close (s.after k) (hs.after k) hfuel).mono fun _ _ h => h.earlier hs hle
      have hmore (m : TagReader ExprItem)
          (hm : Takes m s fun k item => 0 < k ∧ s.Holds k item.constructs) :
          Takes (do
              let item ← m
              Pure.pure (item :: (← TagReader.items n close))) s
            fun k items => s.Holds k (items.flatMap ExprItem.constructs) := by
        refine hm.bind fun k item hle hitem => ?_
        exact (hitems hitem.1 hle).bind fun l items _ h => .pure ((hitem.2.more hs l).append h)
      split
      · exact (takes_take hrest hstart).bind fun k _ hle hone => hitems (by omega) hle
      · have hexpr (hopen : s.kind? = some .lbrace ∨ s.kind? = some .lbracket) :=
          h.expression s.rest.length (by omega) s hs (le_refl _) hopen
        have hkind? : s.kind? = some t.kind := TagState.kind?_eq hrest
        split
        · rename_i hopen
          have hkind := hkind?.trans (congrArg some hopen.1)
          exact hmore _ ((h.inlineTag s hs (by omega) hkind hopen.2).map fun _ _ ht => ht)
        · split
          · rename_i hopen
            have hkind := hopen.imp (fun h => hkind?.trans (congrArg some h))
              fun h => hkind?.trans (congrArg some h)
            exact hmore _ ((hexpr hkind).map fun _ _ he => he)
          · split
            · exact hmore (do take; ExprItem.hash <$> reference)
                ((takes_take hrest hstart).bind fun k _ _ hone => takes_reference.map
                  fun l _ _ => ⟨by omega, holds_nil _ _⟩)
            · split
              · rename_i hident
                have hkind := hkind?.trans (congrArg some hident)
                exact hmore _ (takes_reference.map fun k _ hk => ⟨hk hkind, holds_nil _ _⟩)
              · refine hmore (do take; Pure.pure (itemToken t)) ((takes_take hrest hstart).bind
                  fun k _ _ hone => .pure ⟨by omega, ?_⟩)
                have hnone : (itemToken t).constructs = [] := by
                  unfold itemToken
                  split <;> rfl
                exact hnone ▸ holds_nil _ _

theorem tag_succ (h : ReadsTo n) (scope : Scope) (s : TagState) (hs : s.InOrder)
    (hfuel : 2 * s.rest.length ≤ n + 1) (hne : s.rest ≠ []) :
    ∃ k, ((TagReader.tag (n + 1) scope).run s).2 = s.after k ∧
      TagOf s k ((TagReader.tag (n + 1) scope).run s).1 := by
  obtain ⟨t, rest, hrest⟩ := List.exists_cons_of_ne_nil hne
  have hlen : s.rest.length = rest.length + 1 := by rw [hrest, List.length_cons]
  have hlen' : (s.after 1).rest.length = rest.length := by
    rw [s.rest_after, List.length_drop, hlen, Nat.add_sub_cancel]
  let fields : TagReader (TagBody × List ContentNode) := do
    let body ← tagBody (TagReader.expression n) (s.rest.head?.elim "" (·.value))
    let content ← TagReader.content n scope
    pure (body, content)
  have hfields : Takes fields (s.after 1) fun k p =>
      (s.after 1).Holds k (p.1.constructs ++ contentConstructs p.2) := by
    have he := h.expression rest.length (by omega)
    refine (takes_tagBody he (hs.after 1) hlen'.le _).bind fun k body hk hbody => ?_
    have hfuel : 2 * ((s.after 1).after k).rest.length + 1 ≤ n := by
      rw [TagState.rest_after, List.length_drop]
      omega
    refine (h.content scope _ ((hs.after 1).after k) hfuel).bind
      fun l content _ hcontent => .pure ?_
    exact (hbody.more (hs.after 1) l).append (hcontent.1.earlier (hs.after 1) hk)
  obtain ⟨k, hk, hunmarked, hrun, hholds⟩ := hfields
  have hstate : ((TagReader.tag (n + 1) scope).run s).2 = s.after (1 + k) :=
    hrun.trans (s.after_add 1 k).symm
  have hspan : ((TagReader.tag (n + 1) scope).run s).1.span =
      .between s.place (s.after (1 + k)).stop := by
    rw [← hstate]
    rfl
  refine ⟨1 + k, hstate, by omega, by omega, fun i hi hik => ?_, hspan,
    hholds.earlier hs (by omega)⟩
  obtain ⟨i, rfl⟩ := Nat.exists_eq_add_of_le hi
  rw [s.after_add]
  exact hunmarked i (by omega)

/-- The marker of a tag in braces is not at the start of a line, since a brace is in front of it. -/
theorem inlineTag_succ (h : ReadsTo n) (s : TagState) (hs : s.InOrder)
    (hfuel : 2 * s.rest.length ≤ n + 1) (hopen : s.kind? = some .lbrace)
    (hmarker : s.secondKind? = some .tag) :
    Takes (TagReader.inlineTag (n + 1)) s fun k t => 0 < k ∧ s.Holds k [.tag t] := by
  obtain ⟨t, rest, hrest, hkind⟩ := TagState.rest_ne_nil_of_kind? hopen
  unfold TagReader.inlineTag
  refine (takes_take_of_kind hrest (by simp [hkind])).bind fun k _ hk hone => ?_
  subst hone
  let inside := (s.after 1).deeper
  have hinside : inside.InOrder := hs.after 1
  have hline : inside.lineStart = false := by
    show (s.after 1).lineStart = false
    rw [TagState.after_one hrest]
    simp [TagState.pass, hkind]
  have hne : inside.rest ≠ [] := by
    show (s.after 1).rest ≠ []
    rw [TagState.after_one hrest]
    rintro hnil
    have hnil : rest = [] := hnil
    rw [TagState.secondKind?, hrest, hnil] at hmarker
    cases hmarker
  have hfuel : 2 * inside.rest.length ≤ n := by
    show 2 * (s.after 1).rest.length ≤ n
    rw [s.rest_after, List.length_drop]
    omega
  have htag : Takes (TagReader.tag n .inline) inside
      fun l t => 0 < l ∧ (s.after 1).Holds l [.tag t] := by
    obtain ⟨l, hrun, htag⟩ := h.tag .inline inside hinside hfuel hne
    refine ⟨l, htag.le, fun i hi => ?_, hrun, htag.pos, ?_⟩
    · cases i with
      | zero => exact TagState.startsTag_of_lineStart hline
      | succ i => exact htag.unmarked (i + 1) (Nat.succ_pos i) hi
    · exact (htag.holds hinside).congr rfl rfl
  refine htag.nested.bind fun l tag _ ht => Takes.bind (takes_takeKind (by decide)) fun m _ _ _ =>
    .pure ⟨by omega, ?_⟩
  exact (ht.2.more (hs.after 1) m).earlier hs hk

theorem all (n : Nat) : ReadsTo n := by
  induction n with
  | zero => exact zero
  | succ n ih =>
    exact {
      content := ih.content_succ
      items := ih.items_succ
      expression := fun _ => ih.expression_succ
      inlineTag := ih.inlineTag_succ
      tag := ih.tag_succ }

end ReadsTo

end TagReader
end SqlDoc

/-
# The order of tags

Tags in front of a context that say different things may stand in any order. Two tags tell different
things if they are about different contexts, or different things about one; only the annotations
keep the order of their tags. A comment that has one `@return` tag at most and whose `@param` tags
have different names repeats nothing, so every tag is heard wherever it stands (`heard_eq`).

Key definition: `Reordered`.
Key theorems: `apply_comm_of_told`, `foldl_eq_filter_append`, `heard_eq`, `foldl_tell_reordered`,
`bind_reordered`.
-/
import SqlDoc.Proofs.Context.Tagging
import SqlDoc.Proofs.Doc.Names

namespace SqlDoc

/-! ### Tags in another order -/

/-- The tag is a `@return` tag. -/
def Tag.isReturns (t : Tag) : Bool :=
  match t.body with
  | .returns _ => true
  | _ => false

/-- The tag is a `@throws` tag. -/
def Tag.isThrows (t : Tag) : Bool :=
  match t.body with
  | .throws _ => true
  | _ => false

/-- The others are the tags of comments in front of a context in an order that says the same: those
that go into one text or list are in the same order. -/
structure Reordered (f : RowFrame) (tags others : List Tag) : Prop where
  written : ∀ t ∈ tags, ∃ text start, t ∈ (parseComment text start).tags
  perm : tags.Perm others
  descriptions : tags.filter Tag.isDescription = others.filter Tag.isDescription
  throws : tags.filter Tag.isThrows = others.filter Tag.isThrows
  kept : tags.filter f.keeps = others.filter f.keeps
  returns : (tags.filter Tag.isReturns).length ≤ 1
  params : (tags.filterMap fun t => t.paramDoc?.map (·.name.last)).Nodup

/-! ### Tags that repeat nothing -/

/-- The names that tags display. -/
def shownParams (tags : List Tag) : List String :=
  tags.filterMap fun t => t.paramDoc?.map (·.name.display)

theorem shownParams_cons {t : Tag} {doc : ParamDoc} (h : t.paramDoc? = some doc)
    (more : List Tag) : shownParams (t :: more) = doc.name.display :: shownParams more := by
  rw [shownParams, List.filterMap_cons, h]
  rfl

/-- Names with different unqualified parts are displayed differently. -/
theorem nodup_shownParams {tags : List Tag} (hplain : ∀ t ∈ tags, t.body.IsPlain)
    (h : (tags.filterMap fun t => t.paramDoc?.map (·.name.last)).Nodup) :
    (shownParams tags).Nodup := by
  have hdocs : ∀ doc ∈ tags.filterMap Tag.paramDoc?, doc.name.IsPlain := by
    intro doc hdoc
    obtain ⟨t, ht, hparam⟩ := List.mem_filterMap.1 hdoc
    obtain ⟨type, hbody⟩ := Tag.body_of_paramDoc? hparam
    exact hplain t ht _ _ _ _ hbody
  have hlast : ((tags.filterMap Tag.paramDoc?).map (·.name.last)).Nodup := by
    rwa [List.map_filterMap]
  have hdisplay : ((tags.filterMap Tag.paramDoc?).map (·.name.display)).Nodup := by
    rw [List.Nodup, List.pairwise_map] at hlast ⊢
    refine hlast.imp_of_mem fun hd he hne heq => hne ?_
    exact Name.last_eq_of_display_eq (hdocs _ hd) (hdocs _ he) heq
  rwa [List.map_filterMap] at hdisplay

namespace TagFront

variable {p : TagFront} {b : Resolver.Bound} {t : Tag}

theorem repeats?_eq_none (hnamed : ∀ doc ∈ t.paramDoc?, doc.name.display ∉ b.named)
    (hreturned : t.isReturns → b.returned = false) : p.repeats? b t = none := by
  unfold repeats?
  unfold Tag.isReturns at hreturned
  cases hbody : t.body with
  | param name type default isOptional =>
    cases name with
    | none => rfl
    | some name =>
      have hdoc := hnamed _ (show t.paramDoc? = some _ by rw [Tag.paramDoc?, hbody])
      simp [hdoc]
  | returns =>
    rw [hbody] at hreturned
    simp [hreturned rfl]
  | _ => rfl

/-- The names that have been displayed after a tag. -/
theorem named_after (p : TagFront) (b : Resolver.Bound) (t : Tag) :
    (p.after b t).named = b.named ∨
      ∃ doc, t.paramDoc? = some doc ∧ (p.after b t).named = doc.name.display :: b.named := by
  unfold after
  cases hbody : t.body with
  | param name =>
    cases name with
    | none => exact .inl rfl
    | some name =>
      dsimp only
      split
      · exact .inr ⟨_, by rw [Tag.paramDoc?, hbody], rfl⟩
      · exact .inl rfl
  | description =>
    dsimp only
    split <;> exact .inl rfl
  | returns =>
    dsimp only
    split <;> exact .inl rfl
  | _ => exact .inl rfl

/-- Only a `@return` tag makes the result one that has been described. -/
theorem returned_after (p : TagFront) (b : Resolver.Bound) (t : Tag) :
    (p.after b t).returned = b.returned ∨ t.isReturns := by
  unfold after Tag.isReturns
  cases hbody : t.body with
  | param name =>
    cases name with
    | none => exact .inl rfl
    | some name =>
      dsimp only
      split <;> exact .inl rfl
  | description =>
    dsimp only
    split <;> exact .inl rfl
  | returns => exact .inr rfl
  | _ => exact .inl rfl

/-- Nothing is repeated by tags that display other names than those before and than each other, and
of which one at most is about a result that has not been described. -/
theorem heard_eq {tags : List Tag} (hnamed : (shownParams tags ++ b.named).Nodup)
    (hreturned : (tags.filter Tag.isReturns).length + b.returned.toNat ≤ 1) :
    p.heard b tags = tags ∧ p.remarks b tags = tags.flatMap p.complaints := by
  induction tags generalizing b with
  | nil => exact ⟨rfl, rfl⟩
  | cons t more ih =>
    have hnone : p.repeats? b t = none := by
      refine repeats?_eq_none (fun doc hdoc hmem => ?_) fun hreturns => ?_
      · rw [shownParams_cons hdoc, List.cons_append, List.nodup_cons] at hnamed
        exact hnamed.1 (List.mem_append_right _ hmem)
      · rw [List.filter_cons_of_pos hreturns, List.length_cons] at hreturned
        cases hb : b.returned with
        | false => rfl
        | true =>
          rw [hb, Bool.toNat_true] at hreturned
          omega
    have hpass : p.pass b t = p.after b t := by
      rw [pass, hnone]
      rfl
    have hnamed' : (shownParams more ++ (p.after b t).named).Nodup := by
      rcases p.named_after b t with h | ⟨doc, hdoc, h⟩
      · rw [h]
        refine hnamed.sublist (List.Sublist.append_right ?_ _)
        exact (List.sublist_cons_self t more).filterMap _
      · rw [shownParams_cons hdoc] at hnamed
        rw [h]
        exact List.perm_middle.nodup_iff.2 hnamed
    have hreturned' : (more.filter Tag.isReturns).length + (p.after b t).returned.toNat ≤ 1 := by
      rcases p.returned_after b t with h | h
      · rw [h]
        refine Nat.le_trans (Nat.add_le_add_right ?_ _) hreturned
        exact ((List.sublist_cons_self t more).filter _).length_le
      · rw [List.filter_cons_of_pos h, List.length_cons] at hreturned
        have := Bool.toNat_le (p.after b t).returned
        omega
    obtain ⟨hheard, hremarks⟩ := ih hnamed' hreturned'
    rw [heard, remarks, hpass, hheard, hremarks, hnone]
    exact ⟨rfl, rfl⟩

end TagFront

/-! ### What is told in another order -/

namespace Told

/-- The tag itself is told. -/
def isKept : Told → Bool
  | kept _ => true
  | _ => false

/-- What becomes of the annotations does not depend on what else is told. -/
theorem apply_kept_comm (tag : Tag) {told : Told} (h : told.isKept = false)
    (c : Context) :
    told.apply ((kept tag).apply c) = (kept tag).apply (told.apply c) := by
  cases told with
  | kept => cases h
  | result text type =>
    unfold apply
    dsimp only
    split <;> rfl
  | param doc =>
    unfold apply ParamDoc.apply
    dsimp only
    split <;> rfl

/-- No context has a result and is a parameter. -/
theorem apply_param_comm (doc : ParamDoc) (text : String) (type : Option String) (c : Context) :
    (param doc).apply ((result text type).apply c) =
      (result text type).apply ((param doc).apply c) := by
  cases c with
  | mk _ _ _ _ _ _ _ _ _ detail =>
    cases detail with
    | method returns => cases returns <;> rfl
    | _ => rfl

end Told

section

variable {α β : Type} {f : β → α → β} {q : α → Bool}

theorem eq_of_length_le_one {l : List α} (h : l.length ≤ 1) {a b : α} (ha : a ∈ l) (hb : b ∈ l) :
    a = b := by
  cases l with
  | nil => cases ha
  | cons c l =>
    cases l with
    | nil => rw [List.mem_singleton.1 ha, List.mem_singleton.1 hb]
    | cons => simp at h

theorem foldl_comm {l : List α} {x : α} (h : ∀ y ∈ l, ∀ b, f (f b x) y = f (f b y) x) (b : β) :
    l.foldl f (f b x) = f (l.foldl f b) x := by
  induction l generalizing b with
  | nil => rfl
  | cons y l ih =>
    obtain ⟨hy, hl⟩ := List.forall_mem_cons.1 h
    rw [List.foldl_cons, hy, ih hl]
    rfl

/-- Steps that commute with all others may be made first. -/
theorem foldl_eq_filter_append (h : ∀ x y, q x = true → q y = false → ∀ b,
    f (f b y) x = f (f b x) y) (l : List α) (b : β) :
    l.foldl f b = (l.filter q ++ l.filter (!q ·)).foldl f b := by
  induction l generalizing b with
  | nil => rfl
  | cons x l ih =>
    rw [List.foldl_cons, ih]
    cases hx : q x with
    | true => simp [hx]
    | false =>
      have hcomm := foldl_comm (l := l.filter q) (x := x)
        (fun y hy b => h y x (List.mem_filter.1 hy).2 hx b) b
      simp [hx, List.foldl_append, hcomm]

end

namespace TagFront

variable {p : TagFront} {tags others : List Tag} {t : Tag}

theorem told?_of_keeps (h : p.own.keeps t) : p.told? t = some (p.id, .kept t) := by
  unfold RowFrame.keeps at h
  unfold told?
  cases hbody : t.body with
  | param | returns =>
    rw [hbody] at h
    exact if_pos h
  | description | throws =>
    rw [hbody] at h
    cases h
  | link | visibility | generic => rfl

/-- The tags that are kept are those that tell themselves. -/
theorem isKept_of_told? {target : Nat} {told : Told} (h : p.told? t = some (target, told)) :
    told.isKept = p.own.keeps t := by
  cases hkeeps : p.own.keeps t with
  | true =>
    rw [told?_of_keeps hkeeps] at h
    cases h
    rfl
  | false =>
    obtain ⟨h, -⟩ | ⟨_, -, -, rfl⟩ | ⟨_, -, -, -, rfl⟩ := told?_cases h
    · rw [hkeeps] at h
      cases h
    · rfl
    · rfl

theorem toldTo?_eq_some {id : Nat} {told : Told} :
    p.toldTo? id t = some told ↔ p.told? t = some (id, told) := by
  unfold toldTo?
  cases p.told? t with
  | none => simp
  | some q =>
    obtain ⟨target, other⟩ := q
    by_cases htarget : target = id <;> simp [htarget]

/-- What a context is told by the tags that are kept, and by the others. -/
theorem filter_toldTo? (id : Nat) (keep : Bool) (tags : List Tag) :
    (tags.filterMap (p.toldTo? id)).filter (·.isKept == keep) =
      (tags.filter (p.own.keeps · == keep)).filterMap (p.toldTo? id) := by
  rw [List.filter_filterMap, List.filterMap_filter]
  refine congrArg (List.filterMap · tags) (funext fun t => ?_)
  cases htold : p.toldTo? id t with
  | none => exact (ite_self none).symm
  | some told =>
    rw [Option.filter_some, isKept_of_told? (toldTo?_eq_some.1 htold)]

/-- Two tags that name the same context as what they are about have names with the same unqualified
part. -/
theorem last_eq_of_target? {name other : Name} {id : Nat} (h : p.target? name = some id)
    (h' : p.target? other = some id) : name.last = other.last := by
  have hframe {name : Name} (h : p.target? name = some id) :
      (p.frames[id]?).any (·.name.sameBase name) := by
    let same (id : Nat) : Bool := (p.frames[id]?).any (·.name.sameBase name)
    exact List.find?_some (p := same) h
  obtain ⟨frame, hfound, hname⟩ := (Option.any_eq_true _ _).1 (hframe h)
  obtain ⟨found, hfound', hother⟩ := (Option.any_eq_true _ _).1 (hframe h')
  cases hfound.symm.trans hfound'
  exact (beq_iff_eq.1 hname).symm.trans (beq_iff_eq.1 hother)

/-- Of what a context is told, except for annotations, the order does not matter. -/
theorem apply_comm_of_told (h : Reordered p.own tags others) {id : Nat} {s t : Tag} (hs : s ∈ tags)
    (ht : t ∈ tags) {x y : Told} (hx : p.toldTo? id s = some x) (hy : p.toldTo? id t = some y)
    (hxkept : x.isKept = false) (hykept : y.isKept = false) (c : Context) :
    y.apply (x.apply c) = x.apply (y.apply c) := by
  obtain ⟨-, -, rfl⟩ | ⟨type, hsbody, -, rfl⟩ | ⟨doc, hsdoc, -, hstarget, rfl⟩ :=
    told?_cases (toldTo?_eq_some.1 hx)
  · cases hxkept
  · obtain ⟨-, -, rfl⟩ | ⟨other, htbody, -, rfl⟩ | ⟨doc, htdoc, -, httarget, rfl⟩ :=
      told?_cases (toldTo?_eq_some.1 hy)
    · cases hykept
    · have hreturns {t : Tag} {type : Option DocExpr} (ht : t ∈ tags)
          (hbody : t.body = .returns type) : t ∈ tags.filter Tag.isReturns :=
        List.mem_filter.2 ⟨ht, by rw [Tag.isReturns, hbody]⟩
      have hsame : s = t :=
        eq_of_length_le_one h.returns (hreturns hs hsbody) (hreturns ht htbody)
      cases hsame
      cases hsbody.symm.trans htbody
      rfl
    · exact Told.apply_param_comm ..
  · obtain ⟨-, -, rfl⟩ | ⟨other, htbody, -, rfl⟩ | ⟨other, htdoc, -, httarget, rfl⟩ :=
      told?_cases (toldTo?_eq_some.1 hy)
    · cases hykept
    · exact (Told.apply_param_comm ..).symm
    · have hlast := last_eq_of_target? hstarget httarget
      have hsame : s = t := eq_of_nodup_filterMap h.params hs ht
        (x := doc.name.last) (by rw [hsdoc]; rfl) (by rw [htdoc, hlast]; rfl)
      cases hsame
      cases hsdoc.symm.trans htdoc
      rfl

/-- A context is told the same by tags in another order. -/
theorem foldl_toldTo? (h : Reordered p.own tags others) (id : Nat) (c : Context) :
    (tags.filterMap (p.toldTo? id)).foldl (fun c told => told.apply c) c =
      (others.filterMap (p.toldTo? id)).foldl (fun c told => told.apply c) c := by
  let f (c : Context) (told : Told) : Context := told.apply c
  let toldBy (keep : Bool) (tags : List Tag) : List Told :=
    (tags.filter (p.own.keeps · == keep)).filterMap (p.toldTo? id)
  -- annotations go by themselves, in front of all else
  have hsplit (tags : List Tag) (c : Context) : (tags.filterMap (p.toldTo? id)).foldl f c =
      (toldBy true tags ++ toldBy false tags).foldl f c := by
    have hfirst := foldl_eq_filter_append (f := f) (q := Told.isKept) fun x y hx hy c => by
      cases x with
      | kept tag => exact (Told.apply_kept_comm tag hy c).symm
      | result | param => cases hx
    rw [hfirst]
    simp only [toldBy, ← filter_toldTo?, beq_true, beq_false]
  have hkept : toldBy true tags = toldBy true others := by
    simp only [toldBy, beq_true, h.kept]
  have hothers : (toldBy false tags).Perm (toldBy false others) :=
    (h.perm.filter _).filterMap _
  have hmem {x : Told} (hx : x ∈ toldBy false tags) :
      ∃ t ∈ tags, p.toldTo? id t = some x ∧ x.isKept = false := by
    obtain ⟨t, ht, hx⟩ := List.mem_filterMap.1 hx
    obtain ⟨ht, hkeeps⟩ := List.mem_filter.1 ht
    refine ⟨t, ht, hx, ?_⟩
    rw [isKept_of_told? (toldTo?_eq_some.1 hx)]
    exact beq_iff_eq.1 hkeeps
  rw [hsplit, hsplit, List.foldl_append, List.foldl_append, hkept]
  refine hothers.foldl_eq' (fun x hx y hy c => ?_) _
  obtain ⟨s, hs, hsx, hxkept⟩ := hmem hx
  obtain ⟨t, ht, hty, hykept⟩ := hmem hy
  exact apply_comm_of_told h hs ht hsx hty hxkept hykept c

/-- All rows are the same after tags in another order. -/
theorem foldl_tell_reordered (h : Reordered p.own tags others) (rows : List ContextRow) :
    tags.foldl p.tell rows = others.foldl p.tell rows := by
  refine List.ext_getElem? fun id => ?_
  rw [getElem?_foldl_tell, getElem?_foldl_tell]
  refine congrArg (Option.map · _) (funext fun row => ?_)
  exact congrArg row.modifyContext (funext fun c => foldl_toldTo? h id c)

end TagFront

/-! ### Binding tags in another order -/

namespace Reordered

variable {f : RowFrame} {tags others : List Tag}

/-- The names are those that comments give. -/
theorem isPlain (h : Reordered f tags others) : ∀ t ∈ tags, t.body.IsPlain := fun t ht => by
  obtain ⟨text, start, hmem⟩ := h.written t ht
  exact parseComment_isPlain t hmem

/-- Nothing is repeated, neither in the one order nor in the other. -/
theorem heard_eq {p : TagFront} (h : Reordered f tags others) :
    (p.heard {} tags = tags ∧ p.remarks {} tags = tags.flatMap p.complaints) ∧
      p.heard {} others = others ∧ p.remarks {} others = others.flatMap p.complaints := by
  have hshown := nodup_shownParams h.isPlain h.params
  have hothers : (shownParams others).Nodup := (h.perm.filterMap _).nodup_iff.1 hshown
  have hreturns : (others.filter Tag.isReturns).length ≤ 1 := by
    rw [← (h.perm.filter _).length_eq]
    exact h.returns
  constructor
  · exact TagFront.heard_eq (by simpa using hshown) (by simpa using h.returns)
  · exact TagFront.heard_eq (by simpa using hothers) (by simpa using hreturns)

theorem described (h : Reordered f tags others) :
    tags.filterMap Tag.described? = others.filterMap Tag.described? := by
  have hkeep (l : List Tag) :
      l.filterMap Tag.described? = (l.filter Tag.isDescription).filterMap Tag.described? := by
    rw [List.filterMap_filter]
    refine congrArg (List.filterMap · l) (funext fun t => ?_)
    unfold Tag.described?
    cases t.isDescription <;> simp
  rw [hkeep, h.descriptions, ← hkeep]

theorem pendingThrows (h : Reordered f tags others) (id : Nat) :
    tags.flatMap (Tag.pendingThrows id) = others.flatMap (Tag.pendingThrows id) := by
  have hkeep (l : List Tag) : l.flatMap (Tag.pendingThrows id) =
      (l.filter Tag.isThrows).flatMap (Tag.pendingThrows id) := by
    induction l with
    | nil => rfl
    | cons t l ih =>
      rw [List.flatMap_cons, ih, List.filter_cons]
      split
      · rfl
      · rename_i hother
        have hnone : t.pendingThrows id = [] := by
          unfold Tag.isThrows at hother
          unfold Tag.pendingThrows
          cases hbody : t.body with
          | throws => rw [hbody] at hother; exact absurd rfl hother
          | _ => rfl
        rw [hnone]
        rfl
  rw [hkeep, h.throws, ← hkeep]

end Reordered

/-- Tags in another order leave the same contexts, and the same exceptions to be done. The same is
reported about them, in another order. -/
theorem Resolver.bind_reordered {r : Resolver} {id : Nat} {row : ContextRow}
    {tags others : List Tag} (hrow : r.table.rows[id]? = some row)
    (h : Reordered row.frame tags others) :
    r.bind id tags = { r.bind id others with reports := (r.bind id tags).reports } ∧
      (r.bind id tags).reports.Perm (r.bind id others).reports := by
  let p := r.front id row
  obtain ⟨⟨hheard, hremarks⟩, hheard', hremarks'⟩ := h.heard_eq (p := p)
  have hrows := TagFront.foldl_tell_reordered (p := p) h r.table.rows
  rw [bind_eq hrow, bind_eq hrow, hheard, hheard', hremarks, hremarks', hrows, h.described,
    h.pendingThrows]
  exact ⟨rfl, (h.perm.flatMap_right _).append_left r.reports⟩

/-- The tags of a function the other way round. -/
theorem Resolver.bind_reordered_reverse :
    let parameter (name id : String) : Context := {
      kind := .parameter, name := .parse name, id
      detail := .parameter { mode := .input, nocopy := false, type := "NUMBER", default := none } }
    let f : Context := {
      kind := .function, name := .parse "f", id := "F-1"
      detail := .method (some { type := "NUMBER" }) "FUNCTION f(a NUMBER, b NUMBER)" [] }
    let row : ContextRow := { context := f, children := [1, 2], members := [1, 2] }
    let r : Resolver := {
      warnOrphans := true
      table := { rows := [row, { context := parameter "a" "F-1.A" },
        { context := parameter "b" "F-1.B" }] } }
    let tags := (parseComment
      "/** @param b second\n@return sum\n@see g\n@param a first\n@throws e\n@param c none */").tags
    r.table.rows[0]? = some row ∧ Reordered row.frame tags tags.reverse ∧
      (r.bind 0 tags).table = (r.bind 0 tags.reverse).table ∧
      (r.bind 0 tags).scopes = (r.bind 0 tags.reverse).scopes ∧
      (r.bind 0 tags).reports.Perm (r.bind 0 tags.reverse).reports := by
  intro parameter f row r tags
  have hrow : r.table.rows[0]? = some row := rfl
  have hreverse {q : Tag → Bool} (h : (tags.filter q).length ≤ 1) :
      tags.filter q = tags.reverse.filter q := by
    rw [List.filter_reverse]
    cases hfilter : tags.filter q with
    | nil => rfl
    | cons t more =>
      rw [hfilter] at h
      cases more with
      | nil => rfl
      | cons => simp at h
  have h : Reordered row.frame tags tags.reverse := {
    written := fun t ht => ⟨_, _, ht⟩
    perm := tags.reverse_perm.symm
    descriptions := hreverse (by decide +kernel)
    throws := hreverse (by decide +kernel)
    kept := hreverse (by decide +kernel)
    returns := by decide +kernel
    params := by decide +kernel }
  obtain ⟨hsame, hreports⟩ := Resolver.bind_reordered hrow h
  exact ⟨hrow, h, by rw [hsame], by rw [hsame], hreports⟩

end SqlDoc

/-
# Tags in front of a context

What a tag does depends on the rows of the table only by what no tag changes: kinds, names, and
which contexts are inside which (`TagFront`). So all tags in front of a context are bound against
the same: each is repeated or heard, a tag that is heard tells one context something or is
complained about, and what is told is told in the order of the tags (`foldl_bindTag`, `bind_eq`).

Key definitions: `Told`, `TagFront`, `TagFront.told?`, `TagFront.repeats?`, `TagFront.heard`.
Key theorems: `ContextRow.frame_modifyContext`, `bindTag_eq`, `foldl_bindTag`, `bind_eq`.
-/
import SqlDoc.Proofs.Context.Closing

namespace SqlDoc

/-- Of two elements that give the same value, where all values differ, there is but one. -/
theorem eq_of_nodup_filterMap {α β : Type} {f : α → Option β} {l : List α}
    (h : (l.filterMap f).Nodup) {a b : α} (ha : a ∈ l) (hb : b ∈ l) {x : β} (hax : f a = some x)
    (hbx : f b = some x) : a = b := by
  induction l with
  | nil => cases ha
  | cons c l ih =>
    rw [List.filterMap_cons] at h
    have hrest : (l.filterMap f).Nodup := by
      split at h
      · exact h
      · exact (List.nodup_cons.1 h).2
    have hfirst (d : α) (hd : d ∈ l) (hdx : f d = some x) : f c ≠ some x := by
      intro hcx
      rw [hcx] at h
      exact (List.nodup_cons.1 h).1 (List.mem_filterMap.2 ⟨d, hd, hdx⟩)
    rcases List.mem_cons.1 ha with hac | ha
    · rcases List.mem_cons.1 hb with hbc | hb
      · rw [hac, hbc]
      · exact absurd (hac ▸ hax) (hfirst b hb hbx)
    · rcases List.mem_cons.1 hb with hbc | hb
      · exact absurd (hbc ▸ hbx) (hfirst a ha hax)
      · exact ih hrest ha hb

/-! ### What tags tell -/

/-- The context says that it is a method with a result. -/
def Context.hasResult (c : Context) : Bool :=
  match c.detail with
  | .method (some _) .. => true
  | _ => false

/-- What a tag tells a context. -/
inductive Told where
  /-- The tag, which is kept with the context. -/
  | kept (tag : Tag)
  /-- What the result of a method is, and its datatype. -/
  | result (text : String) (type : Option String)
  /-- What a parameter, a field or an attribute is. -/
  | param (doc : ParamDoc)

/-- The context that has been told. -/
def Told.apply : Told → Context → Context
  | kept tag, c => { c with annotations := c.annotations ++ [tag] }
  | result text type, c =>
    match c.detail with
    | .method (some returns) signature modifiers =>
      { c with
        detail := .method (some { returns with description := text, docType := type }) signature
          modifiers }
    | _ => c
  | param doc, c => doc.apply c

/-- What a named `@param` tag says. -/
def Tag.paramDoc? (t : Tag) : Option ParamDoc :=
  match t.body with
  | .param (some name) type default isOptional =>
    some { name, text := t.text, type := type.map (·.text), default, isOptional }
  | _ => none

/-- A named `@param` tag has a name, and says what it says. -/
theorem Tag.body_of_paramDoc? {t : Tag} {doc : ParamDoc} (h : t.paramDoc? = some doc) :
    ∃ type, t.body = .param (some doc.name) type doc.default doc.isOptional := by
  unfold paramDoc? at h
  split at h
  · rename_i hbody
    cases h
    exact ⟨_, hbody⟩
  · cases h

/-- What a tag adds to the description of the context. -/
def Tag.described? (t : Tag) : Option String :=
  if t.isDescription ∧ t.text ≠ "" then some t.text else none

/-! ### What decides about tags -/

/-- What of a row decides about tags. No tag changes it. -/
structure RowFrame where
  kind : ContextKind
  name : Name
  /-- What `@param` tags in front of the context are about. -/
  noun : Option String
  hasResult : Bool
  children : List Nat
  members : List Nat
  deriving DecidableEq

/-- What of the row decides about tags. -/
def ContextRow.frame (row : ContextRow) : RowFrame where
  kind := row.context.kind
  name := row.context.name
  noun := row.context.targetNoun?
  hasResult := row.context.hasResult
  children := row.children
  members := row.members

/-- A tag in front of the context is kept with it as it is. -/
def RowFrame.keeps (f : RowFrame) (t : Tag) : Bool :=
  match t.body with
  | .param .. => f.noun.isNone
  | .returns _ => !f.kind.isMethod
  | .link .. | .visibility _ | .generic => true
  | .description | .throws _ => false

/-- What the tags in front of a context are bound against. -/
structure TagFront where
  frames : List RowFrame
  /-- The number of the context. -/
  id : Nat
  /-- What of its own row decides. -/
  own : RowFrame
  warnOrphans : Bool

namespace TagFront

variable (p : TagFront)

/-- The contexts that a `@param` tag may be about. -/
def targets : List Nat :=
  if p.own.noun = some "attribute" then
    p.own.children.filter fun id => (p.frames[id]?).any (·.kind = .attributeDecl)
  else p.own.members

/-- The context that a `@param` tag of the name is about. -/
def target? (name : Name) : Option Nat :=
  p.targets.find? fun id => (p.frames[id]?).any (·.name.sameBase name)

/-- What a tag tells, and the number of the context that it tells it. -/
def told? (t : Tag) : Option (Nat × Told) :=
  match t.body with
  | .param .. =>
    if p.own.noun.isNone then some (p.id, .kept t)
    else t.paramDoc?.bind fun doc => (p.target? doc.name).map fun id => (id, .param doc)
  | .returns type =>
    if !p.own.kind.isMethod then some (p.id, .kept t)
    else if p.own.hasResult then some (p.id, .result t.text (type.map (·.text))) else none
  | .link .. | .visibility _ | .generic => some (p.id, .kept t)
  | .description | .throws _ => none

/-- What a tag tells the context with the number `id`. -/
def toldTo? (id : Nat) (t : Tag) : Option Told :=
  (p.told? t).bind fun (target, told) => if target = id then some told else none

/-- What is wrong with a tag that has nothing to bind to. -/
def complaint? (t : Tag) : Option String :=
  match t.body with
  | .param name .. =>
    p.own.noun.bind fun noun =>
      match name with
      | none => some "`@param` without a name"
      | some name =>
        if (p.target? name).isSome then none
        else some s!"`@param {name.display}` matches no {noun} of `{p.own.name.display}`"
  | .returns _ =>
    if p.own.kind.isMethod && !p.own.hasResult then
      some s!"`@return` on `{p.own.name.display}`, which returns nothing"
    else none
  | .throws none => some "`@throws` without a name"
  | _ => none

/-- What an earlier tag was about that the tag is about, if there was one. `b` is what earlier tags
have come to. -/
def repeats? (b : Resolver.Bound) (t : Tag) : Option String :=
  match t.body with
  | .param (some name) .. =>
    if p.own.noun.isSome && b.named.contains name.display then some s!"`@param {name.display}`"
    else none
  | .returns _ => if p.own.kind.isMethod && b.returned then some "`@return`" else none
  | _ => none

/-- What tags have come to after one more that is heard. -/
def after (b : Resolver.Bound) (t : Tag) : Resolver.Bound :=
  match t.body with
  | .description =>
    if t.text = "" then b else { b with descriptions := b.descriptions ++ [t.text] }
  | .param (some name) .. =>
    if p.own.noun.isSome then { b with named := name.display :: b.named } else b
  | .returns _ => if p.own.kind.isMethod then { b with returned := true } else b
  | _ => b

/-- The rows when what a tag tells has been told. -/
def tell (rows : List ContextRow) (t : Tag) : List ContextRow :=
  (p.told? t).elim rows fun (id, told) => rows.modify id (·.modifyContext told.apply)

/-- What is reported about a tag that repeats what an earlier one was about. -/
def duplicate (t : Tag) (what : String) : Diagnostic :=
  .warning .duplicateTag s!"duplicate {what} ignored" (some t.span.start)

/-- What is reported about a tag that is heard. -/
def complaints (t : Tag) : List Diagnostic :=
  if p.warnOrphans then
    (p.complaint? t).toList.map fun message => .warning .orphanTag message (some t.span.start)
  else []

/-- What earlier tags have come to after one more. -/
def pass (b : Resolver.Bound) (t : Tag) : Resolver.Bound :=
  if (p.repeats? b t).isSome then b else p.after b t

/-- The tags that repeat nothing. -/
def heard (b : Resolver.Bound) : List Tag → List Tag
  | [] => []
  | t :: more =>
    (if (p.repeats? b t).isSome then [] else [t]) ++ heard (p.pass b t) more

/-- What is reported about tags. -/
def remarks (b : Resolver.Bound) : List Tag → List Diagnostic
  | [] => []
  | t :: more =>
    (p.repeats? b t).elim (p.complaints t) (fun what => [duplicate t what])
      ++ remarks (p.pass b t) more

variable {p}

/-- A named `@param` tag tells what it says to the context that its name is about. -/
theorem told?_param (hnoun : p.own.noun.isSome) {t : Tag} {doc : ParamDoc}
    (hdoc : t.paramDoc? = some doc) :
    p.told? t = (p.target? doc.name).map fun id => (id, .param doc) := by
  obtain ⟨type, hbody⟩ := Tag.body_of_paramDoc? hdoc
  have hnone : p.own.noun.isNone = false := by
    rw [← Option.not_isSome, hnoun]
    rfl
  rw [told?, hbody, hdoc]
  simp [hnone]

/-- What a tag can tell: itself to the context in front of which it stands, what the result of that
context is, or what a context is that its name is about. -/
theorem told?_cases {t : Tag} {target : Nat} {told : Told} (h : p.told? t = some (target, told)) :
    (p.own.keeps t ∧ target = p.id ∧ told = .kept t) ∨
    (∃ type, t.body = .returns type ∧ target = p.id ∧
      told = .result t.text (type.map (·.text))) ∨
    ∃ doc, t.paramDoc? = some doc ∧ p.own.noun.isSome ∧ p.target? doc.name = some target ∧
      told = .param doc := by
  unfold told? at h
  unfold RowFrame.keeps
  cases hbody : t.body with
  | param name type default isOptional =>
    rw [hbody] at h
    dsimp only at h ⊢
    split at h
    · cases h
      exact .inl ⟨‹_›, rfl, rfl⟩
    · rename_i hnoun
      obtain ⟨doc, hdoc, h⟩ := Option.bind_eq_some_iff.1 h
      obtain ⟨found, hfound, h⟩ := Option.map_eq_some_iff.1 h
      cases h
      exact .inr (.inr ⟨doc, hdoc, by simpa [Option.isSome_iff_ne_none] using hnoun, hfound, rfl⟩)
  | returns type =>
    rw [hbody] at h
    dsimp only at h ⊢
    split at h
    · cases h
      exact .inl ⟨‹_›, rfl, rfl⟩
    · split at h
      · cases h
        exact .inr (.inl ⟨type, rfl, rfl, rfl⟩)
      · cases h
  | link | visibility | generic =>
    rw [hbody] at h
    cases h
    exact .inl ⟨rfl, rfl, rfl⟩
  | description | throws => rw [hbody] at h; cases h

/-- A context is told what the tags tell it, one after the other. -/
theorem getElem?_foldl_tell (heard : List Tag) (rows : List ContextRow) (id : Nat) :
    (heard.foldl p.tell rows)[id]? = (rows[id]?).map fun row =>
      row.modifyContext fun c =>
        (heard.filterMap (p.toldTo? id)).foldl (fun c told => told.apply c) c := by
  induction heard generalizing rows with
  | nil =>
    show rows[id]? = _
    cases rows[id]? <;> rfl
  | cons t more ih =>
    rw [List.foldl_cons, ih, List.filterMap_cons]
    unfold tell toldTo?
    cases p.told? t with
    | none => rfl
    | some q =>
      obtain ⟨target, told⟩ := q
      rw [Option.elim_some, List.getElem?_modify, Option.bind_some]
      by_cases htarget : target = id
      · cases rows[id]? <;> simp [htarget, ContextRow.modifyContext]
      · cases rows[id]? <;> simp [htarget]

end TagFront

/-! ### What tags do not change -/

theorem Told.sameForm (told : Told) (c : Context) : SameForm c (told.apply c) := by
  cases told with
  | kept => exact ⟨rfl, rfl, rfl, rfl, rfl, rfl, rfl⟩
  | result text type =>
    rw [apply]
    split
    · exact (TaggedBy.returned (t := default) ‹_› _).sameForm
    · exact .refl c
  | param doc => exact sameForm_apply doc c

theorem Told.hasResult_apply (told : Told) (c : Context) :
    (told.apply c).hasResult = c.hasResult := by
  cases told with
  | kept => rfl
  | result text type =>
    rw [apply]
    split
    · rename_i hdetail
      rw [Context.hasResult, Context.hasResult, hdetail]
    · rfl
  | param doc =>
    rw [apply, ParamDoc.apply]
    split
    · rename_i hdetail
      rw [Context.hasResult, Context.hasResult, hdetail]
    · rfl

/-- What a context is told does not change what decides about tags. -/
theorem ContextRow.frame_modifyContext (told : Told) (row : ContextRow) :
    (row.modifyContext told.apply).frame = row.frame := by
  have hform := told.sameForm row.context
  have hresult := told.hasResult_apply row.context
  unfold frame modifyContext
  rw [hform.kind, hform.name, hform.noun, hresult]

theorem TagFront.frames_tell (p : TagFront) (rows : List ContextRow) (t : Tag) :
    (p.tell rows t).map (·.frame) = rows.map (·.frame) := by
  unfold tell
  cases p.told? t with
  | none => rfl
  | some q =>
    refine List.ext_getElem? fun i => ?_
    simp only [Option.elim_some, List.getElem?_map, List.getElem?_modify]
    split
    · cases rows[i]? <;> simp [ContextRow.frame_modifyContext]
    · simp

namespace Resolver

/-- What the tags in front of the context of a row are bound against. -/
def front (r : Resolver) (id : Nat) (row : ContextRow) : TagFront where
  frames := r.table.rows.map (·.frame)
  id
  own := row.frame
  warnOrphans := r.warnOrphans

variable {r : Resolver} {id : Nat} {row : ContextRow}

theorem any_frame (r : Resolver) (row : ContextRow) (id target : Nat)
    (q : ContextKind → Name → Bool) :
    ((r.front id row).frames[target]?).any (fun f => q f.kind f.name) =
      (r.context? target).any fun c => q c.kind c.name := by
  unfold front context?
  rw [List.getElem?_map, Option.any_map, Option.any_map]
  rfl

theorem paramTargets?_front (r : Resolver) (id : Nat) (row : ContextRow) :
    r.paramTargets? row =
      (r.front id row).own.noun.map fun noun => ((r.front id row).targets, noun) := by
  have hany (target : Nat) : ((r.front id row).frames[target]?).any (·.kind = .attributeDecl) =
      (r.context? target).any (·.kind = .attributeDecl) :=
    r.any_frame row id target fun kind _ => kind = .attributeDecl
  unfold paramTargets? TagFront.targets
  simp only [hany]
  show _ = Option.map _ row.context.targetNoun?
  have hnoun : (r.front id row).own.noun = row.context.targetNoun? := rfl
  rw [hnoun]
  unfold Context.targetNoun?
  cases row.context.detail with
  | method | record => rfl
  | _ =>
    by_cases hkind : row.context.kind = .objectType
    · simp [hkind, front, ContextRow.frame]
    · simp [hkind]

theorem find?_targets_front (r : Resolver) (id : Nat) (row : ContextRow) (name : Name) :
    (r.front id row).targets.find? (fun target => (r.context? target).any (·.name.sameBase name)) =
      (r.front id row).target? name := by
  unfold TagFront.target?
  congr 1
  funext target
  exact (r.any_frame row id target fun _ n => n.sameBase name).symm

/-! ### One tag -/

/-- Where resolving has come to when tags have changed the rows to `rows`, leave `pending` to be
done, and `reports` are reported about them. -/
def carry (r : Resolver) (rows : List ContextRow) (pending : List PendingThrows)
    (reports : List Diagnostic) : Resolver :=
  { r with
    table := { r.table with rows }
    scopes := r.scopes.modifyHead (.await pending)
    reports := r.reports ++ reports }

theorem carry_nothing (r : Resolver) : r.carry r.table.rows [] [] = r := by
  rw [carry, modifyHead_await_nil, List.append_nil]

theorem carry_rows (r : Resolver) (target : Nat) (f : Context → Context) :
    r.carry (r.table.rows.modify target (·.modifyContext f)) [] [] = r.modifyContext target f := by
  rw [carry, modifyHead_await_nil, List.append_nil]
  rfl

theorem carry_reports (r : Resolver) (reports : List Diagnostic) :
    r.carry r.table.rows [] reports = r.report reports := by
  rw [carry, modifyHead_await_nil]
  rfl

theorem carry_carry (r : Resolver) (rows others : List ContextRow) (p q : List PendingThrows)
    (reports more : List Diagnostic) :
    (r.carry rows p reports).carry others q more = r.carry others (p ++ q) (reports ++ more) := by
  unfold carry
  rw [modifyHead_await_await, List.append_assoc]

/-- What a tag that is heard comes to. -/
def heardAs (r : Resolver) (p : TagFront) (b : Bound) (t : Tag) : Bound × Resolver :=
  (p.after b t, r.carry (p.tell r.table.rows t) (t.pendingThrows p.id) (p.complaints t))

/-- What a tag comes to: it repeats an earlier one, or it is heard. -/
def taggedBy (r : Resolver) (p : TagFront) (b : Bound) (t : Tag) : Bound × Resolver :=
  match p.repeats? b t with
  | some what => (b, r.duplicate t what)
  | none => r.heardAs p b t

section

variable {p : TagFront} {b : Bound} {t : Tag}

theorem taggedBy_repeated {what : String} (h : p.repeats? b t = some what) :
    r.taggedBy p b t = (b, r.duplicate t what) := by
  rw [taggedBy, h]

theorem taggedBy_heard (h : p.repeats? b t = none) : r.taggedBy p b t = r.heardAs p b t := by
  rw [taggedBy, h]

theorem complaints_eq_nil (h : p.complaint? t = none) : p.complaints t = [] := by
  rw [TagFront.complaints, h]
  exact ite_self _

/-- A tag that tells something leaves nothing to be done. -/
theorem heardAs_told {target : Nat} {told : Told} (htold : p.told? t = some (target, told))
    (hcomplaint : p.complaint? t = none) (hpending : t.pendingThrows p.id = []) :
    r.heardAs p b t = (p.after b t, r.modifyContext target told.apply) := by
  rw [heardAs, hpending, complaints_eq_nil hcomplaint, TagFront.tell, htold, Option.elim_some,
    carry_rows]

/-- A tag that is complained about leaves nothing to be done. -/
theorem heardAs_complaint {message : String} (htold : (r.front id row).told? t = none)
    (hcomplaint : (r.front id row).complaint? t = some message)
    (hpending : t.pendingThrows id = []) :
    r.heardAs (r.front id row) b t = ((r.front id row).after b t, r.orphan t message) := by
  have horphan : r.report ((r.front id row).complaints t) = r.orphan t message := by
    rw [TagFront.complaints, hcomplaint, orphan]
    show report r (if r.warnOrphans then _ else _) = _
    split
    · rfl
    · rw [report, List.append_nil]
  rw [heardAs, show t.pendingThrows (r.front id row).id = [] from hpending, TagFront.tell, htold,
    Option.elim_none, carry_reports, horphan]

end

/-- A change of a context is known by what it makes of it. -/
theorem modifyContext_congr (hrow : r.table.rows[id]? = some row) {f g : Context → Context}
    (h : f row.context = g row.context) : r.modifyContext id f = r.modifyContext id g := by
  have hrows : r.table.rows.modify id (·.modifyContext f) =
      r.table.rows.modify id (·.modifyContext g) := by
    refine List.ext_getElem? fun i => ?_
    rw [List.getElem?_modify, List.getElem?_modify]
    by_cases hi : id = i
    · rw [← hi, hrow]
      simp [ContextRow.modifyContext, h]
    · simp [hi]
  unfold modifyContext modifyRow
  rw [hrows]

/-- A `@return` tag is bound against what is in front. -/
theorem bindReturn_front (hrow : r.table.rows[id]? = some row) (b : Bound) {t : Tag}
    {type : Option DocExpr} (hbody : t.body = .returns type) :
    r.bindReturn id row b t (type.map (·.text)) = r.taggedBy (r.front id row) b t := by
  let p := r.front id row
  have hid : p.id = id := rfl
  have hkind : p.own.kind = row.context.kind := rfl
  have hname : p.own.name = row.context.name := rfl
  have hresult : p.own.hasResult = row.context.hasResult := rfl
  have hpending : t.pendingThrows p.id = [] := by rw [Tag.pendingThrows, hbody]
  unfold bindReturn
  cases hmethod : row.context.kind.isMethod with
  | false =>
    have hrepeats : p.repeats? b t = none := by simp [TagFront.repeats?, hbody, hkind, hmethod]
    have htold : p.told? t = some (id, .kept t) := by
      simp [TagFront.told?, hbody, hkind, hmethod, hid]
    have hcomplaint : p.complaint? t = none := by simp [TagFront.complaint?, hbody, hkind, hmethod]
    have hafter : p.after b t = b := by simp [TagFront.after, hbody, hkind, hmethod]
    rw [taggedBy_heard hrepeats, heardAs_told htold hcomplaint hpending, hafter]
    rfl
  | true =>
    have hafter : p.after b t = { b with returned := true } := by
      simp [TagFront.after, hbody, hkind, hmethod]
    cases hreturned : b.returned with
    | true =>
      have hrepeats : p.repeats? b t = some "`@return`" := by
        simp [TagFront.repeats?, hbody, hkind, hmethod, hreturned]
      rw [taggedBy_repeated hrepeats]
      rfl
    | false =>
      have hrepeats : p.repeats? b t = none := by simp [TagFront.repeats?, hbody, hreturned]
      rw [taggedBy_heard hrepeats, if_neg (by simp), if_neg (by simp)]
      dsimp only
      split
      · rename_i returns signature modifiers hdetail
        have hsome : row.context.hasResult := by rw [Context.hasResult, hdetail]
        have htold : p.told? t = some (id, .result t.text (type.map (·.text))) := by
          simp [TagFront.told?, hbody, hkind, hmethod, hresult, hsome, hid]
        have hcomplaint : p.complaint? t = none := by
          simp [TagFront.complaint?, hbody, hresult, hsome]
        rw [heardAs_told htold hcomplaint hpending, hafter]
        refine congrArg (Prod.mk _) (modifyContext_congr hrow ?_)
        rw [Told.apply, hdetail]
      · rename_i hdetail
        have hnone : row.context.hasResult = false := by
          unfold Context.hasResult
          split
          · exact absurd ‹_› (hdetail _ _ _)
          · rfl
        have htold : p.told? t = none := by
          simp [TagFront.told?, hbody, hkind, hmethod, hresult, hnone]
        have hcomplaint : p.complaint? t =
            some s!"`@return` on `{row.context.name.display}`, which returns nothing" := by
          simp [TagFront.complaint?, hbody, hkind, hmethod, hresult, hnone, hname]
        rw [heardAs_complaint htold hcomplaint hpending, hafter]

/-- A `@param` tag is bound against what is in front. -/
theorem bindParam_front (b : Bound) {t : Tag} {name : Option Name} {type : Option DocExpr}
    {default : Option String} {isOptional : Bool}
    (hbody : t.body = .param name type default isOptional) :
    r.bindParam id row b t name
        (fun name => { name, text := t.text, type := type.map (·.text), default, isOptional }) =
      r.taggedBy (r.front id row) b t := by
  let p := r.front id row
  have hid : p.id = id := rfl
  have hname : p.own.name = row.context.name := rfl
  have hpending : t.pendingThrows p.id = [] := by rw [Tag.pendingThrows, hbody]
  unfold bindParam
  rw [r.paramTargets?_front id row]
  cases hnoun : p.own.noun with
  | none =>
    have hrepeats : p.repeats? b t = none := by
      cases name <;> simp [TagFront.repeats?, hbody, hnoun]
    have htold : p.told? t = some (id, .kept t) := by
      simp [TagFront.told?, hbody, hnoun, hid]
    have hcomplaint : p.complaint? t = none := by simp [TagFront.complaint?, hbody, hnoun]
    have hafter : p.after b t = b := by cases name <;> simp [TagFront.after, hbody, hnoun]
    rw [taggedBy_heard hrepeats, heardAs_told htold hcomplaint hpending, hafter]
    rfl
  | some noun =>
    rw [Option.map_some]
    dsimp only
    cases name with
    | none =>
      have hrepeats : p.repeats? b t = none := by simp [TagFront.repeats?, hbody]
      have htold : p.told? t = none := by simp [TagFront.told?, hbody, hnoun, Tag.paramDoc?]
      have hcomplaint : p.complaint? t = some "`@param` without a name" := by
        simp [TagFront.complaint?, hbody, hnoun]
      have hafter : p.after b t = b := by simp [TagFront.after, hbody]
      rw [taggedBy_heard hrepeats, heardAs_complaint htold hcomplaint hpending, hafter]
    | some name =>
      dsimp only
      have hafter : p.after b t = { b with named := name.display :: b.named } := by
        simp [TagFront.after, hbody, hnoun]
      split
      · rename_i hnamed
        have hrepeats : p.repeats? b t = some s!"`@param {name.display}`" := by
          simp only [TagFront.repeats?, hbody, hnoun, hnamed]
          rfl
        rw [taggedBy_repeated hrepeats]
      · rename_i hnamed
        have hrepeats : p.repeats? b t = none := by
          simp only [TagFront.repeats?, hbody, hnoun, hnamed]
          rfl
        rw [find?_targets_front r id row, taggedBy_heard hrepeats]
        cases htarget : p.target? name with
        | none =>
          have htold : p.told? t = none := by
            simp [TagFront.told?, hbody, hnoun, Tag.paramDoc?, htarget]
          have hcomplaint : p.complaint? t = some
              s!"`@param {name.display}` matches no {noun} of `{row.context.name.display}`" := by
            simp [TagFront.complaint?, hbody, hnoun, htarget, hname]
          rw [heardAs_complaint htold hcomplaint hpending, hafter]
        | some target =>
          have htold : p.told? t = some (target, .param
              { name, text := t.text, type := type.map (·.text), default, isOptional }) := by
            simp [TagFront.told?, hbody, hnoun, Tag.paramDoc?, htarget]
          have hcomplaint : p.complaint? t = none := by
            simp [TagFront.complaint?, hbody, hnoun, htarget]
          rw [heardAs_told htold hcomplaint hpending, hafter]
          rfl

/-- A tag is bound against what is in front. -/
theorem bindTag_eq (hrow : r.table.rows[id]? = some row) (b : Bound) (t : Tag) :
    bindTag id (b, r) t = r.taggedBy (r.front id row) b t := by
  let p := r.front id row
  unfold bindTag
  dsimp only
  rw [hrow]
  dsimp only
  cases hbody : t.body with
  | description =>
    have hrepeats : p.repeats? b t = none := by rw [TagFront.repeats?, hbody]
    have htold : p.told? t = none := by rw [TagFront.told?, hbody]
    have hcomplaint : p.complaint? t = none := by rw [TagFront.complaint?, hbody]
    have hpending : t.pendingThrows p.id = [] := by rw [Tag.pendingThrows, hbody]
    rw [taggedBy_heard hrepeats, heardAs, hpending, complaints_eq_nil hcomplaint, TagFront.tell,
      htold, Option.elim_none, carry_nothing, TagFront.after, hbody]
  | returns type => exact bindReturn_front hrow b hbody
  | param name type default isOptional => exact bindParam_front b hbody
  | throws name =>
    have hrepeats : p.repeats? b t = none := by rw [TagFront.repeats?, hbody]
    have htold : p.told? t = none := by rw [TagFront.told?, hbody]
    have hafter : p.after b t = b := by rw [TagFront.after, hbody]
    rw [taggedBy_heard hrepeats]
    cases name with
    | none =>
      have hpending : t.pendingThrows p.id = [] := by rw [Tag.pendingThrows, hbody]
      have hcomplaint : p.complaint? t = some "`@throws` without a name" := by
        rw [TagFront.complaint?, hbody]
      rw [heardAs_complaint htold hcomplaint hpending, hafter]
    | some name =>
      have hcomplaint : p.complaint? t = none := by rw [TagFront.complaint?, hbody]
      have hpending : t.pendingThrows p.id =
          [{ context := id, name, description := t.text, place := t.span.start }] := by
        rw [Tag.pendingThrows, hbody]
        rfl
      rw [heardAs, hpending, complaints_eq_nil hcomplaint, TagFront.tell, htold, Option.elim_none,
        hafter, carry, List.append_nil]
      rfl
  | link | visibility | generic =>
    have hrepeats : p.repeats? b t = none := by rw [TagFront.repeats?, hbody]
    have htold : p.told? t = some (id, .kept t) := by
      rw [TagFront.told?, hbody]
      rfl
    have hafter : p.after b t = b := by rw [TagFront.after, hbody]
    have hcomplaint : p.complaint? t = none := by rw [TagFront.complaint?, hbody]
    have hpending : t.pendingThrows p.id = [] := by rw [Tag.pendingThrows, hbody]
    rw [taggedBy_heard hrepeats, heardAs_told htold hcomplaint hpending, hafter]
    rfl

/-! ### All tags -/

theorem taggedBy_eq (p : TagFront) (b : Bound) (t : Tag) :
    r.taggedBy p b t =
      (p.pass b t, r.carry ((p.heard b [t]).foldl p.tell r.table.rows) (t.pendingThrows p.id)
        (p.remarks b [t])) := by
  unfold TagFront.heard TagFront.heard TagFront.remarks TagFront.remarks TagFront.pass
  cases hrepeats : p.repeats? b t with
  | none =>
    rw [taggedBy_heard hrepeats, heardAs, Option.elim_none, List.append_nil, List.append_nil,
      Option.isSome_none, if_neg Bool.false_ne_true, if_neg Bool.false_ne_true]
    rfl
  | some what =>
    have hpending : t.pendingThrows p.id = [] := by
      unfold Tag.pendingThrows
      unfold TagFront.repeats? at hrepeats
      cases hbody : t.body with
      | throws => rw [hbody] at hrepeats; cases hrepeats
      | _ => rfl
    rw [taggedBy_repeated hrepeats, hpending]
    exact congrArg (Prod.mk b) (r.carry_reports _).symm

/-- What tags tell leaves in place what the next ones are bound against. -/
theorem front_carry {rows : List ContextRow} {found : ContextRow}
    (hrows : rows.map (·.frame) = r.table.rows.map (·.frame)) (hfound : rows[id]? = some found)
    (hrow : r.table.rows[id]? = some row) (pending : List PendingThrows)
    (reports : List Diagnostic) :
    (r.carry rows pending reports).front id found = r.front id row := by
  have hframe : (rows.map (·.frame))[id]? = (r.table.rows.map (·.frame))[id]? := by rw [hrows]
  rw [List.getElem?_map, List.getElem?_map, hfound, hrow] at hframe
  have hown : found.frame = row.frame := Option.some.inj hframe
  unfold front carry
  dsimp only
  rw [hrows, hown]

/-- Tags are bound one after the other, each against what is in front. -/
theorem foldl_bindTag (hrow : r.table.rows[id]? = some row) (b : Bound) (tags : List Tag) :
    let p := r.front id row
    tags.foldl (bindTag id) (b, r) =
      (tags.foldl p.pass b, r.carry ((p.heard b tags).foldl p.tell r.table.rows)
        (tags.flatMap (Tag.pendingThrows id)) (p.remarks b tags)) := by
  intro p
  induction tags generalizing r row b with
  | nil =>
    show (b, r) = (b, r.carry r.table.rows [] [])
    rw [carry_nothing]
  | cons t more ih =>
    let rows := (p.heard b [t]).foldl p.tell r.table.rows
    have hrows : rows.map (·.frame) = r.table.rows.map (·.frame) := by
      have hfold (heard : List Tag) (rows : List ContextRow) :
          (heard.foldl p.tell rows).map (·.frame) = rows.map (·.frame) := by
        induction heard generalizing rows with
        | nil => rfl
        | cons t heard ih => rw [List.foldl_cons, ih, TagFront.frames_tell]
      exact hfold _ _
    obtain ⟨found, hfound⟩ : ∃ found, rows[id]? = some found := by
      have hframe : (rows.map (·.frame))[id]? = some row.frame := by
        rw [hrows, List.getElem?_map, hrow]
        rfl
      rw [List.getElem?_map] at hframe
      obtain ⟨found, hfound, _⟩ := Option.map_eq_some_iff.1 hframe
      exact ⟨found, hfound⟩
    have hfront := front_carry hrows hfound hrow (t.pendingThrows id) (p.remarks b [t])
    have hmore := ih (r := r.carry rows (t.pendingThrows id) (p.remarks b [t])) hfound (p.pass b t)
    rw [hfront] at hmore
    have hheard : p.heard b (t :: more) = p.heard b [t] ++ p.heard (p.pass b t) more := by
      rw [TagFront.heard, TagFront.heard, TagFront.heard, List.append_nil]
    have hremarks : p.remarks b (t :: more) = p.remarks b [t] ++ p.remarks (p.pass b t) more := by
      rw [TagFront.remarks, TagFront.remarks, TagFront.remarks, List.append_nil]
    rw [List.foldl_cons, bindTag_eq hrow, taggedBy_eq]
    refine hmore.trans ?_
    rw [carry_carry, hheard, hremarks, List.foldl_append, List.flatMap_cons, List.foldl_cons]
    rfl

/-- The rows when the descriptions have been joined, with a blank line between each two. -/
def joinIn (id : Nat) (descriptions : List String) (rows : List ContextRow) : List ContextRow :=
  if descriptions = [] then rows
  else rows.modify id (·.modifyContext fun c =>
    { c with description := "\n\n".intercalate descriptions })

theorem descriptions_foldl_pass (p : TagFront) (b : Bound) (tags : List Tag) :
    (tags.foldl p.pass b).descriptions = b.descriptions ++ tags.filterMap Tag.described? := by
  induction tags generalizing b with
  | nil => exact (List.append_nil _).symm
  | cons t more ih =>
    have hstep : (p.pass b t).descriptions = b.descriptions ++ t.described?.toList := by
      have hafter : (p.after b t).descriptions = b.descriptions ++ t.described?.toList := by
        unfold TagFront.after Tag.described? Tag.isDescription
        cases t.body with
        | description => by_cases htext : t.text = "" <;> simp [htext]
        | param name =>
          cases name with
          | none => simp
          | some name => cases p.own.noun.isSome <;> simp
        | returns => cases p.own.kind.isMethod <;> simp
        | _ => simp
      unfold TagFront.pass
      split
      · rename_i hrepeats
        have hnone : t.described? = none := by
          unfold Tag.described? Tag.isDescription
          unfold TagFront.repeats? at hrepeats
          cases hbody : t.body with
          | description => rw [hbody] at hrepeats; cases hrepeats
          | _ => simp
        rw [hnone]
        exact (List.append_nil _).symm
      · exact hafter
    rw [List.foldl_cons, ih, hstep, List.filterMap_cons, List.append_assoc]
    cases t.described? <;> rfl

/-- The tags in front of a context tell what they have to tell, leave their exceptions to be done,
and their descriptions are joined. -/
theorem bind_eq (hrow : r.table.rows[id]? = some row) (tags : List Tag) :
    let p := r.front id row
    r.bind id tags =
      r.carry (joinIn id (tags.filterMap Tag.described?)
          ((p.heard {} tags).foldl p.tell r.table.rows))
        (tags.flatMap (Tag.pendingThrows id)) (p.remarks {} tags) := by
  intro p
  have hdescriptions := descriptions_foldl_pass p {} tags
  rw [List.nil_append] at hdescriptions
  rw [bind, foldl_bindTag hrow, ← hdescriptions]
  dsimp only
  unfold joinIn
  split <;> rfl

end Resolver
end SqlDoc

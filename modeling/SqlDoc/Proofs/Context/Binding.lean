/-
# Binding tags in a table

A resolver binds the tags of a context when the contexts inside it have been resolved: the row of
the context is at the place where it was put, and the rows of those inside it are at the end of the
table. Tag by tag the rows change as the binding of the tags says, but for the exceptions, which
wait for the end of the unit (`bindTag_bound`, `bind_unitRows`).

Key definitions: `TaggedBy`, `DocForest.unitRows`, `Resolver.bound`.
Key theorems: `Context.paramTargets?_eq`, `taggedBy_addTag`, `bindTag_bound`, `bind_unitRows`.
-/
import SqlDoc.Proofs.Context.Rows

namespace SqlDoc

/-! ### What parameter tags are about -/

/-- What a `@param` tag in front of a construct is about, in a word. -/
def Context.targetNoun? (c : Context) : Option String :=
  match c.detail with
  | .method .. => some "parameter"
  | .record => some "field"
  | _ => if c.kind = .objectType then some "attribute" else none

/-- What tags leave of a context: what decides about the tags in front of it, and what it is called
and declared to be. -/
structure SameForm (c d : Context) : Prop where
  kind : d.kind = c.kind
  name : d.name = c.name
  noun : d.targetNoun? = c.targetNoun?
  hasMembers : d.detail.hasMembers = c.detail.hasMembers
  codes : d.codes? = c.codes?
  id : d.id = c.id
  definition : d.definition? = c.definition?

namespace SameForm

theorem refl (c : Context) : SameForm c c := ⟨rfl, rfl, rfl, rfl, rfl, rfl, rfl⟩

theorem trans {c d e : Context} (h1 : SameForm c d) (h2 : SameForm d e) : SameForm c e where
  kind := h2.kind.trans h1.kind
  name := h2.name.trans h1.name
  noun := h2.noun.trans h1.noun
  hasMembers := h2.hasMembers.trans h1.hasMembers
  codes := h2.codes.trans h1.codes
  id := h2.id.trans h1.id
  definition := h2.definition.trans h1.definition

end SameForm

/-- A method or a record is no object type. -/
def Context.WellFormed (c : Context) : Prop :=
  c.detail.hasMembers → c.kind ≠ .objectType

theorem DocForest.isTargetOf_objectType {c : Context} (h : c.kind = .objectType) (d : Context) :
    isTargetOf c d = decide (d.kind = .attributeDecl) := by
  rw [isTargetOf, h]
  rfl

theorem DocForest.isTargetOf_other {c : Context} (h : c.kind ≠ .objectType) (d : Context) :
    isTargetOf c d = true := by
  simp [isTargetOf, h]

theorem Context.paramTargets?_eq {c : Context} (hc : c.WellFormed) (inside : List Context) :
    c.paramTargets? inside = c.targetNoun?.map fun noun =>
      { noun, names := (inside.filter (DocForest.isTargetOf c)).map (·.name) } := by
  have hall (h : c.kind ≠ .objectType) : inside.filter (DocForest.isTargetOf c) = inside :=
    List.filter_eq_self.2 fun d _ => DocForest.isTargetOf_other h d
  have hattributes : (if c.kind = .objectType then
      some { noun := "attribute", names := (inside.filter (·.kind = .attributeDecl)).map (·.name) }
      else none : Option ParamTargets) =
      (if c.kind = .objectType then some "attribute" else none).map fun noun =>
        { noun, names := (inside.filter (DocForest.isTargetOf c)).map (·.name) } := by
    split
    · rename_i hkind
      rw [Option.map_some, funext (DocForest.isTargetOf_objectType hkind)]
    · rfl
  unfold paramTargets? targetNoun?
  unfold WellFormed at hc
  cases hd : c.detail with
  | method | record =>
    rw [hd] at hc
    rw [Option.map_some, hall (hc rfl)]
  | _ => exact hattributes

/-- What a tag that names no exception makes of a context. -/
inductive TaggedBy (t : Tag) (c : Context) : Context → Prop
  | same : TaggedBy t c c
  | annotated : TaggedBy t c { c with annotations := c.annotations ++ [t] }
  | returned {returns : ReturnDoc} {signature : String} {modifiers : List String}
      (h : c.detail = .method (some returns) signature modifiers) (told : ReturnDoc) :
      TaggedBy t c { c with detail := .method (some told) signature modifiers }

theorem TaggedBy.sameForm {t : Tag} {c d : Context} (h : TaggedBy t c d) : SameForm c d := by
  cases h with
  | same => exact .refl c
  | annotated => exact ⟨rfl, rfl, rfl, rfl, rfl, rfl, rfl⟩
  | returned hdetail told =>
    refine ⟨rfl, rfl, ?_, ?_, ?_, rfl, ?_⟩
    · rw [Context.targetNoun?, Context.targetNoun?, hdetail]
    · rw [hdetail]
      exact (rfl : true = true)
    · rw [Context.codes?, Context.codes?, hdetail]
    · rw [Context.definition?, Context.definition?, hdetail]

theorem TaggedBy.throws {t : Tag} {c d : Context} (h : TaggedBy t c d) : d.throws = c.throws := by
  cases h <;> rfl

/-- A tag that names no exception reports nothing late. -/
theorem taggedBy_addTag (scope : BindingScope) (targets : Option ParamTargets) (b : Binding)
    {t : Tag} (ht : ∀ name, t.body ≠ .throws (some name)) :
    TaggedBy t b.owner (b.addTag scope targets t).owner ∧
      (b.addTag scope targets t).reports.late = b.reports.late := by
  have hwarn (b : Binding) (code : Code) (message : String) :
      TaggedBy t b.owner (b.warn code message t).owner ∧
        (b.warn code message t).reports.late = b.reports.late :=
    ⟨.same, List.append_nil _⟩
  have horphan (b : Binding) (message : String) :
      TaggedBy t b.owner (b.orphan scope t message).owner ∧
        (b.orphan scope t message).reports.late = b.reports.late := by
    unfold Binding.orphan
    split
    · exact hwarn ..
    · exact ⟨.same, rfl⟩
  unfold Binding.addTag
  cases hbody : t.body with
  | description =>
    dsimp only
    unfold Binding.addDescription
    split <;> exact ⟨.same, rfl⟩
  | param name type default isOptional =>
    cases targets with
    | none => exact ⟨.annotated, rfl⟩
    | some targets =>
      cases name with
      | none => exact horphan ..
      | some name =>
        dsimp only
        unfold Binding.addParam
        split
        · exact hwarn ..
        · dsimp only
          split
          · exact ⟨.same, rfl⟩
          · exact horphan { b with named := name.display :: b.named } _
  | returns type =>
    dsimp only
    unfold Binding.addReturn
    split
    · exact ⟨.annotated, rfl⟩
    · split
      · exact hwarn ..
      · dsimp only
        split
        · exact ⟨.returned ‹_› _, rfl⟩
        · exact horphan { b with returned := true } _
  | throws name =>
    cases name with
    | none => exact horphan ..
    | some name => exact absurd hbody (ht name)
  | link | visibility | generic => exact ⟨.annotated, rfl⟩

/-- Tags change neither what a context is nor what there is to be told about it. -/
theorem sameForm_addTag (scope : BindingScope) (targets : Option ParamTargets) (b : Binding)
    (t : Tag) : SameForm b.owner (b.addTag scope targets t).owner := by
  by_cases ht : ∃ name, t.body = .throws (some name)
  · obtain ⟨name, hbody⟩ := ht
    rw [Binding.addTag, hbody]
    exact ⟨rfl, rfl, rfl, rfl, rfl, rfl, rfl⟩
  · exact (taggedBy_addTag scope targets b (not_exists.1 ht)).1.sameForm

theorem sameForm_bindTags (scope : BindingScope) (c : Context) (inside : List Context)
    (tags : List Tag) : SameForm c (bindTags scope c inside tags).owner := by
  have hfold (b : Binding) : SameForm b.owner
      (tags.foldl (Binding.addTag scope (c.paramTargets? inside)) b).owner := by
    induction tags generalizing b with
    | nil => exact .refl _
    | cons t tags ih => exact (sameForm_addTag ..).trans (ih _)
  have hbound := hfold { owner := c }
  unfold bindTags Binding.finish
  split
  · exact hbound
  · exact hbound.trans ⟨rfl, rfl, rfl, rfl, rfl, rfl, rfl⟩

/-! ### The rows of a context and of those inside it -/

/-- The context without the exceptions that it raises. They come when the unit ends. -/
def Context.withoutThrows (c : Context) : Context :=
  { c with throws := [] }

/-- The row of the context without exceptions. -/
def ContextRow.withoutThrows (row : ContextRow) : ContextRow :=
  row.modifyContext Context.withoutThrows

/-- The rows of a context that has the number `next` and of those inside it. -/
def DocForest.unitRows (parent : Option Nat) (next : Nat) (c : Context) (inside : DocForest) :
    List ContextRow :=
  c.row parent (inside.topIds (next + 1)) :: inside.rows (some next) (next + 1)

/-- What is inside a context when the tags have been bound. -/
def Binding.describeInside (b : Binding) (c : Context) (inside : DocForest) : DocForest :=
  b.docs.foldl (fun f doc => f.describe (DocForest.isTargetOf c) doc) inside

/-- The tags change the contexts inside one at a time, each where it is found first: what such a
change keeps is kept when all tags have been bound. -/
theorem Binding.describeInside_induction {P : DocForest → Prop}
    (hstep : ∀ (q : Context → Bool) (doc : ParamDoc) (f : DocForest), P f →
      P (f.modifyFirst q doc.apply))
    (b : Binding) (c : Context) {inside : DocForest} (h : P inside) :
    P (b.describeInside c inside) := by
  unfold describeInside
  induction b.docs generalizing inside with
  | nil => exact h
  | cons doc docs ih =>
    rw [List.foldl_cons, DocForest.describe_eq]
    exact ih (hstep _ doc inside h)

/-- What such a change leaves as it is stays so. -/
theorem Binding.describeInside_congr {β : Type} {g : DocForest → β}
    (hstep : ∀ (q : Context → Bool) (doc : ParamDoc) (f : DocForest),
      g (f.modifyFirst q doc.apply) = g f)
    (b : Binding) (c : Context) (inside : DocForest) : g (b.describeInside c inside) = g inside :=
  b.describeInside_induction (P := (g · = g inside)) (fun q doc f h => (hstep q doc f).trans h) c
    rfl

/-- What may be done before or after one tag may be done before or after all of them. -/
theorem Binding.describeInside_comm {g : DocForest → DocForest} {b other : Binding}
    {c d : Context} (hdocs : other.docs = b.docs)
    (hstep : ∀ (doc : ParamDoc) (f : DocForest),
      (g f).describe (DocForest.isTargetOf d) doc = g (f.describe (DocForest.isTargetOf c) doc))
    (inside : DocForest) : other.describeInside d (g inside) = g (b.describeInside c inside) := by
  unfold describeInside
  rw [hdocs]
  induction b.docs generalizing inside with
  | nil => rfl
  | cons doc docs ih => rw [List.foldl_cons, List.foldl_cons, hstep, ih]

@[simp] theorem Binding.topIds_describeInside (b : Binding) (c : Context) (inside : DocForest)
    (next : Nat) : (b.describeInside c inside).topIds next = inside.topIds next :=
  b.describeInside_congr (g := (·.topIds next)) (fun _ _ _ => DocForest.topIds_modifyFirst ..) c
    inside

@[simp] theorem Binding.contextCount_describeInside (b : Binding) (c : Context)
    (inside : DocForest) : (b.describeInside c inside).contextCount = inside.contextCount :=
  DocForest.contextCount_foldl_describe ..

/-- A site that has a context, and those after it, with their tags bound. -/
theorem DocForest.bind_some (scope : BindingScope) (site : Site) (c : Context)
    (inside rest : DocForest) :
    (node site (some c) inside rest).bind scope =
      let bound := bindTags scope c (inside.bind scope).1.topContexts site.tags
      (node site (some bound.owner) (bound.describeInside c (inside.bind scope).1)
        (rest.bind scope).1,
        ({ now := site.reports } : Reports) ++ (inside.bind scope).2 ++ bound.reports
          ++ (rest.bind scope).2) :=
  rfl

/-- What a tag leaves to be done at the end of the unit. -/
def Tag.pendingThrows (id : Nat) (t : Tag) : List PendingThrows :=
  match t.body with
  | .throws (some name) =>
    [{ context := id, name, description := t.text, place := t.span.start }]
  | _ => []

namespace Resolver

/-- Where resolving has come to when the tags of the context `c` after the rows `before` have been
bound as `b` says, and `pending` is left to be done. -/
def bound (r : Resolver) (before : List ContextRow) (parent : Option Nat) (c : Context)
    (inside : DocForest) (b : Binding) (pending : List PendingThrows) : Resolver :=
  { r with
    table := { r.table with
      rows := before ++ ((b.describeInside c inside).unitRows parent before.length b.owner).map
        ContextRow.withoutThrows }
    scopes := r.scopes.modifyHead fun s => { s with pending := s.pending ++ pending }
    reports := r.reports ++ b.reports.now }

variable {r : Resolver} {before : List ContextRow} {parent : Option Nat} {c : Context}
  {inside : DocForest} {b : Binding} {pending : List PendingThrows}

theorem getElem?_bound :
    (r.bound before parent c inside b pending).table.rows[before.length]? =
      some (b.owner.row parent (inside.topIds (before.length + 1))).withoutThrows := by
  show (before ++ _)[before.length]? = _
  rw [List.getElem?_append_right (Nat.le_refl _), Nat.sub_self, DocForest.unitRows,
    Binding.topIds_describeInside]
  rfl

/-- The contexts inside are found under their numbers. -/
theorem context?_bound {id : Nat} {d : Context}
    (h : (id, d) ∈ (b.describeInside c inside).tops (before.length + 1)) :
    (r.bound before parent c inside b pending).context? id =
      some ({ d with parent := some before.length } : Context).withoutThrows := by
  let head := (b.owner.row parent ((b.describeInside c inside).topIds
    (before.length + 1))).withoutThrows
  have hbefore : (before ++ [head]).length = before.length + 1 := by simp
  obtain ⟨row, hrow, hcontext⟩ : ∃ row : ContextRow, (before ++ [head] ++
      ((b.describeInside c inside).rows (some before.length) (before.length + 1)).map
        ContextRow.withoutThrows)[id]? = some row.withoutThrows ∧
      row.context = { d with parent := some before.length } :=
    DocForest.getElem?_rows_tops hbefore h _
  have hrows : (r.bound before parent c inside b pending).table.rows[id]? =
      some row.withoutThrows := by
    rw [← hrow, List.append_assoc]
    rfl
  rw [context?, hrows, Option.map_some, ← hcontext]
  rfl

/-- The contexts that a `@param` tag may be about, with their numbers. -/
def targets (before : List ContextRow) (c : Context) (inside : DocForest) (b : Binding) :
    List (Nat × Context) :=
  ((b.describeInside c inside).tops (before.length + 1)).filter fun p => DocForest.isTargetOf c p.2

theorem paramTargets?_bound (hc : c.WellFormed) (hb : SameForm c b.owner) :
    (r.bound before parent c inside b pending).paramTargets?
        (b.owner.row parent (inside.topIds (before.length + 1))).withoutThrows =
      c.targetNoun?.map fun noun => ((targets before c inside b).map (·.1), noun) := by
  have hids : inside.topIds (before.length + 1) =
      ((b.describeInside c inside).tops (before.length + 1)).map (·.1) :=
    (b.topIds_describeInside c inside _).symm
  have hall (h : c.kind ≠ .objectType) : targets before c inside b =
      (b.describeInside c inside).tops (before.length + 1) :=
    List.filter_eq_self.2 fun p _ => DocForest.isTargetOf_other h p.2
  have hmembers (h : b.owner.detail.hasMembers) :
      (b.owner.row parent (inside.topIds (before.length + 1))).members =
        (targets before c inside b).map (·.1) := by
    have hkind : c.kind ≠ .objectType := hc (hb.hasMembers ▸ h)
    rw [Context.row, if_pos h, hall hkind, hids]
  have hattributes (h : c.kind = .objectType) :
      (inside.topIds (before.length + 1)).filter (fun id =>
        ((r.bound before parent c inside b pending).context? id).any (·.kind = .attributeDecl)) =
        (targets before c inside b).map (·.1) := by
    rw [hids, List.filter_map, targets]
    congr 1
    refine List.filter_congr fun p hp => ?_
    rw [Function.comp, context?_bound hp, DocForest.isTargetOf_objectType h]
    rfl
  rw [← hb.noun, Context.targetNoun?]
  unfold paramTargets?
  show (match b.owner.detail with | .method .. => _ | .record => _ | _ => _) = _
  cases hd : b.owner.detail with
  | method | record =>
    have hmembers := hmembers (by rw [hd]; rfl)
    exact congrArg (fun ids => some (ids, _)) hmembers
  | _ =>
    show (if b.owner.kind = .objectType then _ else _) = Option.map _ (if _ then _ else _)
    split
    · rename_i hkind
      exact congrArg (fun ids => some (ids, _)) (hattributes (hb.kind.symm.trans hkind))
    · rfl

/-! ### One tag -/

/-- What has been met so far. -/
def marks (b : Binding) : Bound where
  descriptions := b.descriptions
  named := b.named
  returned := b.returned

theorem marks_orphan (b : Binding) (scope : BindingScope) (t : Tag) (message : String) :
    marks (b.orphan scope t message) = marks b := by
  unfold Binding.orphan
  split <;> rfl

/-- A context that is changed changes its row. -/
theorem bound_modifyContext {f : Context → Context}
    (hf : f ({ b.owner with parent } : Context).withoutThrows =
      ({ f b.owner with parent } : Context).withoutThrows)
    (hmembers : (f b.owner).detail.hasMembers = b.owner.detail.hasMembers) :
    (r.bound before parent c inside b pending).modifyContext before.length f =
      r.bound before parent c inside { b with owner := f b.owner } pending := by
  have hrow (ids : List Nat) : (b.owner.row parent ids).withoutThrows.modifyContext f =
      ((f b.owner).row parent ids).withoutThrows := by
    unfold Context.row ContextRow.withoutThrows ContextRow.modifyContext
    rw [hmembers]
    exact congrArg (ContextRow.mk · _ _) hf
  unfold bound modifyContext modifyRow
  dsimp only
  rw [DocForest.unitRows, List.map_cons, modify_at_length, hrow]
  rfl

theorem bound_report (reports : List Diagnostic) :
    (r.bound before parent c inside b pending).report reports =
      r.bound before parent c inside { b with reports := b.reports ++ { now := reports } }
        pending := by
  unfold report bound
  dsimp only
  rw [List.append_assoc]
  rfl

theorem bound_annotate (t : Tag) :
    (r.bound before parent c inside b pending).annotate before.length t =
      r.bound before parent c inside (b.annotate t) pending :=
  bound_modifyContext rfl rfl

theorem bound_duplicate (t : Tag) (what : String) :
    (r.bound before parent c inside b pending).duplicate t what =
      r.bound before parent c inside (b.duplicate t what) pending :=
  bound_report _

theorem bound_orphan {scope : BindingScope} (hwarn : r.warnOrphans = scope.warnOrphans) (t : Tag)
    (message : String) :
    (r.bound before parent c inside b pending).orphan t message =
      r.bound before parent c inside (b.orphan scope t message) pending := by
  unfold orphan Binding.orphan
  show (if r.warnOrphans then _ else _) = _
  rw [hwarn]
  split
  · exact bound_report _
  · rfl

theorem bound_pending (more : List PendingThrows) :
    (r.bound before parent c inside b pending).modifyScope
        (fun s => { s with pending := s.pending ++ more }) =
      r.bound before parent c inside b (pending ++ more) := by
  unfold modifyScope bound
  dsimp only
  rw [List.modifyHead_modifyHead]
  simp only [Function.comp_def, List.append_assoc]

/-- An exception is neither in the table nor reported before the unit ends. -/
theorem bound_addThrows (scope : BindingScope) (t : Tag) (name : Name) :
    r.bound before parent c inside (b.addThrows scope t name) pending =
      r.bound before parent c inside b pending := by
  have hnow : (b.addThrows scope t name).reports.now = b.reports.now := List.append_nil _
  unfold bound
  rw [hnow]
  rfl

/-- What a tag says about a context inside changes its row. -/
theorem bound_describe {doc : ParamDoc} {id : Nat} {d : Context}
    (h : (targets before c inside b).find? (·.2.name.sameBase doc.name) = some (id, d)) :
    (r.bound before parent c inside b pending).modifyContext id doc.apply =
      r.bound before parent c inside { b with docs := b.docs ++ [doc] } pending := by
  rw [targets, List.find?_filter] at h
  simp only [Bool.decide_and, Bool.decide_eq_true] at h
  let ids := (b.describeInside c inside).topIds (before.length + 1)
  have hbefore : (before ++ [(b.owner.row parent ids).withoutThrows]).length =
      before.length + 1 := by simp
  have hg (row : ContextRow) : (row.modifyContext doc.apply).withoutThrows =
      row.withoutThrows.modifyContext doc.apply := by
    exact congrArg (ContextRow.mk · _ _) (doc.apply_throws row.context []).symm
  have hrows : (_ ++ List.map _ (DocForest.rows (some before.length) _ _)).modify _ _ = _ :=
    DocForest.rows_modifyFirst (p := fun d => DocForest.isTargetOf c d && d.name.sameBase doc.name)
      doc.modifyContext_row hg hbefore h
  rw [← DocForest.describe_eq] at hrows
  have hdocs : ({ b with docs := b.docs ++ [doc] } : Binding).describeInside c inside =
      (b.describeInside c inside).describe (DocForest.isTargetOf c) doc := by
    rw [Binding.describeInside, Binding.describeInside, List.foldl_append]
    rfl
  unfold bound modifyContext modifyRow
  dsimp only
  rw [hdocs, DocForest.unitRows, DocForest.unitRows, List.map_cons, List.map_cons]
  rw [List.append_assoc, List.append_assoc] at hrows
  rw [DocForest.describe_eq, DocForest.topIds_modifyFirst, ← DocForest.describe_eq]
  exact congrArg (fun rows => ({ r with
    table := { r.table with rows }
    scopes := r.scopes.modifyHead fun s => { s with pending := s.pending ++ pending }
    reports := r.reports ++ b.reports.now } : Resolver)) hrows

/-- The first context that a name can be about is the one that is found. -/
theorem find?_targets (name : Name) :
    ((targets before c inside b).map (·.1)).find? (fun id =>
      ((r.bound before parent c inside b pending).context? id).any (·.name.sameBase name)) =
      ((targets before c inside b).find? (·.2.name.sameBase name)).map (·.1) := by
  rw [List.find?_map, ← List.head?_filter, ← List.head?_filter]
  congr 2
  refine List.filter_congr fun p hp => ?_
  rw [Function.comp, context?_bound (List.mem_filter.1 hp).1]
  rfl

variable {scope : BindingScope}

/-- A name is one of those that there are if a context of the name is found. -/
theorem any_sameBase (l : List (Nat × Context)) (name : Name) :
    (l.map (·.2.name)).any (·.sameBase name) = (l.find? (·.2.name.sameBase name)).isSome := by
  rw [List.any_map, Bool.eq_iff_iff, List.any_eq_true, List.find?_isSome]
  rfl

/-- A `@param` tag is bound as it says. -/
theorem bindParam_bound (hc : c.WellFormed) (hb : SameForm c b.owner)
    (hwarn : r.warnOrphans = scope.warnOrphans) {params : Option ParamTargets}
    (hparams : params = c.targetNoun?.map fun noun =>
      { noun, names := (targets before c inside b).map (·.2.name) })
    {t : Tag} {name : Option Name} {type : Option DocExpr} {default : Option String}
    {isOptional : Bool} (hbody : t.body = .param name type default isOptional) :
    (r.bound before parent c inside b pending).bindParam before.length
        (b.owner.row parent (inside.topIds (before.length + 1))).withoutThrows (marks b) t name
        (fun name => { name, text := t.text, type := type.map (·.text), default, isOptional }) =
      (marks (b.addTag scope params t),
        r.bound before parent c inside (b.addTag scope params t) pending) := by
  unfold bindParam Binding.addTag
  rw [paramTargets?_bound hc hb, hbody, hparams]
  dsimp only
  cases c.targetNoun? with
  | none => exact congrArg (Prod.mk (marks b)) (bound_annotate t)
  | some noun =>
    rw [Option.map_some, Option.map_some]
    cases name with
    | none =>
      rw [marks_orphan]
      exact congrArg (Prod.mk _) (bound_orphan hwarn t _)
    | some name =>
      dsimp only
      unfold Binding.addParam
      rw [find?_targets, any_sameBase]
      show (if b.named.contains name.display then _ else _) = _
      split
      · exact congrArg (Prod.mk (marks b)) (bound_duplicate t _)
      · cases hfind : (targets before c inside b).find? (·.2.name.sameBase name) with
        | none =>
          rw [Option.map_none, Option.isSome_none, if_neg Bool.false_ne_true, marks_orphan]
          exact congrArg (Prod.mk _)
            (bound_orphan (b := { b with named := name.display :: b.named }) hwarn t _)
        | some p =>
          rw [Option.map_some, Option.isSome_some, if_pos rfl]
          exact congrArg (Prod.mk _) (bound_describe hfind)

/-- A `@return` tag is bound as it says. -/
theorem bindReturn_bound (hwarn : r.warnOrphans = scope.warnOrphans)
    (t : Tag) (type : Option String) (ids : List Nat) :
    (r.bound before parent c inside b pending).bindReturn before.length
        (b.owner.row parent ids).withoutThrows (marks b) t type =
      (marks (b.addReturn scope t type),
        r.bound before parent c inside (b.addReturn scope t type) pending) := by
  unfold bindReturn Binding.addReturn
  show (if !b.owner.kind.isMethod then _ else _) = _
  split
  · exact congrArg (Prod.mk (marks b)) (bound_annotate t)
  · show (if b.returned then _ else _) = _
    split
    · exact congrArg (Prod.mk (marks b)) (bound_duplicate t _)
    · have hnothing : ({ marks b with returned := true },
          (r.bound before parent c inside b pending).orphan t
            s!"`@return` on `{b.owner.name.display}`, which returns nothing") =
          (marks (({ b with returned := true } : Binding).orphan scope t
            s!"`@return` on `{b.owner.name.display}`, which returns nothing"),
          r.bound before parent c inside (({ b with returned := true } : Binding).orphan scope t
            s!"`@return` on `{b.owner.name.display}`, which returns nothing") pending) := by
        rw [marks_orphan]
        exact congrArg (Prod.mk _) (bound_orphan (b := { b with returned := true }) hwarn t _)
      have hdetail : (b.owner.row parent ids).withoutThrows.context.detail = b.owner.detail := rfl
      rw [hdetail]
      dsimp only
      cases hd : b.owner.detail with
      | method returns signature modifiers =>
        cases returns with
        | none => exact hnothing
        | some returns =>
          refine congrArg (Prod.mk _)
            (bound_modifyContext (b := { b with returned := true }) rfl ?_)
          rw [hd]
          exact (rfl : true = true)
      | _ => exact hnothing

/-- A tag is bound as it says. An exception is left to the end of the unit. -/
theorem bindTag_bound (hc : c.WellFormed) (hb : SameForm c b.owner)
    (hwarn : r.warnOrphans = scope.warnOrphans) {params : Option ParamTargets}
    (hparams : params = c.targetNoun?.map fun noun =>
      { noun, names := (targets before c inside b).map (·.2.name) }) (t : Tag) :
    bindTag before.length (marks b, r.bound before parent c inside b pending) t =
      (marks (b.addTag scope params t), r.bound before parent c inside (b.addTag scope params t)
        (pending ++ t.pendingThrows before.length)) := by
  unfold bindTag
  dsimp only
  rw [getElem?_bound]
  unfold Tag.pendingThrows
  dsimp only
  cases hbody : t.body with
  | description =>
    rw [List.append_nil, Binding.addTag, hbody]
    dsimp only
    unfold Binding.addDescription
    by_cases htext : t.text = ""
    · rw [if_pos htext, if_pos htext]
    · rw [if_neg htext, if_neg htext]
      rfl
  | param name type default isOptional =>
    rw [List.append_nil]
    exact bindParam_bound hc hb hwarn hparams hbody
  | returns type =>
    rw [List.append_nil, Binding.addTag, hbody]
    exact bindReturn_bound hwarn t _ _
  | throws name =>
    rw [Binding.addTag, hbody]
    cases name with
    | none =>
      rw [List.append_nil]
      dsimp only
      rw [marks_orphan]
      exact congrArg (Prod.mk _) (bound_orphan hwarn t _)
    | some name =>
      exact congrArg (Prod.mk (marks b)) ((bound_pending _).trans (bound_addThrows ..).symm)
  | link | visibility | generic =>
    rw [List.append_nil, Binding.addTag, hbody]
    exact congrArg (Prod.mk (marks b)) (bound_annotate t)

/-! ### All tags -/

/-- A tag leaves what the next ones may be about as it is. -/
theorem names_targets (b : Binding) :
    (targets before c inside b).map (·.2.name) =
      ((inside.tops (before.length + 1)).filter fun p => DocForest.isTargetOf c p.2).map
        (·.2.name) := by
  rw [targets, ← List.filterMap_eq_map, List.filterMap_filter, List.filterMap_filter]
  refine b.describeInside_congr (g := fun f => (f.tops (before.length + 1)).filterMap _)
    (fun q doc f => DocForest.filterMap_tops_modifyFirst (fun id d => ?_) f _) c inside
  simp [DocForest.isTargetOf]

theorem bindTags_bound (hc : c.WellFormed) (hb : SameForm c b.owner)
    (hwarn : r.warnOrphans = scope.warnOrphans) (tags : List Tag) :
    tags.foldl (bindTag before.length) (marks b, r.bound before parent c inside b pending) =
      let bound := tags.foldl (Binding.addTag scope (c.paramTargets? inside.topContexts)) b
      (marks bound, r.bound before parent c inside bound
        (pending ++ tags.flatMap (Tag.pendingThrows before.length))) := by
  induction tags generalizing b pending with
  | nil => rw [List.foldl_nil, List.flatMap_nil, List.append_nil]; rfl
  | cons t tags ih =>
    have hparams : c.paramTargets? inside.topContexts = c.targetNoun?.map fun noun =>
        { noun, names := (targets before c inside b).map (·.2.name) } := by
      rw [Context.paramTargets?_eq hc, names_targets, ← DocForest.map_snd_tops inside
        (before.length + 1), List.filter_map, List.map_map]
      rfl
    rw [List.foldl_cons, bindTag_bound hc hb hwarn hparams t,
      ih (hb.trans (sameForm_addTag ..)), List.flatMap_cons, List.append_assoc]
    rfl

/-- Binding the tags of a context changes its row and those of the contexts inside it as the binding
says, and leaves the exceptions to the end of the unit. -/
theorem bind_unitRows (hc : c.WellFormed) (hwarn : r.warnOrphans = scope.warnOrphans)
    (hrows : r.table.rows = before ++ (inside.unitRows parent before.length c).map
      ContextRow.withoutThrows) (tags : List Tag) :
    r.bind before.length tags =
      r.bound before parent c inside (bindTags scope c inside.topContexts tags)
        (tags.flatMap (Tag.pendingThrows before.length)) := by
  have hstart : r = r.bound before parent c inside { owner := c } [] := by
    have hscope : (fun s : UnitScope => { s with pending := s.pending ++ [] }) = id := by
      funext s
      rw [List.append_nil]
      rfl
    unfold bound
    rw [hscope, List.modifyHead_id]
    show r = { r with
      table := { r.table with
        rows := before ++ (inside.unitRows parent before.length c).map ContextRow.withoutThrows }
      reports := r.reports ++ [] }
    rw [← hrows, List.append_nil]
  have hfold : tags.foldl (bindTag before.length) ({}, r) =
      let bound := tags.foldl (Binding.addTag scope (c.paramTargets? inside.topContexts))
        { owner := c }
      (marks bound, r.bound before parent c inside bound
        ([] ++ tags.flatMap (Tag.pendingThrows before.length))) :=
    (congrArg (fun r => tags.foldl (bindTag before.length) ({}, r)) hstart).trans
      (bindTags_bound (b := { owner := c }) hc (.refl c) hwarn tags)
  unfold bind bindTags
  rw [hfold]
  dsimp only
  generalize tags.foldl (Binding.addTag scope (c.paramTargets? inside.topContexts))
    { owner := c } = bound
  unfold Binding.finish
  show (if bound.descriptions = [] then _ else _) = _
  split
  · rfl
  · exact bound_modifyContext rfl rfl

end Resolver
end SqlDoc

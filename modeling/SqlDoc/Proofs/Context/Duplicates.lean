/-
# Tags about one parameter

A `@param` tag is taken for one about what an earlier tag was about if both names are displayed
alike, but it tells the parameter that has the same unqualified name. So every tag tells its
parameter that displays a name for the first time, and every other is reported (`bind_params`). Only
where names that are displayed alike are those with the same unqualified part is a parameter told by
one tag at most: `@param a` and `@param x.a` both tell it (`resolveAll_paramTwice`).

Key definitions: `Tag.isParamOf`, `freshParams`, `staleParams`, `ParamsAlike`.
Key theorems: `filter_freshParams`, `filter_heard`, `filter_remarks`, `context?_bind`,
`bind_params`.
-/
import SqlDoc.Proofs.Context.Tagging

namespace SqlDoc

/-! ### Names that have been displayed -/

/-- The tag is a `@param` tag about a parameter of the name. -/
def Tag.isParamOf (name : Name) (t : Tag) : Bool :=
  t.paramDoc?.any fun doc => name.sameBase doc.name

/-- The `@param` tags that display a name for the first time, the names `named` having been
displayed. -/
def freshParams (named : List String) : List Tag → List Tag
  | [] => []
  | t :: more =>
    match t.paramDoc? with
    | none => freshParams named more
    | some doc =>
      if named.contains doc.name.display then freshParams named more
      else t :: freshParams (doc.name.display :: named) more

/-- The `@param` tags that display a name again, the names `named` having been displayed. -/
def staleParams (named : List String) : List Tag → List Tag
  | [] => []
  | t :: more =>
    match t.paramDoc? with
    | none => staleParams named more
    | some doc =>
      if named.contains doc.name.display then t :: staleParams named more
      else staleParams (doc.name.display :: named) more

/-- Where the tags about one parameter are those that display `shown`, the first of them is fresh
and the others are stale. -/
theorem filter_freshParams {name : Name} {shown : String} {tags : List Tag}
    (h : ∀ t ∈ tags, ∀ doc ∈ t.paramDoc?, name.sameBase doc.name = (doc.name.display == shown))
    (named : List String) :
    (freshParams named tags).filter (·.isParamOf name) =
        (if shown ∈ named then [] else (tags.filter (·.isParamOf name)).take 1) ∧
      (staleParams named tags).filter (·.isParamOf name) =
        (tags.filter (·.isParamOf name)).drop (if shown ∈ named then 0 else 1) := by
  induction tags generalizing named with
  | nil => simp [freshParams, staleParams]
  | cons t more ih =>
    obtain ⟨ht, hmore⟩ := List.forall_mem_cons.1 h
    rw [freshParams, staleParams]
    cases hdoc : t.paramDoc? with
    | none =>
      have hother : t.isParamOf name = false := by rw [Tag.isParamOf, hdoc]; rfl
      rw [List.filter_cons_of_neg (by simp [hother])]
      exact ih hmore named
    | some doc =>
      have hmatch : t.isParamOf name = (doc.name.display == shown) := by
        rw [Tag.isParamOf, hdoc, Option.any_some]
        exact ht doc hdoc
      dsimp only
      by_cases hshown : doc.name.display = shown
      · have ht : t.isParamOf name := by rw [hmatch, hshown, beq_self_eq_true]
        rw [List.filter_cons_of_pos ht]
        by_cases hnamed : shown ∈ named
        · obtain ⟨hfresh, hstale⟩ := ih hmore named
          simp [hshown, hnamed, ht, hfresh, hstale]
        · obtain ⟨hfresh, hstale⟩ := ih hmore (doc.name.display :: named)
          rw [hshown] at hfresh hstale
          simp [hshown, hnamed, ht, hfresh, hstale]
      · have ht : t.isParamOf name = false := by rw [hmatch, beq_eq_false_iff_ne]; exact hshown
        rw [List.filter_cons_of_neg (by simp [ht])]
        by_cases hnamed : doc.name.display ∈ named
        · obtain ⟨hfresh, hstale⟩ := ih hmore named
          simp [hnamed, ht, hfresh, hstale]
        · obtain ⟨hfresh, hstale⟩ := ih hmore (doc.name.display :: named)
          have hsame : shown ∈ doc.name.display :: named ↔ shown ∈ named := by
            simp [Ne.symm hshown]
          simp only [hsame] at hfresh hstale
          simp [hnamed, ht, hfresh, hstale]

theorem freshParams_sublist (named : List String) (tags : List Tag) :
    (freshParams named tags).Sublist tags := by
  induction tags generalizing named with
  | nil => exact .slnil
  | cons t more ih =>
    rw [freshParams]
    split
    · exact (ih named).cons t
    · split
      · exact (ih named).cons t
      · exact (ih _).cons_cons t

theorem staleParams_sublist (named : List String) (tags : List Tag) :
    (staleParams named tags).Sublist tags := by
  induction tags generalizing named with
  | nil => exact .slnil
  | cons t more ih =>
    rw [staleParams]
    split
    · exact (ih named).cons t
    · split
      · exact (ih named).cons_cons t
      · exact (ih _).cons t

/-- In the tags it is the same for two names to be displayed alike and to have the same unqualified
part. -/
def ParamsAlike (tags : List Tag) : Prop :=
  ∀ s ∈ tags, ∀ t ∈ tags, ∀ d ∈ s.paramDoc?, ∀ e ∈ t.paramDoc?,
    d.name.sameBase e.name = (d.name.display == e.name.display)

/-- Then the first tag about a parameter is fresh, and the others are stale. -/
theorem ParamsAlike.filter {tags : List Tag} (h : ParamsAlike tags) (name : Name) :
    (freshParams [] tags).filter (·.isParamOf name) = (tags.filter (·.isParamOf name)).take 1 ∧
      (staleParams [] tags).filter (·.isParamOf name) =
        (tags.filter (·.isParamOf name)).drop 1 := by
  cases hfirst : tags.filter (·.isParamOf name) with
  | nil =>
    have hfresh := (freshParams_sublist [] tags).filter (·.isParamOf name)
    have hstale := (staleParams_sublist [] tags).filter (·.isParamOf name)
    rw [hfirst] at hfresh hstale
    exact ⟨List.sublist_nil.1 hfresh, List.sublist_nil.1 hstale⟩
  | cons s more =>
    obtain ⟨hs, hparam⟩ := List.mem_filter.1 (hfirst ▸ List.mem_cons_self : s ∈ tags.filter _)
    obtain ⟨d, hd, hname⟩ := (Option.any_eq_true _ _).1 hparam
    have hlast : name.last = d.name.last := beq_iff_eq.1 hname
    have hshown : ∀ t ∈ tags, ∀ doc ∈ t.paramDoc?,
        name.sameBase doc.name = (doc.name.display == d.name.display) := fun t ht doc hdoc => by
      have hsame := h s hs t ht d hd doc hdoc
      rw [Bool.beq_comm, ← hsame, Name.sameBase, hlast]
      rfl
    rw [← hfirst]
    exact filter_freshParams hshown []

/-! ### What a parameter is told -/

namespace TagFront

variable {p : TagFront} {b : Resolver.Bound} {t : Tag} {doc : ParamDoc}

theorem repeats?_param (hnoun : p.own.noun.isSome) (hdoc : t.paramDoc? = some doc) :
    p.repeats? b t =
      if doc.name.display ∈ b.named then some s!"`@param {doc.name.display}`" else none := by
  obtain ⟨type, hbody⟩ := Tag.body_of_paramDoc? hdoc
  simp [repeats?, hbody, hnoun]

theorem pass_named (hnoun : p.own.noun.isSome) (hdoc : t.paramDoc? = some doc) :
    (p.pass b t).named =
      if doc.name.display ∈ b.named then b.named else doc.name.display :: b.named := by
  obtain ⟨type, hbody⟩ := Tag.body_of_paramDoc? hdoc
  rw [pass, repeats?_param hnoun hdoc]
  by_cases hnamed : doc.name.display ∈ b.named <;> simp [hnamed, after, hbody, hnoun]

theorem pass_other (hdoc : t.paramDoc? = none) : (p.pass b t).named = b.named := by
  unfold pass
  split
  · rfl
  · unfold after
    cases hbody : t.body with
    | param name =>
      cases name with
      | none => rfl
      | some name => rw [Tag.paramDoc?, hbody] at hdoc; cases hdoc
    | description => dsimp only; split <;> rfl
    | returns => dsimp only; split <;> rfl
    | _ => rfl

/-- Of the `@param` tags about a context those are heard that display a name for the first time. -/
theorem filter_heard (hnoun : p.own.noun.isSome) (name : Name) (b : Resolver.Bound)
    (tags : List Tag) :
    (p.heard b tags).filter (·.isParamOf name) =
      (freshParams b.named tags).filter (·.isParamOf name) := by
  induction tags generalizing b with
  | nil => rfl
  | cons t more ih =>
    rw [heard, freshParams, List.filter_append, ih]
    cases hdoc : t.paramDoc? with
    | none =>
      have hother : t.isParamOf name = false := by rw [Tag.isParamOf, hdoc]; rfl
      rw [pass_other hdoc]
      split <;> simp [hother]
    | some doc =>
      rw [pass_named hnoun hdoc, repeats?_param hnoun hdoc]
      by_cases hnamed : doc.name.display ∈ b.named
      · simp [hnamed]
      · simp [hnamed, List.filter_cons]
        split <;> rfl

end TagFront

/-- The report is about a `@param` tag that repeats an earlier one. -/
def Diagnostic.isStaleParam (d : Diagnostic) : Bool :=
  d.code = .duplicateTag && d.message ≠ "duplicate `@return` ignored"

/-- What is reported about a `@param` tag that repeats an earlier one. -/
def Tag.staleReport (t : Tag) : Diagnostic :=
  TagFront.duplicate t (t.paramDoc?.elim "" fun doc => s!"`@param {doc.name.display}`")

namespace TagFront

variable {p : TagFront}

theorem repeats?_other (b : Resolver.Bound) {t : Tag} (hdoc : t.paramDoc? = none) :
    p.repeats? b t = none ∨ p.repeats? b t = some "`@return`" := by
  unfold repeats?
  cases hbody : t.body with
  | param name =>
    cases name with
    | none => exact .inl rfl
    | some name => rw [Tag.paramDoc?, hbody] at hdoc; cases hdoc
  | returns =>
    dsimp only
    split
    · exact .inr rfl
    · exact .inl rfl
  | _ => exact .inl rfl

theorem isStaleParam_return (t : Tag) : (duplicate t "`@return`").isStaleParam = false :=
  rfl

/-- The message says what is repeated. -/
theorem isStaleParam_param (t : Tag) (name : String) :
    (duplicate t s!"`@param {name}`").isStaleParam = true :=
  rfl

/-- Every stale tag is reported, once. -/
theorem filter_remarks (hnoun : p.own.noun.isSome) (b : Resolver.Bound) (tags : List Tag) :
    (p.remarks b tags).filter (·.isStaleParam) =
      (staleParams b.named tags).map Tag.staleReport := by
  have hcomplaints (t : Tag) : (p.complaints t).filter (·.isStaleParam) = [] := by
    refine List.filter_eq_nil_iff.2 fun d hd => ?_
    unfold complaints at hd
    split at hd
    · obtain ⟨message, _, rfl⟩ := List.mem_map.1 hd
      exact Bool.false_ne_true
    · cases hd
  induction tags generalizing b with
  | nil => rfl
  | cons t more ih =>
    rw [remarks, staleParams, List.filter_append, ih]
    cases hdoc : t.paramDoc? with
    | none =>
      rw [pass_other hdoc]
      rcases p.repeats?_other b hdoc with h | h
      · rw [h, Option.elim_none, hcomplaints]
        rfl
      · rw [h, Option.elim_some, List.filter_cons_of_neg (by simp [isStaleParam_return])]
        rfl
    | some doc =>
      rw [pass_named hnoun hdoc, repeats?_param hnoun hdoc]
      by_cases hnamed : doc.name.display ∈ b.named
      · have hreport : t.staleReport = duplicate t s!"`@param {doc.name.display}`" := by
          rw [Tag.staleReport, hdoc]
          rfl
        have hkept := List.filter_cons_of_pos (l := []) (isStaleParam_param t doc.name.display)
        simp only [hnamed, if_true, Option.elim_some, hkept, List.contains_eq_mem, decide_true,
          List.map_cons, hreport]
        rfl
      · simp [hnamed, hcomplaints]

end TagFront

namespace Resolver

variable {r : Resolver} {id : Nat} {row : ContextRow}

/-- A context that is not the one in front of which the tags stand is told what they tell it. -/
theorem context?_bind (hrow : r.table.rows[id]? = some row) (tags : List Tag) {target : Nat}
    (htarget : target ≠ id) :
    (r.bind id tags).context? target = (r.context? target).map fun c =>
      (((r.front id row).heard {} tags).filterMap ((r.front id row).toldTo? target)).foldl
        (fun c told => told.apply c) c := by
  let p := r.front id row
  have hrows : (r.bind id tags).table.rows[target]? =
      ((p.heard {} tags).foldl p.tell r.table.rows)[target]? := by
    rw [bind_eq hrow]
    show (joinIn id _ _)[target]? = _
    unfold joinIn
    split
    · rfl
    · rw [List.getElem?_modify]
      simp only [if_neg htarget.symm]
      exact Option.map_id' ..
  rw [context?, hrows, TagFront.getElem?_foldl_tell, context?, Option.map_map, Option.map_map]
  rfl

/-- Where the names of parameters differ, the one that a name is about has that name. -/
theorem target?_front {returns : Option ReturnDoc} {signature : String} {modifiers : List String}
    (hmethod : row.context.detail = .method returns signature modifiers)
    (hdistinct : (row.members.filterMap fun q => (r.context? q).map (·.name.last)).Nodup)
    {target : Nat} (hmember : target ∈ row.members) {c : Context}
    (hc : r.context? target = some c) (name : Name) :
    (r.front id row).target? name = some target ↔ c.name.sameBase name := by
  have hnoun : (r.front id row).own.noun = some "parameter" := by
    show row.context.targetNoun? = _
    rw [Context.targetNoun?, hmethod]
  have htargets : (r.front id row).targets = row.members := by
    rw [TagFront.targets, hnoun]
    rfl
  rw [← find?_targets_front, htargets]
  constructor
  · intro h
    have hfound := List.find?_some h
    rw [hc, Option.any_some] at hfound
    exact hfound
  · intro h
    have hany : (r.context? target).any (·.name.sameBase name) := by
      rw [hc, Option.any_some]
      exact h
    obtain ⟨found, hfound⟩ := Option.isSome_iff_exists.1
      (List.find?_isSome (p := fun q => (r.context? q).any (·.name.sameBase name)).2
        ⟨target, hmember, hany⟩)
    rw [hfound]
    have hmatch : (r.context? found).any (·.name.sameBase name) :=
      List.find?_some (p := fun q => (r.context? q).any (·.name.sameBase name)) hfound
    obtain ⟨d, hd, hname⟩ := (Option.any_eq_true _ _).1 hmatch
    have hlast : d.name.last = c.name.last :=
      (beq_iff_eq.1 hname).trans (beq_iff_eq.1 h).symm
    have hsame : found = target :=
      eq_of_nodup_filterMap hdistinct (List.mem_of_find?_eq_some hfound) hmember
        (x := c.name.last) (by rw [hd, Option.map_some, hlast]) (by rw [hc, Option.map_some])
    rw [hsame]

/-- What a tag tells a parameter is what it says, if it is about it. -/
theorem toldTo?_front {returns : Option ReturnDoc} {signature : String} {modifiers : List String}
    (hmethod : row.context.detail = .method returns signature modifiers)
    (hdistinct : (row.members.filterMap fun q => (r.context? q).map (·.name.last)).Nodup)
    {target : Nat} (hmember : target ∈ row.members) (htarget : target ≠ id) {c : Context}
    (hc : r.context? target = some c) (t : Tag) :
    (r.front id row).toldTo? target t =
      if t.isParamOf c.name then t.paramDoc?.map .param else none := by
  let p := r.front id row
  have hnoun : p.own.noun = some "parameter" := by
    show row.context.targetNoun? = _
    rw [Context.targetNoun?, hmethod]
  unfold Tag.isParamOf TagFront.toldTo?
  cases hdoc : t.paramDoc? with
  | none =>
    cases htold : p.told? t with
    | none => rfl
    | some q =>
      have hown : q.1 = id := by
        obtain ⟨-, hown, -⟩ | ⟨-, -, hown, -⟩ | ⟨doc, hparam, -⟩ := TagFront.told?_cases htold
        · exact hown
        · exact hown
        · rw [hdoc] at hparam
          cases hparam
      simp [hown, htarget.symm]
  | some doc =>
    have hfound : (r.front id row).target? doc.name = some target ↔ c.name.sameBase doc.name :=
      target?_front hmethod hdistinct hmember hc doc.name
    rw [TagFront.told?_param (by rw [hnoun]; rfl) hdoc, Option.any_some, Option.map_some]
    by_cases hname : c.name.sameBase doc.name
    · simp [hfound.2 hname, hname]
    · have hother : p.target? doc.name ≠ some target := mt hfound.1 hname
      cases htarget : p.target? doc.name with
      | none => simp [hname]
      | some q =>
        have hne : q ≠ target := fun h => hother (by rw [htarget, h])
        simp [hname, hne]

/-- A parameter is told by the tags about it that display a name for the first time, and every
`@param` tag that displays a name again is reported, once. So if the same names are displayed alike
and have the same unqualified part, a parameter is told by the first tag about it, and the others
are reported. -/
theorem bind_params {returns : Option ReturnDoc} {signature : String} {modifiers : List String}
    (hrow : r.table.rows[id]? = some row)
    (hmethod : row.context.detail = .method returns signature modifiers)
    (hdistinct : (row.members.filterMap fun q => (r.context? q).map (·.name.last)).Nodup)
    (tags : List Tag) :
    (∀ q ∈ row.members, ∀ c info, r.context? q = some c → c.detail = .parameter info →
      (r.bind id tags).context? q = some
        (((freshParams [] tags).filter (·.isParamOf c.name)).filterMap Tag.paramDoc? |>.foldl
          (fun c doc => doc.apply c) c)) ∧
    (r.bind id tags).reports.filter (·.isStaleParam) =
      r.reports.filter (·.isStaleParam) ++ (staleParams [] tags).map Tag.staleReport ∧
    (ParamsAlike tags →
      ∀ q ∈ row.members, ∀ c info, r.context? q = some c → c.detail = .parameter info →
        (r.bind id tags).context? q =
          some (((tags.find? (·.isParamOf c.name)).bind Tag.paramDoc?).elim c (·.apply c)) ∧
        (staleParams [] tags).filter (·.isParamOf c.name) =
          (tags.filter (·.isParamOf c.name)).tail) := by
  have hnoun : (r.front id row).own.noun.isSome := by
    show (row.context.targetNoun?).isSome
    rw [Context.targetNoun?, hmethod]
    rfl
  have htold : ∀ q ∈ row.members, ∀ c info, r.context? q = some c → c.detail = .parameter info →
      (r.bind id tags).context? q = some
        (((freshParams [] tags).filter (·.isParamOf c.name)).filterMap Tag.paramDoc? |>.foldl
          (fun c doc => doc.apply c) c) := by
    intro q hq c info hc hinfo
    have hother : q ≠ id := by
      rintro rfl
      rw [context?, hrow] at hc
      rw [← Option.some.inj hc, hmethod] at hinfo
      cases hinfo
    have htells (t : Tag) : (r.front id row).toldTo? q t = _ :=
      toldTo?_front hmethod hdistinct hq hother hc t
    rw [context?_bind hrow tags hother, hc, Option.map_some, funext htells,
      ← List.filterMap_filter, TagFront.filter_heard hnoun, ← List.map_filterMap, List.foldl_map]
    rfl
  refine ⟨htold, ?_, ?_⟩
  · rw [bind_eq hrow]
    show (r.reports ++ _).filter _ = _
    rw [List.filter_append, TagFront.filter_remarks hnoun]
  · intro halike q hq c info hc hinfo
    obtain ⟨hfresh, hstale⟩ := halike.filter c.name
    rw [htold q hq c info hc hinfo, hfresh, hstale, List.drop_one, ← List.head?_filter]
    refine ⟨congrArg some ?_, rfl⟩
    cases tags.filter (·.isParamOf c.name) with
    | nil => rfl
    | cons t more => cases hdoc : t.paramDoc? <;> simp [hdoc]

/-- The second tag about the parameter of a procedure is reported. -/
theorem bind_params_again :
    let a : Context := {
      kind := .parameter, name := .parse "a", id := "F-1.A"
      detail := .parameter { mode := .input, nocopy := false, type := "NUMBER", default := none } }
    let f : Context := {
      kind := .procedure, name := .parse "f", id := "F-1"
      detail := .method none "PROCEDURE f(a NUMBER)" [] }
    let row : ContextRow := { context := f, children := [1], members := [1] }
    let r : Resolver := { warnOrphans := true, table := { rows := [row, { context := a }] } }
    let tags := (parseComment "/** @param a first\n@param [A] second */").tags
    r.table.rows[0]? = some row ∧
    (row.members.filterMap fun q => (r.context? q).map (·.name.last)).Nodup ∧
    ((r.bind 0 tags).context? 1).map (·.description) = some "first" ∧
    (r.bind 0 tags).reports.filter (·.isStaleParam) =
      [.warning .duplicateTag "duplicate `@param A` ignored" (some ⟨2, 1, none⟩)] := by
  intro a f row r tags
  have hrow : r.table.rows[0]? = some row := rfl
  have hdistinct : (row.members.filterMap fun q => (r.context? q).map (·.name.last)).Nodup := by
    decide
  obtain ⟨htold, hreports, _⟩ := bind_params hrow rfl hdistinct tags
  refine ⟨hrow, hdistinct, ?_, ?_⟩
  · rw [htold 1 List.mem_cons_self a _ rfl rfl]
    decide +kernel
  · rw [hreports]
    decide +kernel

end Resolver

/-- Both tags are about the parameter, and both tell it, for they display other names. -/
theorem resolveAll_paramTwice :
    let resolved := resolveAll (parseSql
      "CREATE PACKAGE p IS /** @param a first\n@param x.a second */ PROCEDURE f(a NUMBER); END;"
      none).trees
    ∃ f ∈ resolved.1.rows[1]?, ∃ comment ∈ resolved.1.comments, ∃ a ∈ resolved.1.rows[2]?,
      f.context.kind = .procedure ∧ f.members = [2] ∧ comment.context = some 1 ∧
      (comment.site.tags.filter (·.isParamOf a.context.name)).map (·.text) = ["first", "second"] ∧
      a.context.description = "second" ∧ resolved.2 = [] := by
  decide +kernel

end SqlDoc

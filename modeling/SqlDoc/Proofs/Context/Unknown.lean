/-
# Names that stand for nothing

The named `@throws` tags that are bound to a context wait for the end of their unit, and the name of
each is then found or reported. So the reports about `@throws` tags with a name are those about the
names that stand for nothing in their unit, one for each tag, and what contexts raise is what the
tags in front of them say (`resolveAll_throws`).

Key definitions: `Tag.unknownThrows`, `CommentRecord.unknownThrows`, `Diagnostic.isUnknownThrows`.
Key theorems: `perm_late`, `filter_resolveStatement`, `perm_resolveFrom`, `resolveAll_throws`.
-/
import SqlDoc.Proofs.Context.Throwing

namespace SqlDoc

/-! ### Reports about tags -/

/-- The report is about a `@throws` tag with a name. -/
def Diagnostic.isUnknownThrows (d : Diagnostic) : Bool :=
  d.code = .orphanTag && "`@throws ".toList.isPrefixOf d.message.toList

/-- What is reported about a tag: that it is a `@throws` tag whose name stands for nothing. -/
def Tag.unknownThrows (exceptions : List DeclaredException) (t : Tag) : List Diagnostic :=
  match t.body with
  | .throws (some name) =>
    if throwsTarget exceptions name = .unknown then
      [.warning .orphanTag s!"`@throws {name.display}` names no known exception"
        (some t.span.start)]
    else []
  | _ => []

/-- What is reported about the tags of a record, if they are bound to a context. -/
def CommentRecord.unknownThrows (exceptions : List DeclaredException) (r : CommentRecord) :
    List Diagnostic :=
  if r.context.isSome then r.site.tags.flatMap (Tag.unknownThrows exceptions) else []

theorem CommentRecord.unknownThrows_congr {exceptions others : List DeclaredException}
    (h : ∀ name, throwsTarget exceptions name = throwsTarget others name) (r : CommentRecord) :
    r.unknownThrows exceptions = r.unknownThrows others := by
  have htag : Tag.unknownThrows exceptions = Tag.unknownThrows others := by
    funext t
    simp only [Tag.unknownThrows, h]
  rw [unknownThrows, htag, unknownThrows]

/-- What is reported about the tags that wait is reported about tags whose names stand for
nothing. -/
theorem flatMap_reports_pendingThrows (scope : BindingScope) (id : Nat) (tags : List Tag) :
    (tags.flatMap (Tag.pendingThrows id)).flatMap (PendingThrows.reports scope) =
      if scope.warnOrphans then tags.flatMap (Tag.unknownThrows scope.exceptions) else [] := by
  induction tags with
  | nil => exact (ite_self []).symm
  | cons t tags ih =>
    have hfirst : (t.pendingThrows id).flatMap (PendingThrows.reports scope) =
        if scope.warnOrphans then t.unknownThrows scope.exceptions else [] := by
      unfold Tag.pendingThrows Tag.unknownThrows
      cases t.body with
      | throws name =>
        cases name with
        | none => exact (ite_self []).symm
        | some name => cases hwarn : scope.warnOrphans <;> simp [PendingThrows.reports, hwarn]
      | _ => exact (ite_self []).symm
    rw [List.flatMap_cons, List.flatMap_append, ih, List.flatMap_cons, hfirst]
    split <;> rfl

theorem PendingThrows.isUnknownThrows_of_mem {scope : BindingScope} {p : PendingThrows}
    {d : Diagnostic} (hd : d ∈ p.reports scope) : d.isUnknownThrows := by
  unfold reports at hd
  split at hd
  · rw [List.mem_singleton.1 hd]
    simp [Diagnostic.isUnknownThrows, Diagnostic.warning, toString]
  · cases hd

/-- What is reported about a site is that a comment is malformed, or that the construct is not
understood. -/
theorem Site.isUnknownThrows_ofTree {node : Nat} {t : SyntaxTree} {d : Diagnostic}
    (hd : d ∈ (Site.ofTree node t).reports) : d.isUnknownThrows = false :=
  Site.forall_mem_reports (P := (·.isUnknownThrows = false)) (fun _ => rfl) rfl d hd

namespace Binding

/-- No report at once is about a `@throws` tag with a name. -/
def Knows (b : Binding) : Prop :=
  ∀ d ∈ b.reports.now, d.isUnknownThrows = false

variable {scope : BindingScope} {b : Binding}

theorem Knows.warn (hb : b.Knows) {code : Code} {message : String} {t : Tag}
    (h : (Diagnostic.warning code message (some t.span.start)).isUnknownThrows = false) :
    (b.warn code message t).Knows := by
  intro d hd
  rcases List.mem_append.1 hd with hd | hd
  · exact hb d hd
  · rw [List.mem_singleton.1 hd]
    exact h

theorem Knows.duplicate (hb : b.Knows) (t : Tag) (what : String) : (b.duplicate t what).Knows :=
  hb.warn rfl

theorem Knows.orphan (hb : b.Knows) (scope : BindingScope) {t : Tag} {message : String}
    (h : "`@throws ".toList.isPrefixOf message.toList = false) :
    (b.orphan scope t message).Knows := by
  unfold Binding.orphan
  split
  · exact hb.warn h
  · exact hb

theorem Knows.addParam (hb : b.Knows) (scope : BindingScope) (targets : ParamTargets) (t : Tag)
    (name : Name) (doc : ParamDoc) : (b.addParam scope targets t name doc).Knows := by
  let named : Binding := { b with named := name.display :: b.named }
  have hnamed : named.Knows := hb
  unfold Binding.addParam
  split
  · exact hb.duplicate t _
  · dsimp only
    split
    · exact hb
    · exact hnamed.orphan scope (by simp [toString, List.isPrefixOf])

theorem Knows.addReturn (hb : b.Knows) (scope : BindingScope) (t : Tag) (type : Option String) :
    (b.addReturn scope t type).Knows := by
  let returned : Binding := { b with returned := true }
  have hreturned : returned.Knows := hb
  unfold Binding.addReturn
  split
  · exact hb
  · split
    · exact hb.duplicate t _
    · dsimp only
      split
      · exact hb
      · exact hreturned.orphan scope (by simp [toString, List.isPrefixOf])

/-- What is reported about a tag at once is not that its name stands for nothing. -/
theorem Knows.addTag (hb : b.Knows) (targets : Option ParamTargets) (t : Tag) :
    (b.addTag scope targets t).Knows := by
  unfold Binding.addTag
  cases t.body with
  | description =>
    dsimp only
    unfold addDescription
    split <;> exact hb
  | param name =>
    cases targets with
    | none => exact hb
    | some targets =>
      cases name with
      | none => exact hb.orphan scope (by decide)
      | some name => exact hb.addParam scope targets t name _
  | returns => exact hb.addReturn scope t _
  | throws name =>
    cases name with
    | none => exact hb.orphan scope (by decide)
    | some name =>
      intro d hd
      exact hb d (by simpa [addThrows] using hd)
  | link | visibility | generic => exact hb

theorem knows_bindTags (scope : BindingScope) (c : Context) (inside : List Context)
    (tags : List Tag) : (bindTags scope c inside tags).Knows := by
  have hfold (b : Binding) (hb : b.Knows) :
      (tags.foldl (Binding.addTag scope (c.paramTargets? inside)) b).Knows := by
    induction tags generalizing b with
    | nil => exact hb
    | cons t tags ih => exact ih _ (hb.addTag _ t)
  have hbound := hfold { owner := c } fun d hd => absurd hd List.not_mem_nil
  unfold bindTags finish
  split <;> exact hbound

end Binding

/-! ### Reports about statements -/

namespace DocForest

/-- What is reported at once about sites is not that a name stands for nothing, if it is not
reported about one of them. -/
theorem now_bind {f : DocForest} (hsites : ∀ site ∈ f.sites, ∀ d ∈ site.reports,
      d.isUnknownThrows = false) (scope : BindingScope) :
    ∀ d ∈ (f.bind scope).2.now, d.isUnknownThrows = false := by
  induction f with
  | nil => exact fun d hd => absurd hd List.not_mem_nil
  | node site context inside rest ihinside ihrest =>
    obtain ⟨hsite, hothers⟩ := List.forall_mem_cons.1 hsites
    have hinside := ihinside fun s hs => hothers s (List.mem_append_left _ hs)
    have hrest := ihrest fun s hs => hothers s (List.mem_append_right _ hs)
    cases context with
    | none => exact List.forall_mem_append.2 ⟨List.forall_mem_append.2 ⟨hsite, hinside⟩, hrest⟩
    | some c =>
      rw [bind_some]
      exact List.forall_mem_append.2 ⟨List.forall_mem_append.2
        ⟨List.forall_mem_append.2 ⟨hsite, hinside⟩, Binding.knows_bindTags scope c _ _⟩, hrest⟩

/-- What is reported late is reported about the tags of the records. -/
theorem perm_late (scope : BindingScope) (f : DocForest) (statement next : Nat) :
    (f.bind scope).2.late.Perm ((f.records statement next).flatMap fun r =>
      if scope.warnOrphans then r.unknownThrows scope.exceptions else []) := by
  rw [late_bind f next]
  induction f generalizing next with
  | nil => exact .nil
  | node site context inside rest ihinside ihrest =>
    rw [records, List.flatMap_cons, List.flatMap_append]
    cases context with
    | none =>
      rw [pending, List.flatMap_append]
      have hnone : (if scope.warnOrphans then
          CommentRecord.unknownThrows scope.exceptions ⟨statement, site, none⟩ else []) = [] :=
        ite_self []
      exact ((ihinside _).append (ihrest _)).trans (.of_eq (by rw [Option.map_none, hnone]; rfl))
    | some c =>
      rw [pending, List.flatMap_append, List.flatMap_append, flatMap_reports_pendingThrows]
      exact ((List.perm_append_comm.trans ((ihinside _).append_left _)).append (ihrest _)).trans
        (.of_eq (List.append_assoc ..))

end DocForest

/-- The reports about `@throws` tags with a name in a statement are about the tags of its
records. -/
theorem filter_resolveStatement {t : SyntaxTree} (ht : t.Fits) (warnOrphans : Bool)
    (statement next : Nat) {exceptions : List DeclaredException}
    (hexceptions : ∀ name, throwsTarget (statementScope warnOrphans next t).exceptions name =
      throwsTarget exceptions name) :
    let out := (resolveStatement warnOrphans next t).2
    ((out.now ++ out.late).filter Diagnostic.isUnknownThrows).Perm
      (((DocForest.ofStatement t).records statement next).flatMap fun r =>
        if warnOrphans then r.unknownThrows exceptions else []) := by
  intro out
  let scope := statementScope warnOrphans next t
  let reports := ((DocForest.ofStatement t).bind scope).2
  have hall : out.now ++ out.late = reports.now ++ reports.late := by
    unfold out
    rw [snd_resolveStatement]
    dsimp only
    split
    · exact List.append_nil _
    · rfl
  have hnow : ∀ d ∈ reports.now, d.isUnknownThrows = false := by
    refine DocForest.now_bind (fun site hsite d hd => ?_) scope
    rw [DocForest.sites_ofStatement ht] at hsite
    obtain ⟨_, _, rfl⟩ := List.mem_map.1 hsite
    exact Site.isUnknownThrows_ofTree hd
  have hlate : ∀ d ∈ reports.late, d.isUnknownThrows := by
    intro d hd
    unfold reports at hd
    rw [DocForest.late_bind _ next] at hd
    obtain ⟨_, _, hd⟩ := List.mem_flatMap.1 hd
    exact PendingThrows.isUnknownThrows_of_mem hd
  have hsame (r : CommentRecord) : (if scope.warnOrphans then r.unknownThrows scope.exceptions
      else []) = if warnOrphans then r.unknownThrows exceptions else [] := by
    rw [r.unknownThrows_congr hexceptions]
    rfl
  have hperm := DocForest.perm_late scope (.ofStatement t) statement next
  simp only [hsame] at hperm
  rw [hall, List.filter_append, List.filter_eq_nil_iff.2 fun d hd => by simp [hnow d hd],
    List.filter_eq_self.2 hlate, List.nil_append]
  exact hperm

/-- The reports about `@throws` tags with a name in a file are about the tags of its records. -/
theorem perm_resolveFrom {trees : List SyntaxTree} (htrees : ∀ t ∈ trees, t.Fits)
    (warnOrphans : Bool) (statement next : Nat) (exceptions : Nat → List DeclaredException)
    (hexceptions : ∀ k t, trees[k]? = some t → ∀ name,
      throwsTarget (statementScope warnOrphans (firstContext next trees k) t).exceptions name =
        throwsTarget (exceptions (statement + k)) name) :
    let out := resolveFrom warnOrphans statement next trees
    ((out.2.now ++ out.2.late).filter Diagnostic.isUnknownThrows).Perm
      (out.1.comments.flatMap fun r =>
        if warnOrphans then r.unknownThrows (exceptions r.statement) else []) := by
  induction trees generalizing statement next with
  | nil => exact .nil
  | cons t more ih =>
    obtain ⟨ht, hmore⟩ := List.forall_mem_cons.1 htrees
    let first := resolveStatement warnOrphans next t
    let rest := resolveFrom warnOrphans (statement + 1) (next + first.1.contextCount) more
    let records := (DocForest.ofStatement t).records statement next
    have hcomments : (resolveFrom warnOrphans statement next (t :: more)).1.comments =
        records ++ rest.1.comments :=
      congrArg (· ++ _) (DocForest.records_bind ..)
    have hfirst := filter_resolveStatement ht warnOrphans statement next
      (show ∀ name, _ = throwsTarget (exceptions statement) name from hexceptions 0 t rfl)
    have hlater (k : Nat) (s : SyntaxTree) (hs : more[k]? = some s) (name : Name) :
        throwsTarget (statementScope warnOrphans
          (firstContext (next + first.1.contextCount) more k) s).exceptions name =
            throwsTarget (exceptions (statement + 1 + k)) name := by
      have hname := hexceptions (k + 1) s hs name
      rw [firstContext, ← contextCount_resolveStatement warnOrphans next t, Nat.add_comm k,
        ← Nat.add_assoc] at hname
      exact hname
    have hreports : ((first.2.now ++ rest.2.now) ++ (first.2.late ++ rest.2.late)).Perm
        ((first.2.now ++ first.2.late) ++ (rest.2.now ++ rest.2.late)) := by
      rw [List.append_assoc, List.append_assoc]
      exact (List.perm_append_comm_assoc ..).append_left _
    have hown : (records.flatMap fun r =>
          if warnOrphans then r.unknownThrows (exceptions statement) else []) =
        records.flatMap fun r =>
          if warnOrphans then r.unknownThrows (exceptions r.statement) else [] :=
      List.flatMap_congr fun r hr => by rw [DocForest.statement_of_mem_records hr]
    intro out
    have hperm := (hreports.filter Diagnostic.isUnknownThrows).trans
      (.of_eq (List.filter_append ..))
    rw [hcomments, List.flatMap_append, ← hown]
    exact hperm.trans (hfirst.append (ih hmore _ _ hlater))

/-! ### Files -/

/-- Every context raises what the named `@throws` tags in front of it say, one exception for each,
in their order. What a name stands for is decided by all exceptions that its unit declares. The
names that stand for nothing are reported, and no others. -/
theorem resolveAll_throws (source : String) (filename : Option String) (warnOrphans : Bool) :
    let trees := (parseSql source filename).trees
    let out := resolveAll trees warnOrphans
    let table := out.1
    let exceptions (statement : Nat) := trees[statement]?.elim [] fun t =>
      t.exceptions (table.contextAt? statement)
    table.comments.filterMap (·.context) = List.range table.rows.length ∧
      (∀ r ∈ table.comments, ∀ id ∈ r.context, (table.context? id).map (·.throws) =
        some (throwsDocs (exceptions r.statement) r.site.tags)) ∧
      (∀ statement t, trees[statement]? = some t → endsUnit t.kind →
        ∀ q ∈ t.numberedChildren 0, q.2.kind = .exceptionDecl →
          ∃ id c, table.contextAt? statement q.1 = some id ∧ table.context? id = some c ∧
            c.kind = .exceptionDecl ∧ c.name = q.2.nameOrEmpty) ∧
      (out.2.filter Diagnostic.isUnknownThrows).Perm
        (if warnOrphans then
          table.comments.flatMap fun r => r.unknownThrows (exceptions r.statement)
        else []) := by
  intro trees out table exceptions
  have hfits := parseSql_fits source filename
  have hout : out = _ := resolveAll_eq hfits warnOrphans
  have hrows : table.rows = statementRows id warnOrphans 0 trees := congrArg (·.1.rows) hout
  have hcomments : table.comments = (resolveFrom warnOrphans 0 0 trees).1.comments :=
    congrArg (·.1.comments) hout
  have hreports : out.2 = (resolve trees warnOrphans).2 := congrArg (·.2) hout
  have htarget (k : Nat) (t : SyntaxTree) (ht : trees[k]? = some t) (name : Name) :
      throwsTarget (statementScope warnOrphans (firstContext 0 trees k) t).exceptions name =
        throwsTarget (exceptions k) name := by
    have hown : exceptions k = t.exceptions (table.contextAt? k) := by
      unfold exceptions
      rw [ht, Option.elim_some]
    rw [hown]
    exact throwsTarget_statementScope warnOrphans (fun r hr =>
      (holds_resolveAll hfits warnOrphans ht).contextAt?_eq (hfits t (List.mem_of_getElem? ht)) hr)
      name
  refine ⟨?_, fun r hr id hid => ?_, fun k t ht hunit q hq hkind => ?_, ?_⟩
  · rw [hcomments, hrows, filterMap_comments, List.range_eq_range']
  · obtain ⟨k, t, ht, hk⟩ := statement_of_mem_comments (hcomments ▸ hr)
    rw [Nat.zero_add] at hk
    rw [(holds_resolveAll hfits warnOrphans ht).throws_context hr hk hid, hk,
      throwsDocs_congr (htarget k t ht)]
  · exact (holds_resolveAll hfits warnOrphans ht).exists_exception
      (hfits t (List.mem_of_getElem? ht)) hunit hq hkind
  · rw [hreports, hcomments]
    refine (perm_resolveFrom hfits warnOrphans 0 0 exceptions ?_).trans (.of_eq ?_)
    · simpa only [Nat.zero_add] using htarget
    cases warnOrphans with
    | true => rfl
    | false => exact List.flatMap_eq_nil_iff.2 fun _ _ => rfl

/-- A procedure names an exception that comes after it by its name and by its code, and an error, an
exception that needs no declaration, and nothing. -/
example :
    let out := resolveAll (parseSql
      "CREATE PACKAGE p IS
/** @throws e\n@throws ORA-1\n@throws -2\n@throws value_error\n@throws x */
PROCEDURE f; e EXCEPTION; PRAGMA EXCEPTION_INIT(e, -1); END;" none).trees
    (out.1.context? 1).map (fun c => c.throws.map (·.target)) =
        some [.declared 2, .declared 2, .errorCode, .predefined, .unknown] ∧
      (out.2.filter Diagnostic.isUnknownThrows).length = 1 := by
  decide +kernel

end SqlDoc

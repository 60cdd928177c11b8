/-
# The end of a unit

When a unit ends its scope knows the exceptions that the unit declares. The pragmas add their codes
to the rows and then the tags that wait their exceptions, so that the rows become those of the
resolved sites (`closeScope_unit`).

Key definitions: `DocForest.exceptionIds`.
Key theorems: `foldl_bindCode`, `throwsTarget_unitAt`, `closeScope_unit`.
-/
import SqlDoc.Proofs.Context.Codes

namespace SqlDoc

/-! ### Exceptions of sites -/

/-- A tag in front of the construct around a context does not change what the context is. -/
theorem sameForm_apply (doc : ParamDoc) (c : Context) : SameForm c (doc.apply c) := by
  unfold ParamDoc.apply
  split
  · rename_i info hdetail
    refine ⟨rfl, rfl, ?_, ?_, ?_, rfl, ?_⟩
    · rw [Context.targetNoun?, Context.targetNoun?, hdetail]
    · rw [hdetail]
      exact (rfl : false = false)
    · rw [Context.codes?, Context.codes?, hdetail]
    · rw [Context.definition?, Context.definition?, hdetail]
  · exact ⟨rfl, rfl, rfl, rfl, rfl, rfl, rfl⟩

/-- The exception that the context with the number `id` is, if it is one. -/
def Context.exception? (id : Nat) (c : Context) : Option DeclaredException :=
  c.codes?.map fun codes => { id, name := c.name.last, codes }

namespace DocForest

variable {β : Type} {key : Nat × Context → Option β}

theorem filterMap_tops_describeInside
    (hkey : ∀ id c d, SameForm c d → key (id, d) = key (id, c)) (b : Binding) (c : Context)
    (f : DocForest) (next : Nat) :
    ((b.describeInside c f).tops next).filterMap key = (f.tops next).filterMap key :=
  b.describeInside_congr (g := fun f => (f.tops next).filterMap key)
    (fun _ doc f => filterMap_tops_modifyFirst (fun id c => hkey id c _ (sameForm_apply doc c)) f
      next) c f

/-- Binding tags keeps what the contexts at the top are. -/
theorem filterMap_tops_bind (hkey : ∀ id c d, SameForm c d → key (id, d) = key (id, c))
    (scope : BindingScope) (f : DocForest) (next : Nat) :
    ((f.bind scope).1.tops next).filterMap key = (f.tops next).filterMap key := by
  induction f generalizing next with
  | nil => rfl
  | node site context inside rest _ ih =>
    cases context with
    | none => simp [bind, tops, ih]
    | some c =>
      have hform := sameForm_bindTags scope c (inside.bind scope).1.topContexts site.tags
      simp [bind_some, tops, ih, List.filterMap_cons, hkey _ _ _ hform]

/-- The numbers of the exceptions of a name at the top. -/
def exceptionIds (name : String) (next : Nat) (f : DocForest) : List Nat :=
  (f.tops next).filterMap fun q => if q.2.isException name then some q.1 else none

theorem exceptionIds_withCodes (name : String) (next : Nat) (bindings : List (Name × String))
    (f : DocForest) : (f.withCodes bindings).exceptionIds name next = f.exceptionIds name next :=
  withCodes_congr (g := exceptionIds name next)
    (fun _ _ f => filterMap_tops_modifyFirst (fun _ _ => by simp) f next) bindings f

theorem find?_exceptionIds (name : String) (next : Nat) (f : DocForest) :
    ((f.tops next).find? fun q => q.2.isException name).map (·.1) =
      (f.exceptionIds name next).head? := by
  unfold exceptionIds
  induction f.tops next with
  | nil => rfl
  | cons q l ih => cases h : q.2.isException name <;> simp [h, ih]

theorem exceptions_eq (f : DocForest) (next : Nat) :
    f.exceptions next = (f.tops next).filterMap fun q => q.2.exception? q.1 := by
  induction f generalizing next with
  | nil => rfl
  | node site context inside rest _ ih =>
    cases context with
    | none => simp [exceptions, tops, ih]
    | some c =>
      rw [exceptions_some, ih, tops, Option.map_some, Option.toList_some, List.singleton_append,
        List.filterMap_cons, Option.toList_some, List.length_singleton]
      cases hcodes : c.codes? <;> simp [Context.exception?, hcodes]

/-- Codes leave every exception at its number. -/
theorem map_id_exceptions_withCodes (next : Nat) (bindings : List (Name × String)) (f : DocForest) :
    ((f.withCodes bindings).exceptions next).map (·.id) = (f.exceptions next).map (·.id) := by
  have hids (f : DocForest) : (f.exceptions next).map (·.id) =
      (f.tops next).filterMap fun q => if q.2.codes?.isSome then some q.1 else none := by
    rw [exceptions_eq, List.map_filterMap]
    congr 1
    funext q
    rw [Context.exception?]
    cases q.2.codes? <;> rfl
  rw [hids, hids]
  exact withCodes_congr (g := fun f => (f.tops next).filterMap _)
    (fun _ _ f => filterMap_tops_modifyFirst (fun _ _ => by simp) f next) bindings f

theorem find?_exceptions (name : String) (next : Nat) (f : DocForest) :
    ((f.exceptions next).find? (·.name = name)).map (·.id) = (f.exceptionIds name next).head? := by
  have hname (q : Nat × Context) :
      (q.2.exception? q.1).any (·.name = name) = q.2.isException name := by
    rw [Context.exception?, Context.isException]
    cases q.2.codes? <;> rfl
  rw [exceptions_eq, List.find?_filterMap, ← find?_exceptionIds]
  simp only [hname]
  cases hfind : (f.tops next).find? fun q => q.2.isException name with
  | none => rfl
  | some q =>
    have hexception := List.find?_some hfind
    have hcodes : q.2.codes?.isSome := (Bool.and_eq_true_iff.1 hexception).1
    obtain ⟨codes, hcodes⟩ := Option.isSome_iff_exists.1 hcodes
    rw [Option.bind_some, Context.exception?, hcodes]
    rfl

theorem exceptions_bind (next : Nat) (scope : BindingScope) (b : Binding) (c : Context)
    (f : DocForest) :
    (b.describeInside c (f.bind scope).1).exceptions next = f.exceptions next := by
  have hkey (id : Nat) (c d : Context) (h : SameForm c d) : d.exception? id = c.exception? id := by
    rw [Context.exception?, Context.exception?, h.codes, h.name]
  rw [exceptions_eq, exceptions_eq, filterMap_tops_describeInside hkey, filterMap_tops_bind hkey]

end DocForest

/-- The first exception of a name is the one that is kept. -/
theorem find?_foldl_keepFirst (name : String) (exceptions : List DeclaredException)
    (known : List (String × Nat)) :
    ((exceptions.foldl keepFirst known).find? (·.1 = name)).map (·.2) =
      ((known.find? (·.1 = name)).map (·.2)).or
        ((exceptions.find? (·.name = name)).map (·.id)) := by
  induction exceptions generalizing known with
  | nil => simp
  | cons e exceptions ih =>
    have hkeep : ((keepFirst known e).find? (·.1 = name)).map (·.2) =
        ((known.find? (·.1 = name)).map (·.2)).or (if e.name = name then some e.id else none) := by
      unfold keepFirst
      split
      · rename_i hany
        split
        · rename_i hname
          subst hname
          obtain ⟨q, hq⟩ :=
            Option.isSome_iff_exists.1 (List.find?_isSome.2 (List.any_eq_true.1 hany))
          rw [hq]
          rfl
        · rw [Option.or_none]
      · rw [List.find?_append]
        cases known.find? (·.1 = name) with
        | none => by_cases hname : e.name = name <;> simp [hname]
        | some q => rfl
    rw [List.foldl_cons, ih, hkeep, List.find?_cons, Option.or_assoc]
    by_cases hname : e.name = name <;> simp [hname]

/-! ### What a scope knows -/

namespace Resolver

/-- Where resolving has come to when the rows of a context and of those inside it are at the end of
the table, without exceptions. -/
def unitAt (r : Resolver) (before : List ContextRow) (row : ContextRow) (f : DocForest) :
    Resolver :=
  { r with table := { r.table with
    rows := before ++ (row :: f.rows (some before.length) (before.length + 1)).map
      ContextRow.withoutThrows } }

variable {r : Resolver} {before : List ContextRow} {row : ContextRow} {f : DocForest}
  {scope : UnitScope}

theorem bindCode_unitAt
    (hknown : ∀ name : Name, r.findException? scope name =
      (f.exceptionIds name.last (before.length + 1)).head?) (b : Name × String) :
    (r.unitAt before row f).bindCode scope b =
      r.unitAt before row (f.modifyFirst (·.isException b.1.last) (.addCode b.2)) := by
  have hfind : (r.unitAt before row f).findException? scope b.1 = _ := hknown b.1
  rw [bindCode, hfind, ← DocForest.find?_exceptionIds]
  cases hfirst : (f.tops (before.length + 1)).find? fun q => q.2.isException b.1.last with
  | none => rw [DocForest.modifyFirst_of_find?_eq_none hfirst]; rfl
  | some q =>
    have hbefore : (before ++ [row.withoutThrows]).length = before.length + 1 := by simp
    have hrow (parent : Option Nat) (c : Context) (ids : List Nat) :
        (c.row parent ids).modifyContext (.addCode b.2) = (c.addCode b.2).row parent ids :=
      c.addCode_row b.2 parent ids
    have hrows : (_ ++ (f.rows (some before.length) _).map _).modify _ _ = _ :=
      DocForest.rows_modifyFirst (p := (·.isException b.1.last)) hrow
        (Context.addCode_withoutThrows b.2) hbefore hfirst
    rw [List.append_assoc, List.append_assoc] at hrows
    exact congrArg (fun rows => { r with table := { r.table with rows } }) hrows

/-- The pragmas of a unit add their codes to its rows. -/
theorem foldl_bindCode
    (hknown : ∀ name : Name, r.findException? scope name =
      (f.exceptionIds name.last (before.length + 1)).head?) (bindings : List (Name × String)) :
    bindings.foldl (fun r b => r.bindCode scope b) (r.unitAt before row f) =
      r.unitAt before row (f.withCodes bindings) := by
  induction bindings generalizing f with
  | nil => rfl
  | cons b bindings ih =>
    have hmore (name : Name) : r.findException? scope name =
        ((f.modifyFirst (·.isException b.1.last) (.addCode b.2)).exceptionIds name.last
          (before.length + 1)).head? := by
      rw [hknown]
      exact congrArg List.head? (DocForest.exceptionIds_withCodes name.last _ [b] f).symm
    rw [List.foldl_cons, bindCode_unitAt hknown, ih hmore]
    rfl

/-- An exception that a unit declares is in the table with its codes. -/
theorem hasCode_unitAt (code : Int) {e : DeclaredException}
    (he : e ∈ f.exceptions (before.length + 1)) :
    (r.unitAt before row f).hasCode code e.id = e.codes.any fun c => errorCode? c = some code := by
  rw [DocForest.exceptions_eq] at he
  obtain ⟨⟨id, c⟩, htop, hexception⟩ := List.mem_filterMap.1 he
  obtain ⟨codes, hcodes, rfl⟩ := Option.map_eq_some_iff.1 hexception
  have hdetail : c.detail = .exceptionDef codes := by
    unfold Context.codes? at hcodes
    split at hcodes
    · rename_i hdetail
      cases hcodes
      exact hdetail
    · cases hcodes
  have hbefore : (before ++ [row.withoutThrows]).length = before.length + 1 := by simp
  obtain ⟨found, hfound, hcontext⟩ : ∃ found : ContextRow, (before ++ [row.withoutThrows] ++
      (f.rows (some before.length) (before.length + 1)).map ContextRow.withoutThrows)[id]? =
        some found.withoutThrows ∧ found.context = { c with parent := some before.length } :=
    DocForest.getElem?_rows_tops hbefore htop _
  have hrow : (r.unitAt before row f).table.rows[id]? = some found.withoutThrows := by
    rw [← hfound, List.append_assoc]
    rfl
  have hfoundDetail : found.withoutThrows.context.detail = .exceptionDef codes := by
    show found.context.detail = _
    rw [hcontext]
    exact hdetail
  rw [hasCode, context?, hrow, Option.map_some, Option.any_some, hfoundDetail]

/-- What a name stands for when a unit ends depends on the exceptions that it declares. -/
theorem throwsTarget_unitAt (row : ContextRow)
    (hknown : ∀ name : Name, r.findException? scope name =
      (f.exceptionIds name.last (before.length + 1)).head?)
    (hdeclared : scope.declared = (f.exceptions (before.length + 1)).map (·.id))
    (hothers : ∀ s ∈ r.scopes, s.declared = []) (name : Name) :
    (r.unitAt before row f).throwsTarget scope name =
      SqlDoc.throwsTarget (f.exceptions (before.length + 1)) name := by
  have hfind : (r.unitAt before row f).findException? scope name =
      ((f.exceptions (before.length + 1)).find? (·.name = name.last)).map (·.id) := by
    rw [DocForest.find?_exceptions]
    exact hknown name
  have hcode (code : Int) :
      (scope :: r.scopes).findSome? (fun s => s.declared.find?
        ((r.unitAt before row f).hasCode code)) =
      ((f.exceptions (before.length + 1)).find? fun e =>
        e.codes.any fun c => errorCode? c = some code).map (·.id) := by
    have hnone : r.scopes.findSome? (fun s => s.declared.find?
        ((r.unitAt before row f).hasCode code)) = none :=
      List.findSome?_eq_none_iff.2 fun s hs => by rw [hothers s hs]; rfl
    have hhere : (f.exceptions (before.length + 1)).find?
          ((r.unitAt before row f).hasCode code ∘ (·.id)) =
        (f.exceptions (before.length + 1)).find? fun e =>
          e.codes.any fun c => errorCode? c = some code := by
      rw [← List.head?_filter, ← List.head?_filter]
      exact congrArg List.head? (List.filter_congr fun e he => hasCode_unitAt code he)
    rw [List.findSome?_cons, hdeclared, List.find?_map, hhere, hnone]
    cases (f.exceptions (before.length + 1)).find? fun e =>
      e.codes.any fun c => errorCode? c = some code <;> rfl
  unfold throwsTarget SqlDoc.throwsTarget
  rw [hfind]
  cases (f.exceptions (before.length + 1)).find? (·.name = name.last) with
  | some e => rfl
  | none =>
    dsimp only [Option.map_none]
    cases errorCode? name.display with
    | none => rfl
    | some code =>
      show Option.elim (List.findSome? _ (scope :: r.scopes)) _ _ = _
      rw [hcode, Option.elim_map]
      rfl

/-- When a unit ends its rows are given codes and exceptions. -/
theorem closeScope_unitAt (row : ContextRow) {known : BindingScope}
    (hwarn : r.warnOrphans = known.warnOrphans)
    (hexceptions : scope.exceptions = (f.exceptions (before.length + 1)).foldl keepFirst [])
    (hdeclared : scope.declared = (f.exceptions (before.length + 1)).map (·.id))
    (hothers : ∀ s ∈ r.scopes, s.exceptions = [] ∧ s.declared = [])
    (hall : known.exceptions = (f.withCodes scope.bindings).exceptions (before.length + 1)) :
    (r.unitAt before row f).closeScope scope =
      let rows := (row :: (f.withCodes scope.bindings).rows (some before.length)
        (before.length + 1)).map ContextRow.withoutThrows
      { r with
        table := { r.table with
          rows := (scope.pending.map fun p => (p.context, p.doc known.exceptions)).foldl raiseIn
            (before ++ rows) }
        reports := r.reports ++ scope.pending.flatMap (PendingThrows.reports known) } := by
  have hknown (name : Name) : r.findException? scope name =
      (f.exceptionIds name.last (before.length + 1)).head? := by
    have hnone : r.scopes.findSome? (fun s => (s.exceptions.find? (·.1 = name.last)).map (·.2)) =
        none :=
      List.findSome?_eq_none_iff.2 fun s hs => by rw [(hothers s hs).1]; rfl
    rw [findException?, List.findSome?_cons, hnone, hexceptions, find?_foldl_keepFirst,
      DocForest.find?_exceptions]
    cases (f.exceptionIds name.last (before.length + 1)).head? <;> rfl
  have hcoded (name : Name) : r.findException? scope name =
      ((f.withCodes scope.bindings).exceptionIds name.last (before.length + 1)).head? := by
    rw [hknown, DocForest.exceptionIds_withCodes]
  have hids : scope.declared =
      ((f.withCodes scope.bindings).exceptions (before.length + 1)).map (·.id) := by
    rw [hdeclared, DocForest.map_id_exceptions_withCodes]
  have htarget (name : Name) :
      (r.unitAt before row (f.withCodes scope.bindings)).throwsTarget scope name =
        SqlDoc.throwsTarget known.exceptions name := by
    rw [throwsTarget_unitAt row hcoded hids (fun s hs => (hothers s hs).2), ← hall]
  unfold closeScope
  rw [foldl_bindCode hknown]
  exact foldl_bindThrows (r := r.unitAt before row (f.withCodes scope.bindings)) hwarn htarget _

/-- When a unit ends whose context and those inside it are at the end of the table, the table has
the rows of its resolved sites. -/
theorem closeScope_unit {known : BindingScope} (hwarn : r.warnOrphans = known.warnOrphans)
    {site : Site} {c : Context} {bare : DocForest} (hrows : r.table.rows = before ++
      (((DocForest.node site (some c) bare .nil).bind known).1.rows none before.length).map
        ContextRow.withoutThrows)
    (hexceptions : scope.exceptions = (bare.exceptions (before.length + 1)).foldl keepFirst [])
    (hdeclared : scope.declared = (bare.exceptions (before.length + 1)).map (·.id))
    (hpending : scope.pending = (DocForest.node site (some c) bare .nil).pending before.length)
    (hothers : ∀ s ∈ r.scopes, s.exceptions = [] ∧ s.declared = [])
    (hall : known.exceptions = (bare.withCodes scope.bindings).exceptions (before.length + 1))
    (hthrows : (DocForest.node site (some c) (bare.withCodes scope.bindings) .nil).All
      (·.throws = [])) :
    let f := DocForest.node site (some c) (bare.withCodes scope.bindings) .nil
    r.closeScope scope =
      { r with
        table := { r.table with rows := before ++ (f.bind known).1.rows none before.length }
        reports := r.reports ++ (f.bind known).2.late } := by
  intro f
  let bound := bindTags known c (bare.bind known).1.topContexts site.tags
  let inside := bound.describeInside c (bare.bind known).1
  let row := bound.owner.row none (inside.topIds (before.length + 1))
  have hbound : (f.bind known).1 = .node site (some bound.owner) (inside.withCodes scope.bindings)
      .nil := congrArg Prod.fst (DocForest.bind_withCodes ..)
  have hnil : DocForest.nil.bind known = (.nil, {}) := rfl
  have hstart : r = r.unitAt before row inside := by
    rw [DocForest.bind_some, hnil, DocForest.rows, DocForest.rows, List.append_nil] at hrows
    show r = { r with table := { r.table with rows := _ } }
    rw [← hrows]
  have hinside : (inside.withCodes scope.bindings).exceptions (before.length + 1) =
      (bare.withCodes scope.bindings).exceptions (before.length + 1) := by
    have hsame : inside.withCodes scope.bindings = _ :=
      (DocForest.node.inj (hbound.symm.trans (congrArg Prod.fst (DocForest.bind_some ..)))).2.2.1
    rw [hsame, DocForest.exceptions_bind]
  have hids : inside.exceptions (before.length + 1) = bare.exceptions (before.length + 1) :=
    DocForest.exceptions_bind ..
  have hclose := closeScope_unitAt (r := r) (f := inside) row hwarn (by rw [hexceptions, hids])
    (by rw [hdeclared, hids]) hothers (by rw [hall, hinside])
  have hrowsOf : (f.bind known).1.rows none before.length =
      row :: (inside.withCodes scope.bindings).rows (some before.length) (before.length + 1) := by
    rw [hbound, DocForest.rows, DocForest.rows, List.append_nil, DocForest.topIds_withCodes]
  have hpendingOf : scope.pending = f.pending before.length := by
    show _ = (bare.withCodes scope.bindings).pending _ ++ _ ++ DocForest.pending _ .nil
    rw [hpending, DocForest.pending_withCodes]
    rfl
  have hfill := DocForest.foldl_raised (f.bind known).1 none before rfl []
  rw [List.append_nil, List.append_nil, DocForest.raised_bind hthrows] at hfill
  dsimp only at hclose
  rw [← hrowsOf, hpendingOf, hfill, ← DocForest.late_bind] at hclose
  exact (congrArg (closeScope · scope) hstart).trans hclose

end Resolver
end SqlDoc

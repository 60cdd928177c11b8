/-
# Exceptions at the end of a unit

The tags that wait for the end of a unit add to the contexts that they stand in front of the
exceptions that these raise. When all of them have been bound the rows are those of the resolved
sites, with nothing left out, and what is reported is what is reported late (`foldl_raised`,
`foldl_bindThrows`).

Key definitions: `DocForest.raised`, `PendingThrows.doc`, `DocForest.All`.
Key theorems: `raised_bind`, `late_bind`, `foldl_raised`, `foldl_bindThrows`.
-/
import SqlDoc.Proofs.Context.Visiting

namespace SqlDoc

/-! ### What waiting tags come to -/

/-- The context with one more exception that it raises. -/
def Context.addThrows (d : ThrowsDoc) (c : Context) : Context :=
  { c with throws := c.throws ++ [d] }

/-- Adds to a row an exception that its context raises. -/
def raiseIn (rows : List ContextRow) (raised : Nat × ThrowsDoc) : List ContextRow :=
  rows.modify raised.1 (·.modifyContext (.addThrows raised.2))

namespace PendingThrows

/-- What the tag says if the unit declares the exceptions. -/
def doc (exceptions : List DeclaredException) (p : PendingThrows) : ThrowsDoc where
  name := p.name
  description := p.description
  target := throwsTarget exceptions p.name

/-- What is reported about the tag. -/
def reports (scope : BindingScope) (p : PendingThrows) : List Diagnostic :=
  if throwsTarget scope.exceptions p.name = .unknown ∧ scope.warnOrphans then
    [.warning .orphanTag s!"`@throws {p.name.display}` names no known exception" (some p.place)]
  else []

end PendingThrows

namespace Binding

variable (scope : BindingScope)

/-- A tag adds the exceptions that it leaves to be done, and reports late what is reported about
them. -/
theorem throws_addTag (targets : Option ParamTargets) (b : Binding) (t : Tag) (id : Nat) :
    (b.addTag scope targets t).owner.throws =
        b.owner.throws ++ (t.pendingThrows id).map (PendingThrows.doc scope.exceptions) ∧
      (b.addTag scope targets t).reports.late =
        b.reports.late ++ (t.pendingThrows id).flatMap (PendingThrows.reports scope) := by
  by_cases ht : ∃ name, t.body = .throws (some name)
  · obtain ⟨name, hbody⟩ := ht
    rw [addTag, Tag.pendingThrows, hbody]
    refine ⟨rfl, ?_⟩
    show b.reports.late ++ _ = b.reports.late ++ (_ ++ [])
    rw [List.append_nil]
    rfl
  · obtain ⟨htagged, hlate⟩ := taggedBy_addTag scope targets b (not_exists.1 ht)
    have hpending : t.pendingThrows id = [] := by
      unfold Tag.pendingThrows
      split
      · exact absurd ⟨_, ‹_›⟩ ht
      · rfl
    rw [hpending, List.map_nil, List.flatMap_nil, List.append_nil, List.append_nil]
    exact ⟨htagged.throws, hlate⟩

theorem throws_bindTags (c : Context) (inside : List Context) (tags : List Tag) (id : Nat) :
    (bindTags scope c inside tags).owner.throws =
        c.throws ++ (tags.flatMap (Tag.pendingThrows id)).map (PendingThrows.doc scope.exceptions) ∧
      (bindTags scope c inside tags).reports.late =
        (tags.flatMap (Tag.pendingThrows id)).flatMap (PendingThrows.reports scope) := by
  have hfold (b : Binding) :
      let bound := tags.foldl (Binding.addTag scope (c.paramTargets? inside)) b
      bound.owner.throws = b.owner.throws ++
          (tags.flatMap (Tag.pendingThrows id)).map (PendingThrows.doc scope.exceptions) ∧
        bound.reports.late = b.reports.late ++
          (tags.flatMap (Tag.pendingThrows id)).flatMap (PendingThrows.reports scope) := by
    induction tags generalizing b with
    | nil => simp
    | cons t tags ih =>
      obtain ⟨hthrows, hlate⟩ := throws_addTag scope (c.paramTargets? inside) b t id
      obtain ⟨ihthrows, ihlate⟩ := ih (b.addTag scope (c.paramTargets? inside) t)
      refine ⟨?_, ?_⟩
      · rw [List.foldl_cons, ihthrows, hthrows, List.flatMap_cons, List.map_append,
          List.append_assoc]
      · rw [List.foldl_cons, ihlate, hlate, List.flatMap_cons, List.flatMap_append,
          List.append_assoc]
  have hbound := hfold { owner := c }
  unfold bindTags finish
  split <;> exact hbound

end Binding

/-! ### What contexts raise -/

namespace DocForest

/-- The exceptions that the contexts raise, each with the number of its context, in the order in
which the tags are bound. -/
def raised (next : Nat) : DocForest → List (Nat × ThrowsDoc)
  | nil => []
  | node _ none inside rest => inside.raised next ++ rest.raised (next + inside.contextCount)
  | node _ (some c) inside rest =>
    inside.raised (next + 1) ++ c.throws.map (next, ·)
      ++ rest.raised (next + 1 + inside.contextCount)

/-- All contexts have the property. -/
def All (p : Context → Prop) : DocForest → Prop
  | nil => True
  | node _ context inside rest => (∀ c ∈ context, p c) ∧ inside.All p ∧ rest.All p

/-- A change that keeps what the context raises. -/
theorem raised_modifyFirst {p : Context → Bool} {g : Context → Context}
    (hg : ∀ c, (g c).throws = c.throws) (f : DocForest) (next : Nat) :
    (f.modifyFirst p g).raised next = f.raised next := by
  induction f generalizing next with
  | nil => rfl
  | node _ context inside rest _ ih =>
    cases context with
    | none => rw [modifyFirst, raised, raised, ih]
    | some c =>
      unfold modifyFirst
      split
      · rw [raised, raised, hg]
      · rw [raised, raised, ih]

theorem raised_describeInside (b : Binding) (c : Context) (inside : DocForest) (next : Nat) :
    (b.describeInside c inside).raised next = inside.raised next :=
  b.describeInside_congr (g := (·.raised next))
    (fun _ doc f => raised_modifyFirst doc.throws_apply f next) c inside

variable {scope : BindingScope}

/-- Sites that raise nothing before their tags are bound raise what the tags leave to be done. -/
theorem raised_bind {f : DocForest} (hf : f.All (·.throws = [])) (next : Nat) :
    (f.bind scope).1.raised next =
      (f.pending next).map fun p => (p.context, p.doc scope.exceptions) := by
  induction f generalizing next with
  | nil => rfl
  | node site context inside rest ihinside ihrest =>
    cases context with
    | none =>
      simp only [bind, raised, pending, contextCount_bind, List.map_append, ihinside hf.2.1,
        ihrest hf.2.2]
    | some c =>
      have hthrows : c.throws = [] := hf.1 c rfl
      have hcontext (p : PendingThrows) (h : p ∈ site.tags.flatMap (Tag.pendingThrows next)) :
          p.context = next := by
        obtain ⟨t, _, hp⟩ := List.mem_flatMap.1 h
        unfold Tag.pendingThrows at hp
        split at hp
        · rw [List.mem_singleton.1 hp]
        · cases hp
      have hown : ((site.tags.flatMap (Tag.pendingThrows next)).map
            (PendingThrows.doc scope.exceptions)).map (next, ·) =
          (site.tags.flatMap (Tag.pendingThrows next)).map fun p =>
            (p.context, p.doc scope.exceptions) := by
        rw [List.map_map]
        exact List.map_congr_left fun p hp => by rw [hcontext p hp]; rfl
      rw [bind_some, raised, pending, raised_describeInside, Binding.contextCount_describeInside,
        contextCount_bind, (Binding.throws_bindTags scope c _ site.tags next).1, hthrows,
        List.nil_append, hown, ihinside hf.2.1, ihrest hf.2.2, List.map_append, List.map_append]

/-- What is reported late is reported about what the tags leave to be done. -/
theorem late_bind (f : DocForest) (next : Nat) :
    (f.bind scope).2.late = (f.pending next).flatMap (PendingThrows.reports scope) := by
  induction f generalizing next with
  | nil => rfl
  | node site context inside rest ihinside ihrest =>
    cases context with
    | none =>
      rw [bind, pending, List.flatMap_append, ← ihinside, ← ihrest]
      rfl
    | some c =>
      rw [bind_some, pending, List.flatMap_append, List.flatMap_append, ← ihinside, ← ihrest]
      dsimp only
      rw [Reports.late_append, Reports.late_append, Reports.late_append,
        (Binding.throws_bindTags scope c _ site.tags next).2, List.nil_append]

/-! ### Filling in the rows -/

/-- Exceptions are added to one row. -/
theorem foldl_addThrows (throws : List ThrowsDoc) (before after : List ContextRow)
    (row : ContextRow) :
    (throws.map (before.length, ·)).foldl raiseIn (before ++ row :: after) =
      before ++ row.modifyContext (fun c => { c with throws := c.throws ++ throws }) :: after := by
  induction throws generalizing row with
  | nil => simp [ContextRow.modifyContext]
  | cons d throws ih =>
    rw [List.map_cons, List.foldl_cons, raiseIn, modify_at_length, ih]
    simp [ContextRow.modifyContext, Context.addThrows]

/-- The exceptions that the contexts raise complete their rows. -/
theorem foldl_raised (f : DocForest) (parent : Option Nat) {next : Nat} (before : List ContextRow)
    (hbefore : before.length = next) (after : List ContextRow) :
    (f.raised next).foldl raiseIn
        (before ++ (f.rows parent next).map ContextRow.withoutThrows ++ after) =
      before ++ f.rows parent next ++ after := by
  induction f generalizing parent next before after with
  | nil => rfl
  | node site context inside rest ihinside ihrest =>
    cases context with
    | none =>
      rw [raised, rows, List.foldl_append, List.map_append, ← List.append_assoc before,
        List.append_assoc _ _ after, ihinside parent before hbefore, ← List.append_assoc,
        ihrest parent _ (by simp [hbefore]), List.append_assoc before]
    | some c =>
      -- The row of the context comes first, but what is inside it is bound first.
      let row := c.row parent (inside.topIds (next + 1))
      let insideRows := inside.rows (some next) (next + 1)
      let restRows := rest.rows parent (next + 1 + inside.contextCount)
      have hfirst : (before ++ [row.withoutThrows]).length = next + 1 := by simp [hbefore]
      have hlater : (before ++ row :: insideRows).length = next + 1 + inside.contextCount := by
        simp [hbefore, insideRows]
        omega
      have hinside := ihinside (some next) _ hfirst (restRows.map ContextRow.withoutThrows ++ after)
      have hown : _ = before ++ row :: (insideRows ++
          (restRows.map ContextRow.withoutThrows ++ after)) :=
        foldl_addThrows c.throws before (insideRows ++
          (restRows.map ContextRow.withoutThrows ++ after)) row.withoutThrows
      have hrest := ihrest parent _ hlater after
      rw [hbefore] at hown
      simp only [List.append_assoc, List.cons_append, List.nil_append] at hinside hown hrest ⊢
      rw [raised, rows, List.foldl_append, List.foldl_append]
      simp only [List.map_cons, List.map_append, List.append_assoc, List.cons_append]
      rw [hinside, hown, hrest]

end DocForest

/-! ### Binding the tags that wait -/

namespace Resolver

variable {r : Resolver} {scope : UnitScope}

theorem context?_addThrows (id other : Nat) (d : ThrowsDoc) :
    (r.modifyContext id (.addThrows d)).context? other =
      (r.context? other).map fun c => if id = other then c.addThrows d else c := by
  have hrow : (r.modifyContext id (.addThrows d)).table.rows[other]? =
      (fun row : ContextRow => if id = other then row.modifyContext (.addThrows d) else row) <$>
        r.table.rows[other]? := List.getElem?_modify ..
  rw [context?, context?, hrow, Option.map_eq_map, Option.map_map, Option.map_map]
  congr 1
  funext row
  dsimp only [Function.comp]
  split <;> rfl

/-- The exceptions that contexts raise say nothing about what names stand for. -/
theorem throwsTarget_addThrows (id : Nat) (d : ThrowsDoc) (name : Name) :
    (r.modifyContext id (.addThrows d)).throwsTarget scope name = r.throwsTarget scope name := by
  have hcode (code : Int) : (r.modifyContext id (.addThrows d)).hasCode code = r.hasCode code := by
    funext other
    have hdetail (c : Context) : (if id = other then c.addThrows d else c).detail = c.detail := by
      split <;> rfl
    rw [hasCode, hasCode, context?_addThrows, Option.any_map]
    simp only [hdetail]
  unfold throwsTarget
  simp only [hcode]
  rfl

/-- Binding the tags that wait for the end of a scope. -/
theorem foldl_bindThrows {known : BindingScope} (hwarn : r.warnOrphans = known.warnOrphans)
    (htarget : ∀ name, r.throwsTarget scope name = SqlDoc.throwsTarget known.exceptions name)
    (pending : List PendingThrows) :
    pending.foldl (fun r p => r.bindThrows scope p) r =
      { r with
        table := { r.table with
          rows := (pending.map fun p => (p.context, p.doc known.exceptions)).foldl raiseIn
            r.table.rows }
        reports := r.reports ++ pending.flatMap (PendingThrows.reports known) } := by
  induction pending generalizing r with
  | nil => simp
  | cons p pending ih =>
    have hbind : r.bindThrows scope p =
        (r.report (p.reports known)).modifyContext p.context
          (.addThrows (p.doc known.exceptions)) := by
      unfold bindThrows PendingThrows.reports
      rw [htarget, hwarn]
      dsimp only
      split
      · rfl
      · rw [report, List.append_nil]
        rfl
    have htarget' (name : Name) : (r.bindThrows scope p).throwsTarget scope name =
        SqlDoc.throwsTarget known.exceptions name := by
      rw [hbind, throwsTarget_addThrows]
      exact htarget name
    have hwarn' : (r.bindThrows scope p).warnOrphans = known.warnOrphans := by
      rw [hbind]
      exact hwarn
    rw [List.foldl_cons, ih hwarn' htarget', hbind]
    simp [modifyContext, modifyRow, report, raiseIn]

end Resolver
end SqlDoc

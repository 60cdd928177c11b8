/-
# Visiting statements

A statement that ends a unit leaves the table with the rows of its resolved sites. Any other
statement leaves its exceptions to the end of the file (`visit_unit`, `visit_statement`).

Key theorems: `all_inside_ofStatement`, `visitInside_unit`, `visit_unit`, `visit_statement`.
-/
import SqlDoc.Proofs.Context.Closing

namespace SqlDoc

/-! ### What sites are before their tags are bound -/

namespace DocForest

/-- A change of a context leaves the records as they are. -/
theorem records_modifyFirst (p : Context → Bool) (g : Context → Context) (f : DocForest)
    (statement next : Nat) :
    (f.modifyFirst p g).records statement next = f.records statement next := by
  induction f generalizing next with
  | nil => rfl
  | node site context inside rest _ ih =>
    cases context with
    | none => simp [modifyFirst, records, ih]
    | some c =>
      unfold modifyFirst
      split <;> simp [records, ih]

/-- Binding tags leaves the records as they are. -/
theorem records_bind (scope : BindingScope) (f : DocForest) (statement next : Nat) :
    (f.bind scope).1.records statement next = f.records statement next := by
  have hdescribe (b : Binding) (c : Context) (f : DocForest) (next : Nat) :
      (b.describeInside c f).records statement next = f.records statement next :=
    b.describeInside_congr (g := (·.records statement next))
      (fun _ _ _ => records_modifyFirst ..) c f
  induction f generalizing next with
  | nil => rfl
  | node site context inside rest ihinside ihrest =>
    cases context with
    | none => simp [bind, records, ihinside, ihrest]
    | some c => simp [bind_some, records, hdescribe, ihinside, ihrest]

theorem records_withCodes (bindings : List (Name × String)) (f : DocForest) (statement next : Nat) :
    (f.withCodes bindings).records statement next = f.records statement next :=
  withCodes_congr (g := (·.records statement next)) (fun _ _ _ => records_modifyFirst ..) bindings f

/-- The members of a unit have the codes that the pragmas among them bind. -/
theorem ofUnit_eq (t : SyntaxTree) : ofUnit t =
    (ofMembers [] .empty [] (t.numberedChildren 0)).withCodes (t.children.filterMap codeBinding?) :=
  ofMembers_withCodes ..

/-! ### Contexts of declarations -/

section

variable {p : Context → Prop} (hleaf : ∀ owner t, ∀ c ∈ leafContext? owner t, p c)
include hleaf

theorem all_ofLeaves (owner : String) (leaves : List (Nat × SyntaxTree)) :
    (ofLeaves owner leaves).All p := by
  induction leaves with
  | nil => trivial
  | cons first more ih =>
    unfold ofLeaves
    split
    · exact ⟨hleaf owner first.2, trivial, ih⟩
    · exact ih

theorem all_ofParameters (owner : String) (id : Nat) (t : SyntaxTree) :
    (ofParameters owner id t).All p := by
  unfold ofParameters
  split
  · exact all_ofLeaves hleaf ..
  · trivial

variable (hmember : ∀ t, ∀ c ∈ memberContext? t, p c)
  (hmethod : ∀ kind id t, p (methodContext kind id t))
  (hexception : ∀ codes t, p (exceptionContext codes t))
include hmember hmethod hexception

theorem all_ofMembers (bindings : List (Name × String)) (ids : OverloadIds)
    (exceptions : List String) (members : List (Nat × SyntaxTree)) :
    (ofMembers bindings ids exceptions members).All p := by
  induction members generalizing ids exceptions with
  | nil => trivial
  | cons first more ih =>
    obtain ⟨id, t⟩ := first
    rw [ofMembers]
    split
    · exact ⟨fun c hc => Option.some.inj hc ▸ hmethod .., all_ofParameters hleaf .., ih ..⟩
    · exact ⟨fun c hc => Option.some.inj hc ▸ hexception .., trivial, ih ..⟩
    · exact ⟨hmember t, all_ofLeaves hleaf .., ih ..⟩
    · split
      · exact ⟨hmember t, trivial, ih ..⟩
      · exact ih ..

/-- What holds of the contexts of declarations holds of all contexts inside the first one of a
statement, which is that of a unit. -/
theorem all_inside_ofStatement (t : SyntaxTree) : ∃ context inside,
    ofStatement t = node (.ofTree 0 t) context inside nil ∧
      (∀ c ∈ context, ∃ unit, c = unitContext unit t) ∧ inside.All p := by
  unfold ofStatement
  split
  · rename_i unit _
    refine ⟨_, _, rfl, fun c hc => ⟨unit, (Option.some.inj hc).symm⟩, ?_⟩
    split
    · exact all_ofMembers hleaf hmember hmethod hexception ..
    · exact all_ofMembers hleaf hmember hmethod hexception ..
    · exact all_ofParameters hleaf ..
    · exact all_ofParameters hleaf ..
    · trivial
    · trivial
  · exact ⟨_, _, rfl, fun c hc => absurd hc (Option.not_mem_none c), trivial⟩

end

/-- Before its tags are bound a statement raises nothing. -/
theorem throws_ofStatement (t : SyntaxTree) : (ofStatement t).All (·.throws = []) := by
  have hleaf (owner : String) (t : SyntaxTree) (c : Context) (hc : c ∈ leafContext? owner t) :
      c.throws = [] := by
    unfold leafContext? at hc
    dsimp only at hc
    split at hc <;> cases hc <;> rfl
  have hmember (t : SyntaxTree) (c : Context) (hc : c ∈ memberContext? t) : c.throws = [] :=
    (Resolver.memberContext?_eq_some (s := {}) hc).2.2.2.1
  obtain ⟨context, inside, hstatement, hunit, hinside⟩ :=
    all_inside_ofStatement hleaf hmember (fun _ _ _ => rfl) (fun _ _ => rfl) t
  rw [hstatement]
  refine ⟨fun c hc => ?_, hinside, trivial⟩
  obtain ⟨unit, rfl⟩ := hunit c hc
  rfl

end DocForest

theorem wellFormed_unitContext (unit : UnitKind) (t : SyntaxTree) :
    (unitContext unit t).WellFormed := by
  intro h
  cases unit with
  | procedure | function => exact nofun
  | _ => exact absurd h Bool.false_ne_true

namespace Resolver

variable {r : Resolver} {t : SyntaxTree}

theorem declare_unit {unit : UnitKind} (hkind : t.kind = .createUnit unit) :
    r.declare t none =
      (some r.table.rows.length, r.declared none (unitContext unit t) r.scopes) := by
  rw [declare, hkind]
  exact allocIn_some ..

/-- A unit whose body is not looked into is visited. -/
theorem visit_body {unit : UnitKind} (hkind : t.kind = .createUnit unit)
    (hunit : unit = .packageBody ∨ unit = .typeBody) {scope : BindingScope}
    (hwarn : r.warnOrphans = scope.warnOrphans) :
    let f := DocForest.node (.ofTree 0 t) (some (unitContext unit t)) .nil .nil
    DocForest.ofStatement t = f ∧
      r.visit t = (some r.table.rows.length, r.visited scope f none id
        (r.scopes.modifyHead (.await (f.pending r.table.rows.length)))) := by
  have hnameable : t.kind.isNameable := by rw [hkind]; rfl
  refine ⟨?_, enter_bare scope hnameable (wellFormed_unitContext unit t) rfl hwarn
    (declare_unit hkind) fun _ _ _ _ _ => ?_⟩
  · unfold DocForest.ofStatement
    rcases hunit with rfl | rfl <;> rw [hkind]
  · rcases hunit with rfl | rfl <;> rw [hkind] <;> rfl

/-- A routine is visited. -/
theorem visit_routine (ht : t.Fits) {unit : UnitKind} (hkind : t.kind = .createUnit unit)
    (hunit : unit = .procedure ∨ unit = .function) {scope : BindingScope}
    (hwarn : r.warnOrphans = scope.warnOrphans) :
    let f := DocForest.node (.ofTree 0 t) (some (unitContext unit t))
      (.ofParameters t.nameOrEmpty.display 0 t) .nil
    DocForest.ofStatement t = f ∧
      r.visit t = (some r.table.rows.length, r.visited scope f none id
        (r.scopes.modifyHead (.await (f.pending r.table.rows.length)))) := by
  have hnameable : t.kind.isNameable := by rw [hkind]; rfl
  have hparameters := visitParameters_leaves scope ht.below 0
    (context?_opened r 0 t none (unitContext unit t) r.scopes) hwarn
  rw [length_opened] at hparameters
  refine ⟨?_, enter_some scope hnameable (wellFormed_unitContext unit t) rfl hwarn
    (declare_unit hkind) ?_⟩
  · unfold DocForest.ofStatement
    rcases hunit with rfl | rfl <;> rw [hkind]
  · have hinside : visitInside (r.opened 0 t none (unitContext unit t) r.scopes) t.kind
        r.table.rows.length (Site.ofTree 0 t).tags = fun _ parameters =>
          (parameters (r.opened 0 t none (unitContext unit t) r.scopes)).bind r.table.rows.length
            (Site.ofTree 0 t).tags := by
      rcases hunit with rfl | rfl <;> rw [hkind] <;> rfl
    rw [congrFun (congrFun hinside _) _]
    exact congrArg (bind · _ _) hparameters

/-- A statement that documents nothing is visited. -/
theorem visit_noContext (hkind : t.kind = .terminator ∨ t.kind = .command ∨ t.kind = .unhandled)
    (scope : BindingScope) :
    let f := DocForest.node (.ofTree 0 t) none .nil .nil
    DocForest.ofStatement t = f ∧
      r.visit t = (none, r.visited scope f none id
        (r.scopes.modifyHead (.await (f.pending r.table.rows.length)))) := by
  have hnameable : t.kind.isNameable := by
    rcases hkind with h | h | h <;> rw [h] <;> rfl
  have hpending : r.scopes.modifyHead
      (.await ((DocForest.node (.ofTree 0 t) none .nil .nil).pending r.table.rows.length)) =
        r.scopes :=
    modifyHead_await_nil _
  refine ⟨?_, (enter_none scope hnameable ?_).trans (congrArg (fun scopes =>
    (none, r.visited scope _ none id scopes)) hpending.symm)⟩
  · unfold DocForest.ofStatement
    rcases hkind with h | h | h <;> rw [h]
  · rcases hkind with h | h | h <;> rw [declare, h] <;> rfl

/-- A statement that ends no unit is visited. -/
theorem visit_statement (ht : t.Fits) (hkind : endsUnit t.kind = false) {scope : BindingScope}
    (hwarn : r.warnOrphans = scope.warnOrphans) :
    let f := DocForest.ofStatement t
    r.visit t =
      (if f.contextCount = 0 then none else some r.table.rows.length,
        r.visited scope f none id
          (r.scopes.modifyHead (.await (f.pending r.table.rows.length)))) := by
  intro f
  have hunit {unit : UnitKind} {inside : DocForest}
      (h : f = .node (.ofTree 0 t) (some (unitContext unit t)) inside .nil ∧ r.visit t =
        (some r.table.rows.length,
          r.visited scope (.node (.ofTree 0 t) (some (unitContext unit t)) inside .nil) none id
            (r.scopes.modifyHead (.await ((DocForest.node (.ofTree 0 t) (some (unitContext unit t))
              inside .nil).pending r.table.rows.length))))) :
      r.visit t = (if f.contextCount = 0 then none else some r.table.rows.length,
        r.visited scope f none id
          (r.scopes.modifyHead (.await (f.pending r.table.rows.length)))) := by
    have hcount : f.contextCount ≠ 0 := by
      rw [h.1]
      simp [DocForest.contextCount]
    rw [if_neg hcount, h.1]
    exact h.2
  have hnone (h : t.kind = .terminator ∨ t.kind = .command ∨ t.kind = .unhandled) :
      r.visit t = (if f.contextCount = 0 then none else some r.table.rows.length,
        r.visited scope f none id
          (r.scopes.modifyHead (.await (f.pending r.table.rows.length)))) := by
    obtain ⟨hf, hvisit⟩ := visit_noContext (r := r) h scope
    rw [show f = _ from hf]
    exact hvisit
  cases hstatement : t.kind with
  | createUnit unit =>
    cases unit with
    | package | objectType => rw [hstatement] at hkind; exact absurd hkind Bool.noConfusion
    | packageBody => exact hunit (visit_body hstatement (.inl rfl) hwarn)
    | typeBody => exact hunit (visit_body hstatement (.inr rfl) hwarn)
    | procedure => exact hunit (visit_routine ht hstatement (.inl rfl) hwarn)
    | function => exact hunit (visit_routine ht hstatement (.inr rfl) hwarn)
  | terminator => exact hnone (.inl hstatement)
  | command => exact hnone (.inr (.inl hstatement))
  | unhandled => exact hnone (.inr (.inr hstatement))
  | _ =>
    have hform := ht.isStatement
    rw [hstatement] at hform
    exact absurd hform Bool.false_ne_true

/-- The members of a package or an object type are visited in a scope of their own, which then
ends. -/
theorem visitInside_unit (ht : t.Fits) {unit : UnitKind} (hkind : t.kind = .createUnit unit)
    (hunit : unit = .package ∨ unit = .objectType) {scope : BindingScope}
    (hwarn : r.warnOrphans = scope.warnOrphans) :
    let n := r.table.rows.length
    let bare := DocForest.ofMembers [] .empty [] (t.numberedChildren 0)
    let seen := r.visited scope (.node (.ofTree 0 t) (some (unitContext unit t)) bare .nil) none id
      r.scopes
    (r.opened 0 t none (unitContext unit t) r.scopes).visitInside t.kind n (Site.ofTree 0 t).tags
        (visitMembers t.below n 1) (visitParameters t.below n 1) =
      closeScope
        { seen with table := { seen.table with
            comments := r.table.comments ++ r.openRecords 0 t bare } }
        ((UnitScope.after {} (n + 1) bare t.children).await
          ((Site.ofTree 0 t).tags.flatMap (Tag.pendingThrows n))) := by
  intro n bare seen
  let c := unitContext unit t
  let opened := r.opened 0 t none c r.scopes
  have hholds (child : NodeKind) (h : t.kind.mayHold child) : child.isMember ∧ child ≠ .body := by
    rw [hkind] at h
    rcases hunit with rfl | rfl
    · simpa [NodeKind.mayHold] using h
    · simpa [NodeKind.mayHold] using h
  have hcontainer : ({ c with parent := none } : Context).kind.isContainer := by
    rcases hunit with rfl | rfl <;> rfl
  let start : Resolver := { opened with scopes := {} :: r.scopes }
  have hmembers : visitMembers t.below n 1 start =
      opened.visited scope bare (some n) (ContextRow.withInside (bare.topIds (n + 1)))
        (UnitScope.after {} (n + 1) bare t.children :: r.scopes) := by
    have hlength : start.table.rows.length = n + 1 := length_opened
    have h : visitMembers t.below n 1 start = _ :=
      visitMembers_members hholds ht.below 1 [] rfl (context?_opened r 0 t none c r.scopes)
        hcontainer (show start.warnOrphans = scope.warnOrphans from hwarn)
    rw [hlength] at h
    exact h
  have hbound : (visitMembers t.below n 1 start).bind n (Site.ofTree 0 t).tags = _ :=
    (congrArg (bind · n _) hmembers).trans (bind_visited (wellFormed_unitContext unit t) rfl hwarn)
  have hend : opened.visitInside t.kind n (Site.ofTree 0 t).tags (visitMembers t.below n 1)
      (visitParameters t.below n 1) =
        ((visitMembers t.below n 1 start).bind n (Site.ofTree 0 t).tags).endUnit := by
    rcases hunit with rfl | rfl <;> rw [hkind] <;> rfl
  rw [hend, hbound]
  rfl

/-- A package or an object type is visited, and the unit ends. -/
theorem visit_unit (ht : t.Fits) {unit : UnitKind} (hkind : t.kind = .createUnit unit)
    (hunit : unit = .package ∨ unit = .objectType)
    (hothers : ∀ s ∈ r.scopes, s.exceptions = [] ∧ s.declared = []) :
    let n := r.table.rows.length
    let inside := DocForest.ofUnit t
    let f := DocForest.node (.ofTree 0 t) (some (unitContext unit t)) inside .nil
    let scope : BindingScope :=
      { exceptions := inside.exceptions (n + 1), warnOrphans := r.warnOrphans }
    DocForest.ofStatement t = f ∧
      r.visit t =
        (some n, { r with
          table := { r.table with
            rows := r.table.rows ++ (f.bind scope).1.rows none n
            comments := r.table.comments ++ f.records r.statement n }
          reports := r.reports ++ (f.bind scope).2.now ++ (f.bind scope).2.late }) := by
  intro n inside f scope
  let bare := DocForest.ofMembers [] .empty [] (t.numberedChildren 0)
  let bindings := t.children.filterMap codeBinding?
  have hbare : inside = bare.withCodes bindings := DocForest.ofUnit_eq t
  have hf : DocForest.ofStatement t = f := by
    unfold DocForest.ofStatement
    rcases hunit with rfl | rfl <;> rw [hkind]
  have hnameable : t.kind.isNameable := by rw [hkind]; rfl
  let inner := DocForest.node (.ofTree 0 t) (some (unitContext unit t)) bare .nil
  let seen := r.visited scope inner none id r.scopes
  let last : Resolver :=
    { seen with table := { seen.table with
        comments := r.table.comments ++ r.openRecords 0 t bare } }
  have hclose : last.closeScope ((UnitScope.after {} (n + 1) bare t.children).await
      ((Site.ofTree 0 t).tags.flatMap (Tag.pendingThrows n))) = { last with
        table := { last.table with rows := r.table.rows ++ (f.bind scope).1.rows none n }
        reports := last.reports ++ (f.bind scope).2.late } := by
    have hthrows := DocForest.throws_ofStatement t
    rw [hf] at hthrows
    unfold f at hthrows ⊢
    rw [hbare] at hthrows ⊢
    exact closeScope_unit (r := last) rfl rfl rfl rfl (List.append_nil _).symm hothers
      (congrArg (·.exceptions (n + 1)) hbare) hthrows
  have hnow : (inner.bind scope).2.now = (f.bind scope).2.now := by
    unfold f
    rw [hbare, DocForest.bind_withCodes]
  have hrecords : inner.records r.statement n = f.records r.statement n := by
    unfold f
    rw [hbare]
    exact congrArg (fun records => _ :: (records ++ []))
      (DocForest.records_withCodes bindings bare r.statement (n + 1)).symm
  have hinside := (visitInside_unit ht hkind hunit rfl).trans hclose
  refine ⟨hf, (enter_opened hnameable (declare_unit hkind) hinside rfl).trans ?_⟩
  show (some n, { last with
    table := { last.table with
      rows := r.table.rows ++ (f.bind scope).1.rows none n
      comments := r.table.comments ++ inner.records r.statement n }
    reports := r.reports ++ (inner.bind scope).2.now ++ (f.bind scope).2.late }) = _
  rw [hnow, hrecords]
  rfl

end Resolver
end SqlDoc

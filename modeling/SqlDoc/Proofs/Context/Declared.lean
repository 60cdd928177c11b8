/-
# What a unit declares

What the name in a `@throws` tag stands for is decided by the exceptions of the unit. Of several
exceptions of one name only the first is given the codes that pragmas bind to the name, but since it
comes first it makes no difference if all are (`throwsTarget_codesOfFirst`). So the names stand for
what the tree of the unit says, wherever the declarations and the pragmas are in it
(`throwsTarget_statementScope`).

Key definitions: `SyntaxTree.exceptions`, `SyntaxTree.isOverloadOf`, `codesOfFirst`.
Key theorems: `throwsTarget_codesOfFirst`, `exceptions_ofMembers`, `exists_ofMembers_append`,
`throwsTarget_statementScope`.
-/
import SqlDoc.Proofs.Context.Recording

namespace SqlDoc

/-! ### Exceptions of a tree -/

/-- The exception that a node declares, if it declares one, with all codes that `bindings` bind to
its name. `id` is the number of its context. -/
def SyntaxTree.declared? (bindings : List (Name × String)) (t : SyntaxTree) (id : Option Nat) :
    Option DeclaredException :=
  if t.kind = .exceptionDecl then
    id.map fun id =>
      { id, name := t.nameOrEmpty.last, codes := boundCodes bindings t.nameOrEmpty.last }
  else none

/-- The exceptions that nodes declare, in order. `number` says which number the context of a node
has. -/
def declaredIn (bindings : List (Name × String)) (number : Nat → Option Nat)
    (members : List (Nat × SyntaxTree)) : List DeclaredException :=
  members.filterMap fun q => q.2.declared? bindings (number q.1)

/-- The exceptions that a unit declares, with the codes that its pragmas bind. -/
def SyntaxTree.exceptions (t : SyntaxTree) (number : Nat → Option Nat) : List DeclaredException :=
  if endsUnit t.kind then
    declaredIn (t.children.filterMap codeBinding?) number (t.numberedChildren 0)
  else []

/-- The tree declares a method of the unqualified name. -/
def SyntaxTree.isOverloadOf (base : String) (t : SyntaxTree) : Bool :=
  match t.kind with
  | .method _ => t.nameOrEmpty.last = base
  | _ => false

theorem SyntaxTree.isOverloadOf_of_method {t : SyntaxTree} {kind : MethodKind}
    (h : t.kind = .method kind) (base : String) :
    t.isOverloadOf base = decide (t.nameOrEmpty.last = base) := by
  rw [isOverloadOf, h]

theorem SyntaxTree.isOverloadOf_of_ne {t : SyntaxTree} (h : ∀ kind, t.kind ≠ .method kind)
    (base : String) : t.isOverloadOf base = false := by
  unfold isOverloadOf
  split
  · exact absurd ‹_› (h _)
  · rfl

/-! ### Codes of the first exception of a name -/

/-- The exceptions, of which only the first of each name has codes. Those of the names `seen` have
none. -/
def codesOfFirst (seen : List String) : List DeclaredException → List DeclaredException
  | [] => []
  | e :: more =>
    { e with codes := if seen.contains e.name then [] else e.codes }
      :: codesOfFirst (e.name :: seen) more

theorem find?_name_codesOfFirst (seen : List String) (exceptions : List DeclaredException)
    (name : String) : ((codesOfFirst seen exceptions).find? (·.name = name)).map (·.id) =
      (exceptions.find? (·.name = name)).map (·.id) := by
  induction exceptions generalizing seen with
  | nil => rfl
  | cons e more ih =>
    rw [codesOfFirst, List.find?_cons, List.find?_cons]
    by_cases hname : e.name = name
    · simp [hname]
    · simp [hname, ih]

/-- The first exception that has a code is the first of its name. -/
theorem find?_code_codesOfFirst {codes : String → List String} {hasCode : String → Bool}
    {exceptions : List DeclaredException} (h : ∀ e ∈ exceptions, e.codes = codes e.name)
    {seen : List String} (hseen : ∀ name ∈ seen, (codes name).any hasCode = false) :
    ((codesOfFirst seen exceptions).find? (·.codes.any hasCode)).map (·.id) =
      (exceptions.find? (·.codes.any hasCode)).map (·.id) := by
  induction exceptions generalizing seen with
  | nil => rfl
  | cons e more ih =>
    obtain ⟨he, hmore⟩ := List.forall_mem_cons.1 h
    rw [codesOfFirst, List.find?_cons, List.find?_cons]
    by_cases hname : e.name ∈ seen
    · have hnone := hseen e.name hname
      rw [← he] at hnone
      have hrest := ih hmore (List.forall_mem_cons.2 ⟨hseen e.name hname, hseen⟩)
      simpa [hname, hnone] using hrest
    · cases hcode : e.codes.any hasCode with
      | true => simp [hname, hcode]
      | false =>
        have hrest := ih hmore (List.forall_mem_cons.2 ⟨he ▸ hcode, hseen⟩)
        simpa [hname, hcode] using hrest

/-- What a name stands for is known by the numbers of the exceptions that are found. -/
theorem throwsTarget_eq (exceptions : List DeclaredException) (name : Name) :
    throwsTarget exceptions name =
      ((exceptions.find? (·.name = name.last)).map (·.id)).elim
        ((errorCode? name.display).elim
          (if predefinedExceptions.contains name.last then .predefined else .unknown)
          fun code => ((exceptions.find? (·.codes.any fun c => errorCode? c = some code)).map
            (·.id)).elim .errorCode .declared)
        .declared := by
  unfold throwsTarget
  cases exceptions.find? (·.name = name.last) with
  | some e => rfl
  | none =>
    cases errorCode? name.display with
    | none => rfl
    | some code =>
      show _ = ((exceptions.find? _).map _).elim _ _
      rw [Option.elim_map]
      rfl

/-- Where the codes depend on the name it makes no difference that only the first has them. -/
theorem throwsTarget_codesOfFirst {codes : String → List String}
    {exceptions : List DeclaredException} (h : ∀ e ∈ exceptions, e.codes = codes e.name)
    (name : Name) :
    throwsTarget (codesOfFirst [] exceptions) name = throwsTarget exceptions name := by
  rw [throwsTarget_eq, throwsTarget_eq, find?_name_codesOfFirst]
  simp only [find?_code_codesOfFirst h (List.forall_mem_nil _)]

/-! ### Exceptions of sites -/

namespace DocForest

/-- The members of a unit are the exceptions that its nodes declare, of which the first of each name
has the codes. -/
theorem exceptions_ofMembers {number : Nat → Option Nat} (statement : Nat)
    (bindings : List (Name × String)) (ids : OverloadIds) (seen : List String)
    (members : List (Nat × SyntaxTree)) (next : Nat)
    (hnumber : ∀ r ∈ (ofMembers bindings ids seen members).records statement next,
      number r.site.node = r.context) :
    (ofMembers bindings ids seen members).exceptions next =
      codesOfFirst seen (declaredIn bindings number members) := by
  induction members generalizing ids seen next with
  | nil => rfl
  | cons first more ih =>
    obtain ⟨node, t⟩ := first
    -- a node that declares no exception
    have hother {context : Option Context} {inside : DocForest} {ids : OverloadIds}
        (hkind : t.kind ≠ .exceptionDecl) (hcodes : ∀ c ∈ context, c.codes? = none)
        (hnumber : ∀ r ∈ (DocForest.node (.ofTree node t) context inside
          (ofMembers bindings ids seen more)).records statement next,
          number r.site.node = r.context) :
        (DocForest.node (.ofTree node t) context inside
          (ofMembers bindings ids seen more)).exceptions next =
          codesOfFirst seen (declaredIn bindings number ((node, t) :: more)) := by
      have hmore := ih ids seen _ fun r hr => hnumber r
        (List.mem_cons_of_mem _ (List.mem_append_right _ hr))
      have hnone : t.declared? bindings (number node) = none := if_neg hkind
      rw [declaredIn, List.filterMap_cons, hnone]
      cases context with
      | none => exact hmore
      | some c =>
        rw [exceptions_some, hcodes c rfl]
        exact hmore
    have hmember (c : Context) (hc : c ∈ memberContext? t) : c.codes? = none :=
      (Resolver.memberContext?_eq_some (s := {}) hc).2.2.2.2.1
    revert hnumber
    rw [ofMembers]
    split
    · rename_i kind hkind
      have hcodes : ∀ c ∈ some (methodContext kind (ids.next t.nameOrEmpty.last).1 t),
          c.codes? = none := fun c hc => by cases hc; rfl
      exact hother (by rw [hkind]; exact NodeKind.noConfusion) hcodes
    · rename_i hkind
      intro hnumber
      have hmore := ih ids (t.nameOrEmpty.last :: seen) (next + 1) fun r hr => hnumber r
        (List.mem_cons_of_mem _ (List.mem_append_right _ hr))
      have hid : number node = some next := hnumber _ List.mem_cons_self
      have hdeclared : t.declared? bindings (number node) = some
          { id := next, name := t.nameOrEmpty.last,
            codes := boundCodes bindings t.nameOrEmpty.last } := by
        rw [SyntaxTree.declared?, if_pos hkind, hid]
        rfl
      rw [declaredIn, List.filterMap_cons, hdeclared, codesOfFirst, exceptions_some]
      exact congrArg _ hmore
    · rename_i hkind
      exact hother (by rw [hkind]; exact NodeKind.noConfusion) hmember
    · rename_i hexception _
      split
      · exact hother hexception hmember
      · rename_i hname
        intro hnumber
        have hnone : t.declared? bindings (number node) = none := if_neg hexception
        rw [declaredIn, List.filterMap_cons, hnone]
        exact ih ids seen next hnumber

/-- The members after the first are those of a unit in which that has been given its id, or has
declared its exception. -/
theorem exists_ofMembers_cons (bindings : List (Name × String)) (ids : OverloadIds)
    (seen : List String) (node : Nat) (t : SyntaxTree) (more : List (Nat × SyntaxTree))
    (statement next : Nat) :
    ∃ ids' seen' next',
      (∀ base, ids'.count base = ids.count base + if t.isOverloadOf base then 1 else 0) ∧
      (∀ name ∈ seen', name ∈ seen ∨ t.kind = .exceptionDecl ∧ t.nameOrEmpty.last = name) ∧
      (ofMembers bindings ids' seen' more).records statement next' ⊆
        (ofMembers bindings ids seen ((node, t) :: more)).records statement next ∧
      (ofMembers bindings ids' seen' more).tops next' ⊆
        (ofMembers bindings ids seen ((node, t) :: more)).tops next := by
  -- the site of the first member comes before those of the others
  have hrecords (site : Site) (context : Option Context) (inside others : DocForest) :
      others.records statement (next + context.toList.length + inside.contextCount) ⊆
        (DocForest.node site context inside others).records statement next :=
    fun r hr => List.mem_cons_of_mem _ (List.mem_append_right _ hr)
  have htops (site : Site) (context : Option Context) (inside others : DocForest) :
      others.tops (next + context.toList.length + inside.contextCount) ⊆
        (DocForest.node site context inside others).tops next :=
    fun q hq => List.mem_append_right _ hq
  have hplain (h : ∀ kind, t.kind ≠ .method kind) (base : String) :
      ids.count base = ids.count base + if t.isOverloadOf base then 1 else 0 := by
    rw [SyntaxTree.isOverloadOf_of_ne h]
    simp
  rw [ofMembers]
  split
  · rename_i kind hkind
    refine ⟨_, seen, _, fun base => ?_, fun _ hname => .inl hname, hrecords .., htops ..⟩
    simp only [SyntaxTree.isOverloadOf_of_method hkind, decide_eq_true_eq]
    exact ids.count_next t.nameOrEmpty.last base
  · rename_i hkind
    refine ⟨ids, _, _, hplain (by simp [hkind]), fun name hname => ?_, hrecords .., htops ..⟩
    rcases List.mem_cons.1 hname with rfl | hname
    · exact .inr ⟨hkind, rfl⟩
    · exact .inl hname
  · rename_i hkind
    exact ⟨ids, seen, _, hplain (by simp [hkind]), fun _ hname => .inl hname, hrecords ..,
      htops ..⟩
  · rename_i hmethod _ _
    split
    · exact ⟨ids, seen, _, hplain hmethod, fun _ hname => .inl hname, hrecords .., htops ..⟩
    · exact ⟨ids, seen, next, hplain hmethod, fun _ hname => .inl hname, List.Subset.refl _,
        List.Subset.refl _⟩

/-- The members after others are those of a unit in which the others have been given their ids and
have declared their exceptions. -/
theorem exists_ofMembers_append (bindings : List (Name × String)) (ids : OverloadIds)
    (seen : List String) (before rest : List (Nat × SyntaxTree)) (statement next : Nat) :
    ∃ ids' seen' next',
      (∀ base, ids'.count base = ids.count base + before.countP (·.2.isOverloadOf base)) ∧
      (∀ name ∈ seen', name ∈ seen ∨
        ∃ q ∈ before, q.2.kind = .exceptionDecl ∧ q.2.nameOrEmpty.last = name) ∧
      (ofMembers bindings ids' seen' rest).records statement next' ⊆
        (ofMembers bindings ids seen (before ++ rest)).records statement next ∧
      (ofMembers bindings ids' seen' rest).tops next' ⊆
        (ofMembers bindings ids seen (before ++ rest)).tops next := by
  induction before generalizing ids seen next with
  | nil =>
    exact ⟨ids, seen, next, fun base => by simp, fun _ h => .inl h, List.Subset.refl _,
      List.Subset.refl _⟩
  | cons first before ih =>
    obtain ⟨node, t⟩ := first
    obtain ⟨ids₁, seen₁, next₁, hids₁, hseen₁, hrecords₁, htops₁⟩ :=
      exists_ofMembers_cons bindings ids seen node t (before ++ rest) statement next
    obtain ⟨ids₂, seen₂, next₂, hids₂, hseen₂, hrecords₂, htops₂⟩ := ih ids₁ seen₁ next₁
    refine ⟨ids₂, seen₂, next₂, fun base => ?_, fun name hname => ?_,
      List.Subset.trans hrecords₂ hrecords₁, List.Subset.trans htops₂ htops₁⟩
    · rw [hids₂, hids₁, List.countP_cons, Nat.add_assoc, Nat.add_comm (List.countP ..)]
    · rcases hseen₂ name hname with hname | ⟨q, hq, hfound⟩
      · exact (hseen₁ name hname).imp_right fun hfound => ⟨_, List.mem_cons_self, hfound⟩
      · exact .inr ⟨q, List.mem_cons_of_mem _ hq, hfound⟩

/-- A package or an object type has its members inside. -/
theorem ofStatement_unit {t : SyntaxTree} (h : endsUnit t.kind) : ∃ unit,
    ofStatement t = node (.ofTree 0 t) (some (unitContext unit t)) (ofUnit t) nil := by
  unfold ofStatement
  rcases Bool.or_eq_true_iff.1 h with h | h <;> rw [of_decide_eq_true h] <;> exact ⟨_, rfl⟩

end DocForest

/-- What a name stands for in a statement is decided by the exceptions that its tree declares. -/
theorem throwsTarget_statementScope (warnOrphans : Bool) {statement next : Nat} {t : SyntaxTree}
    {number : Nat → Option Nat}
    (hnumber : ∀ r ∈ (DocForest.ofStatement t).records statement next,
      number r.site.node = r.context) (name : Name) :
    throwsTarget (statementScope warnOrphans next t).exceptions name =
      throwsTarget (t.exceptions number) name := by
  unfold SyntaxTree.exceptions
  cases hkind : endsUnit t.kind with
  | false => rw [exceptions_statementScope hkind, if_neg Bool.false_ne_true]
  | true =>
    obtain ⟨unit, hf⟩ := DocForest.ofStatement_unit hkind
    let bindings := t.children.filterMap codeBinding?
    have hinside : ∀ r ∈ (DocForest.ofUnit t).records statement (next + 1),
        number r.site.node = r.context := fun r hr =>
      hnumber r (hf ▸ List.mem_cons_of_mem _ (List.mem_append_left _ hr))
    have hexceptions : (statementScope warnOrphans next t).exceptions =
        codesOfFirst [] (declaredIn bindings number (t.numberedChildren 0)) := by
      unfold statementScope
      rw [hf]
      exact DocForest.exceptions_ofMembers statement bindings .empty [] _ _ hinside
    have hcodes : ∀ e ∈ declaredIn bindings number (t.numberedChildren 0),
        e.codes = boundCodes bindings e.name := by
      intro e he
      obtain ⟨q, _, he⟩ := List.mem_filterMap.1 he
      unfold SyntaxTree.declared? at he
      split at he
      · obtain ⟨id, _, rfl⟩ := Option.map_eq_some_iff.1 he
        rfl
      · cases he
    rw [hexceptions, if_pos rfl]
    exact throwsTarget_codesOfFirst hcodes name

end SqlDoc

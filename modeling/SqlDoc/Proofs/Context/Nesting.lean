/-
# What contexts are directly inside what

The contexts directly inside a method are parameters, those inside a record fields, and those inside
a package or an object type members; no other context has one inside it. A relation that is so for
these pairs is so for every pair in a statement (`DocForest.nests_ofStatement`), and if it depends
on the form of the outer context and on the kind of the inner one alone, binding tags keeps it
(`DocForest.Nests.bind`).

Key definitions: `DocForest.Nests`, `MayNest`.
Key theorems: `DocForest.nests_ofStatement`, `DocForest.Nests.bind`,
`DocForest.nests_resolveStatement`.
-/
import SqlDoc.Proofs.Context.Statements

namespace SqlDoc

namespace ContextKind

/-- It is that of a unit that is no routine. -/
def isOuter : ContextKind → Bool
  | package | packageBody | objectType | typeBody => true
  | _ => false

/-- It is that of a member of a package or an object type. -/
def isMember (k : ContextKind) : Bool :=
  !k.isOuter && k != .fieldDecl && k != .parameter

end ContextKind

/-- The relation holds between each context that has others inside it and what may be there. -/
structure MayNest (R : Context → ContextKind → Prop) : Prop where
  sameForm : ∀ {c d : Context} {k : ContextKind}, SameForm c d → R c k → R d k
  method : ∀ (kind : MethodKind) (id : String) (t : SyntaxTree),
    R (methodContext kind id t) .parameter
  record : ∀ t : SyntaxTree, R (.ofNamed .record .record t) .fieldDecl
  routine : ∀ t : SyntaxTree, R (unitContext .procedure t) .parameter ∧
    R (unitContext .function t) .parameter
  container : ∀ (t : SyntaxTree) (k : ContextKind), k.isMember →
    R (unitContext .package t) k ∧ R (unitContext .objectType t) k

namespace DocForest

/-- The relation holds between every context and the kinds of those directly inside it. Sites
without a context have none inside them. -/
def Nests (R : Context → ContextKind → Prop) : DocForest → Prop
  | nil => True
  | node _ none inside rest => inside = nil ∧ rest.Nests R
  | node _ (some c) inside rest =>
    (∀ k ∈ inside.topContexts.map (·.kind), R c k) ∧ inside.Nests R ∧ rest.Nests R

variable {R : Context → ContextKind → Prop} {f : DocForest}

/-- A site with nothing inside it. -/
theorem Nests.bare (site : Site) (context : Option Context) (hf : f.Nests R) :
    (node site context nil f).Nests R := by
  cases context with
  | none => exact ⟨rfl, hf⟩
  | some c => exact ⟨fun _ hk => absurd hk List.not_mem_nil, trivial, hf⟩

/-! ### Binding tags -/

theorem map_kind_topContexts (f : DocForest) (next : Nat) :
    f.topContexts.map (·.kind) = (f.tops next).filterMap fun q => some q.2.kind := by
  rw [← map_snd_tops f next, List.map_map, ← List.filterMap_eq_map]
  rfl

theorem map_kind_bind (scope : BindingScope) (f : DocForest) :
    (f.bind scope).1.topContexts.map (·.kind) = f.topContexts.map (·.kind) := by
  let key (q : Nat × Context) : Option ContextKind := some q.2.kind
  have hkey (id : Nat) (c d : Context) (h : SameForm c d) : key (id, d) = key (id, c) :=
    congrArg some h.kind
  rw [map_kind_topContexts _ 0, map_kind_topContexts _ 0]
  exact filterMap_tops_bind hkey scope f 0

theorem map_kind_describeInside (b : Binding) (c : Context) (f : DocForest) :
    (b.describeInside c f).topContexts.map (·.kind) = f.topContexts.map (·.kind) := by
  let key (q : Nat × Context) : Option ContextKind := some q.2.kind
  have hkey (id : Nat) (c d : Context) (h : SameForm c d) : key (id, d) = key (id, c) :=
    congrArg some h.kind
  rw [map_kind_topContexts _ 0, map_kind_topContexts _ 0]
  exact filterMap_tops_describeInside hkey ..

theorem Nests.modifyFirst (hR : MayNest R) {p : Context → Bool} {g : Context → Context}
    (hg : ∀ c, SameForm c (g c)) (hf : f.Nests R) : (f.modifyFirst p g).Nests R := by
  induction f with
  | nil => trivial
  | node _ context inside rest _ ih =>
    cases context with
    | none => exact ⟨hf.1, ih hf.2⟩
    | some c =>
      unfold DocForest.modifyFirst
      split
      · exact ⟨fun k hk => hR.sameForm (hg c) (hf.1 k hk), hf.2⟩
      · exact ⟨hf.1, hf.2.1, ih hf.2.2⟩

/-- Binding tags changes the form of no context, so the relation holds of the same pairs. -/
theorem Nests.bind (hR : MayNest R) (hf : f.Nests R) (scope : BindingScope) :
    (f.bind scope).1.Nests R := by
  induction f with
  | nil => trivial
  | node site context inside rest ihinside ihrest =>
    cases context with
    | none =>
      obtain ⟨rfl, hrest⟩ := hf
      exact ⟨rfl, ihrest hrest⟩
    | some c =>
      obtain ⟨hkind, hinside, hrest⟩ := hf
      let b := bindTags scope c (inside.bind scope).1.topContexts site.tags
      have hdescribed : (b.describeInside c (inside.bind scope).1).Nests R :=
        b.describeInside_induction (fun _ doc _ hf => hf.modifyFirst hR (sameForm_apply doc)) c
          (ihinside hinside)
      refine ⟨fun k hk => hR.sameForm (sameForm_bindTags ..) (hkind k ?_), hdescribed, ihrest hrest⟩
      have hsame := (map_kind_describeInside b c _).trans (map_kind_bind scope inside)
      exact hsame ▸ hk

/-! ### Parameters and fields -/

theorem nests_ofLeaves (owner : String) (leaves : List (Nat × SyntaxTree)) :
    (ofLeaves owner leaves).Nests R := by
  induction leaves with
  | nil => trivial
  | cons first more ih =>
    unfold ofLeaves
    split
    · exact ih.bare ..
    · exact ih

theorem nests_ofParameters (owner : String) (id : Nat) (t : SyntaxTree) :
    (ofParameters owner id t).Nests R := by
  unfold ofParameters
  split
  · exact nests_ofLeaves ..
  · trivial

theorem mem_topContexts_ofLeaves {owner : String} {leaves : List (Nat × SyntaxTree)} {c : Context}
    (hc : c ∈ (ofLeaves owner leaves).topContexts) :
    ∃ t ∈ leaves.map (·.2), leafContext? owner t = some c := by
  induction leaves with
  | nil => cases hc
  | cons first more ih =>
    unfold ofLeaves at hc
    split at hc
    · rcases List.mem_append.1 hc with hc | hc
      · exact ⟨first.2, List.mem_cons_self, Option.mem_toList.1 hc⟩
      · obtain ⟨t, ht, hcontext⟩ := ih hc
        exact ⟨t, List.mem_cons_of_mem _ ht, hcontext⟩
    · obtain ⟨t, ht, hcontext⟩ := ih hc
      exact ⟨t, List.mem_cons_of_mem _ ht, hcontext⟩

/-- Parameters are inside methods. -/
theorem kind_ofParameters {t : SyntaxTree} (ht : t.below.Fits t.kind) (owner : String) (id : Nat) :
    ∀ d ∈ (ofParameters owner id t).topContexts, d.kind = .parameter := by
  intro d hd
  unfold ofParameters at hd
  split at hd
  · rename_i list parameters hfind
    obtain ⟨leaf, hleaf, hcontext⟩ := mem_topContexts_ofLeaves hd
    have hkind : parameters.kind = .parameterList := by simpa using List.find?_some hfind
    have hmem : parameters ∈ t.below.trees := by
      rw [← Forest.numbered_trees t.below (id + 1)]
      exact List.mem_map_of_mem (List.mem_of_find?_eq_some hfind)
    have hfits := (ht.of_mem hmem).2.1
    rw [SyntaxTree.numberedChildren, Forest.numbered_trees] at hleaf
    have hparent := (hfits.of_mem hleaf).1
    rw [hkind] at hparent
    unfold leafContext? at hcontext
    dsimp only at hcontext
    split at hcontext
    · cases hcontext
      rfl
    · rename_i hfield
      rw [hfield] at hparent
      rcases hparent with h | h <;> exact absurd h Bool.false_ne_true
    · cases hcontext
  · cases hd

/-- Fields are inside records. -/
theorem kind_ofFields {t : SyntaxTree} (ht : t.below.Fits (.typeDecl .record)) (owner : String)
    (id : Nat) :
    ∀ d ∈ (ofLeaves owner (t.numberedChildren id)).topContexts, d.kind = .fieldDecl := by
  intro d hd
  obtain ⟨leaf, hleaf, hcontext⟩ := mem_topContexts_ofLeaves hd
  rw [SyntaxTree.numberedChildren, Forest.numbered_trees] at hleaf
  have hparent := (ht.of_mem hleaf).1
  unfold leafContext? at hcontext
  dsimp only at hcontext
  split at hcontext
  · rename_i hparameter
    rw [hparameter] at hparent
    rcases hparent with h | h <;> exact absurd h Bool.false_ne_true
  · cases hcontext
    rfl
  · cases hcontext

/-! ### Members and statements -/

theorem isMember_ofMembers (bindings : List (Name × String)) (ids : OverloadIds)
    (exceptions : List String) (members : List (Nat × SyntaxTree)) :
    ∀ c ∈ (ofMembers bindings ids exceptions members).topContexts, c.kind.isMember := by
  have hmember (t : SyntaxTree) (c : Context) (hc : c ∈ (memberContext? t).toList) :
      c.kind.isMember := by
    rw [Option.mem_toList] at hc
    unfold memberContext? at hc
    split at hc <;> cases hc <;> first | rfl | (split <;> rfl)
  induction members generalizing ids exceptions with
  | nil => exact fun _ hd => absurd hd List.not_mem_nil
  | cons first more ih =>
    rw [ofMembers]
    split
    · rename_i kind _
      refine List.forall_mem_cons.2 ⟨?_, ih _ _⟩
      cases kind <;> rfl
    · exact List.forall_mem_cons.2 ⟨rfl, ih _ _⟩
    · exact List.forall_mem_append.2 ⟨hmember _, ih _ _⟩
    · dsimp only
      split
      · exact List.forall_mem_append.2 ⟨hmember _, ih _ _⟩
      · exact ih _ _

theorem nests_ofMembers (hR : MayNest R) (bindings : List (Name × String)) (ids : OverloadIds)
    (exceptions : List String) {members : List (Nat × SyntaxTree)}
    (hmembers : ∀ p ∈ members, p.2.below.Fits p.2.kind) :
    (ofMembers bindings ids exceptions members).Nests R := by
  induction members generalizing ids exceptions with
  | nil => trivial
  | cons first more ih =>
    obtain ⟨id, t⟩ := first
    obtain ⟨ht, hmore⟩ := List.forall_mem_cons.1 hmembers
    rw [ofMembers]
    split
    · refine ⟨List.forall_mem_map.2 fun d hd => ?_, nests_ofParameters .., ih _ _ hmore⟩
      rw [kind_ofParameters ht _ _ d hd]
      exact hR.method ..
    · exact (ih _ _ hmore).bare ..
    · rename_i hrecord
      have hcontext : memberContext? t = some (.ofNamed .record .record t) := by
        unfold memberContext?
        rw [hrecord]
      rw [hrecord] at ht
      rw [hcontext]
      refine ⟨List.forall_mem_map.2 fun d hd => ?_, nests_ofLeaves .., ih _ _ hmore⟩
      rw [kind_ofFields ht _ _ d hd]
      exact hR.record t
    · split
      · exact (ih _ _ hmore).bare ..
      · exact ih _ _ hmore

/-- The relation holds throughout a statement. -/
theorem nests_ofStatement (hR : MayNest R) {t : SyntaxTree} (ht : t.Fits) :
    (ofStatement t).Nests R := by
  have hmembers : ∀ p ∈ t.numberedChildren 0, p.2.below.Fits p.2.kind := by
    intro p hp
    have hmem := List.mem_map_of_mem (f := (·.2)) hp
    rw [SyntaxTree.numberedChildren, Forest.numbered_trees] at hmem
    exact (ht.below.of_mem hmem).2.1
  have hunit {c : Context} (hc : ∀ k, k.isMember → R c k) :
      ∀ k ∈ (ofUnit t).topContexts.map (·.kind), R c k :=
    List.forall_mem_map.2 fun d hd => hc _ (isMember_ofMembers _ _ _ _ d hd)
  have hroutine {c : Context} (hc : R c .parameter) :
      ∀ k ∈ (ofParameters t.nameOrEmpty.display 0 t).topContexts.map (·.kind), R c k :=
    List.forall_mem_map.2 fun d hd => kind_ofParameters ht.below _ _ d hd ▸ hc
  unfold ofStatement
  split
  · rename_i unit _
    cases unit with
    | package =>
      exact ⟨hunit fun k hk => (hR.container t k hk).1, nests_ofMembers hR _ _ _ hmembers, trivial⟩
    | objectType =>
      exact ⟨hunit fun k hk => (hR.container t k hk).2, nests_ofMembers hR _ _ _ hmembers, trivial⟩
    | procedure => exact ⟨hroutine (hR.routine t).1, nests_ofParameters .., trivial⟩
    | function => exact ⟨hroutine (hR.routine t).2, nests_ofParameters .., trivial⟩
    | packageBody | typeBody => exact Nests.bare _ (some _) trivial
  · exact ⟨rfl, trivial⟩

/-- It still does when the tags have been bound. -/
theorem nests_resolveStatement (hR : MayNest R) {t : SyntaxTree} (ht : t.Fits) (warnOrphans : Bool)
    (next : Nat) : (resolveStatement warnOrphans next t).1.Nests R :=
  (nests_ofStatement hR ht).bind hR _

end DocForest
end SqlDoc

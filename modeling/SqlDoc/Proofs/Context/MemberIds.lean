/-
# Ids of the members of a container

A method of a package or an object type has the id that the scope hands out: its name, a hyphen and
a number. Any other member has its name as it is displayed. Ids that are handed out differ from each
other, but a quoted name may be one of them, so the ids of all members differ if and only if the
names of the others do and none of them reads like an id that is handed out
(`resolveAll_memberIds`). That the names of all members differ is not enough
(`resolveAll_sharedId`).

Key definitions: `OverloadIds.handOut`, `memberIds`, `ContextTable.inside`.
Key theorems: `overloadId_inj`, `nodup_memberIds`, `ids_ofMembers`, `resolveAll_memberIds`.
-/
import Mathlib.Data.List.Basic
import SqlDoc.Proofs.Context.Paths

namespace SqlDoc

/-! ### Ids that are handed out -/

theorem toList_overloadId (base : String) (n : Nat) :
    (overloadId base n).toList = base.toList ++ '-' :: Nat.toDigits 10 n := by
  have htext : overloadId base n = base ++ "-" ++ n.repr := rfl
  rw [htext, Nat.repr_eq_ofList_toDigits]
  simp

/-- A text is cut at the last mark in one way. -/
theorem eq_of_append_cons_eq {c : Char} {before before' after after' : List Char}
    (hafter : c ∉ after) (hafter' : c ∉ after')
    (h : before ++ c :: after = before' ++ c :: after') : before = before' ∧ after = after' := by
  have hcut (before after : List Char) (hafter : c ∉ after) :
      (before ++ c :: after).reverse.takeWhile (· ≠ c) = after.reverse := by
    have hall : ∀ d ∈ after.reverse, decide (d ≠ c) := by
      intro d hd
      have hne : d ≠ c := fun heq => hafter (heq ▸ List.mem_reverse.1 hd)
      simpa using hne
    rw [List.reverse_append, List.reverse_cons, List.append_assoc,
      List.takeWhile_append_of_pos hall]
    simp
  have hsame : after = after' := by
    rw [← List.reverse_inj, ← hcut before after hafter, h, hcut before' after' hafter']
  subst hsame
  exact ⟨List.append_cancel_right h, rfl⟩

/-- The number stands after the last hyphen, so an id tells its name and its number. -/
theorem overloadId_inj {base other : String} {m n : Nat}
    (h : overloadId base m = overloadId other n) :
    base = other ∧ m = n := by
  have hdigits (n : Nat) : '-' ∉ Nat.toDigits 10 n := by
    intro hmem
    have hdigit : Char.isDigit '-' := Nat.isDigit_of_mem_toDigits (by decide) (by decide) hmem
    exact absurd hdigit (by decide)
  have hlists := congrArg String.toList h
  rw [toList_overloadId, toList_overloadId] at hlists
  obtain ⟨hbase, hnumber⟩ := eq_of_append_cons_eq (hdigits m) (hdigits n) hlists
  refine ⟨String.toList_inj.1 hbase, ?_⟩
  rw [← Nat.ofDigitChars_ten_toDigits (n := m), hnumber, Nat.ofDigitChars_ten_toDigits]

namespace OverloadIds

/-- The ids that are handed out for names in a row. -/
def handOut (ids : OverloadIds) : List String → List String
  | [] => []
  | base :: more => (ids.next base).1 :: (ids.next base).2.handOut more

theorem mem_handOut {ids : OverloadIds} {bases : List String} {id : String} :
    id ∈ ids.handOut bases ↔ ∃ base n, ids.count base < n ∧
      n ≤ ids.count base + bases.count base ∧ id = overloadId base n := by
  induction bases generalizing ids with
  | nil =>
    simp only [handOut, List.not_mem_nil, List.count_nil, false_iff]
    rintro ⟨base, n, hlt, hle, _⟩
    omega
  | cons first more ih =>
    rw [handOut, List.mem_cons, ih]
    simp only [count_next, List.count_cons, beq_iff_eq]
    constructor
    · rintro (rfl | ⟨base, n, hlt, hle, rfl⟩)
      · exact ⟨first, ids.count first + 1, by omega, by rw [if_pos rfl]; omega, rfl⟩
      · exact ⟨base, n, by omega, by omega, rfl⟩
    · rintro ⟨base, n, hlt, hle, rfl⟩
      by_cases hfirst : first = base
      · subst hfirst
        rw [if_pos rfl] at hle
        rcases Nat.eq_or_lt_of_le hlt with hn | hn
        · exact .inl (hn ▸ rfl)
        · exact .inr ⟨first, n, by rw [if_pos rfl]; exact hn, by rw [if_pos rfl]; omega, rfl⟩
      · exact .inr ⟨base, n, by rwa [if_neg hfirst], by omega, rfl⟩

theorem nodup_handOut (ids : OverloadIds) (bases : List String) : (ids.handOut bases).Nodup := by
  induction bases generalizing ids with
  | nil => exact List.nodup_nil
  | cons first more ih =>
    refine List.nodup_cons.2 ⟨fun hmem => ?_, ih _⟩
    obtain ⟨base, n, hlt, _, heq⟩ := mem_handOut.1 hmem
    obtain ⟨rfl, rfl⟩ := overloadId_inj heq
    rw [count_next, if_pos rfl] at hlt
    exact Nat.lt_irrefl _ hlt

end OverloadIds

/-! ### Ids of members -/

/-- The ids of members of the kinds and names: methods are given one each, the others have their
names. -/
def memberIds (ids : OverloadIds) : List (ContextKind × Name) → List String
  | [] => []
  | (kind, name) :: more =>
    if kind.isMethod then (ids.next name.last).1 :: memberIds (ids.next name.last).2 more
    else name.display :: memberIds ids more

/-- First the ids that are handed out and then the names of the others. -/
theorem perm_memberIds (ids : OverloadIds) (members : List (ContextKind × Name)) :
    (memberIds ids members).Perm
      (ids.handOut ((members.filter (·.1.isMethod)).map (·.2.last))
        ++ (members.filter (!·.1.isMethod)).map (·.2.display)) := by
  induction members generalizing ids with
  | nil => exact .nil
  | cons first more ih =>
    obtain ⟨kind, name⟩ := first
    rw [memberIds]
    cases hkind : kind.isMethod with
    | true =>
      simp only [List.filter_cons, hkind, if_pos, Bool.not_true, Bool.false_eq_true, if_neg,
        not_false_iff, List.map_cons, OverloadIds.handOut, List.cons_append]
      exact (ih _).cons _
    | false =>
      simp only [List.filter_cons, hkind, if_pos, Bool.not_false, Bool.false_eq_true, if_neg,
        not_false_iff, List.map_cons]
      exact ((ih ids).cons _).trans List.perm_middle.symm

/-- The ids of all members differ if those of the others do, and none of them is handed out. -/
theorem nodup_memberIds (members : List (ContextKind × Name)) :
    (memberIds .empty members).Nodup ↔
      ((members.filter (!·.1.isMethod)).map (·.2.display)).Nodup ∧
      ∀ m ∈ members.filter (!·.1.isMethod), ∀ base n, 0 < n →
        n ≤ ((members.filter (·.1.isMethod)).map (·.2.last)).count base →
        m.2.display ≠ overloadId base n := by
  have hnone (base : String) : OverloadIds.empty.count base = 0 := rfl
  rw [(perm_memberIds _ members).nodup_iff, List.nodup_append]
  refine ⟨fun ⟨_, hplain, hdisjoint⟩ => ⟨hplain, fun m hm base n hpos hle heq => ?_⟩,
    fun ⟨hplain, hother⟩ =>
      ⟨OverloadIds.nodup_handOut .., hplain, fun id hgiven other hmem heq => ?_⟩⟩
  · have hgiven := OverloadIds.mem_handOut.2
      ⟨base, n, (hnone base).symm ▸ hpos, by rw [hnone, Nat.zero_add]; exact hle, heq⟩
    exact hdisjoint _ hgiven _ (List.mem_map_of_mem hm) rfl
  · obtain ⟨base, n, hlt, hle, rfl⟩ := OverloadIds.mem_handOut.1 hgiven
    obtain ⟨m, hm, rfl⟩ := List.mem_map.1 hmem
    rw [hnone] at hlt hle
    exact hother m hm base n hlt (by omega) heq.symm

/-! ### Sites -/

/-- A package or an object type. -/
def ContextKind.isUnit : ContextKind → Bool
  | package | objectType => true
  | _ => false

/-- What tells a member from others: its kind, its name and its id. -/
def Context.label (c : Context) : ContextKind × Name × String :=
  (c.kind, c.name, c.id)

@[simp] theorem ParamDoc.label_apply (doc : ParamDoc) (c : Context) :
    (doc.apply c).label = c.label := by
  unfold apply
  split <;> rfl

theorem TaggedBy.label {t : Tag} {c d : Context} (h : TaggedBy t c d) : d.label = c.label := by
  cases h <;> rfl

@[simp] theorem label_bindTags (scope : BindingScope) (c : Context) (inside : List Context)
    (tags : List Tag) : (bindTags scope c inside tags).owner.label = c.label := by
  have htag (targets : Option ParamTargets) (b : Binding) (t : Tag) :
      (b.addTag scope targets t).owner.label = b.owner.label := by
    by_cases ht : ∃ name, t.body = .throws (some name)
    · obtain ⟨name, hbody⟩ := ht
      rw [Binding.addTag, hbody]
      rfl
    · exact (taggedBy_addTag scope targets b (not_exists.1 ht)).1.label
  have hfold (b : Binding) :
      (tags.foldl (Binding.addTag scope (c.paramTargets? inside)) b).owner.label =
        b.owner.label := by
    induction tags generalizing b with
    | nil => rfl
    | cons t tags ih => rw [List.foldl_cons, ih, htag]
  have hbound := hfold { owner := c }
  unfold bindTags Binding.finish
  split <;> exact hbound

namespace DocForest

variable {f : DocForest} {scope : BindingScope}

theorem map_label_bound (b : Binding) (c : Context) (f : DocForest) :
    (b.describeInside c (f.bind scope).1).topContexts.map (·.label) =
      f.topContexts.map (·.label) := by
  have hdescribe (f : DocForest) :
      (b.describeInside c f).topContexts.map (·.label) = f.topContexts.map (·.label) := by
    refine b.describeInside_congr (g := (·.topContexts.map (·.label))) (fun q doc f => ?_) c f
    let key (q : Nat × Context) : Option (ContextKind × Name × String) := some q.2.label
    have hkey (id : Nat) (c : Context) : key (id, doc.apply c) = key (id, c) :=
      congrArg some (doc.label_apply c)
    rw [← map_snd_tops _ 0, ← map_snd_tops f 0, List.map_map, List.map_map,
      ← List.filterMap_eq_map]
    exact filterMap_tops_modifyFirst hkey f 0
  rw [hdescribe]
  induction f with
  | nil => rfl
  | node site context inside rest _ ih =>
    cases context with
    | none => simpa [bind, topContexts] using ih
    | some d => simp [bind_some, topContexts, ih]

/-- What a tag does not change of a context that it is about holds of all contexts inside one. -/
theorem All.describeInside {p : Context → Prop} (happly : ∀ doc c, p c → p (ParamDoc.apply doc c))
    (hf : f.All p) (b : Binding) (c : Context) : (b.describeInside c f).All p := by
  refine b.describeInside_induction (fun q doc f hf => ?_) c hf
  induction f with
  | nil => trivial
  | node _ context inside rest _ ih =>
    obtain ⟨hcontext, hinside, hrest⟩ := hf
    cases context with
    | none => exact ⟨hcontext, hinside, ih hrest⟩
    | some d =>
      unfold modifyFirst
      split
      · exact ⟨fun e he => Option.some.inj he ▸ happly doc d (hcontext d rfl), hinside, hrest⟩
      · exact ⟨hcontext, hinside, ih hrest⟩

/-- What tags do not change of a context holds of all contexts when the tags are bound. -/
theorem All.bind {p : Context → Prop} (happly : ∀ doc c, p c → p (ParamDoc.apply doc c))
    (howner : ∀ scope c inside tags, p c → p (bindTags scope c inside tags).owner)
    (hf : f.All p) (scope : BindingScope) : (f.bind scope).1.All p := by
  induction f with
  | nil => trivial
  | node site context inside rest ihinside ihrest =>
    obtain ⟨hcontext, hinside, hrest⟩ := hf
    cases context with
    | none => exact ⟨hcontext, ihinside hinside, ihrest hrest⟩
    | some c =>
      exact ⟨fun d hd => Option.some.inj hd ▸ howner scope c _ _ (hcontext c rfl),
        (ihinside hinside).describeInside happly _ _, ihrest hrest⟩

theorem All.of_mem_rows {p : Context → Prop} (hf : f.All p)
    (hparent : ∀ c parent, p c → p { c with parent }) {parent : Option Nat} {next : Nat}
    {row : ContextRow} (hrow : row ∈ f.rows parent next) : p row.context := by
  induction f generalizing parent next with
  | nil => cases hrow
  | node _ context inside rest ihinside ihrest =>
    obtain ⟨hcontext, hinside, hrest⟩ := hf
    cases context with
    | none => exact (List.mem_append.1 hrow).elim (ihinside hinside) (ihrest hrest)
    | some c =>
      rcases List.mem_cons.1 hrow with rfl | hrow
      · exact hparent c parent (hcontext c rfl)
      · exact (List.mem_append.1 hrow).elim (ihinside hinside) (ihrest hrest)

/-! ### Members of units -/

/-- Members have the ids of members. -/
theorem ids_ofMembers (bindings : List (Name × String)) (ids : OverloadIds)
    (exceptions : List String) (members : List (Nat × SyntaxTree)) :
    let contexts := (ofMembers bindings ids exceptions members).topContexts
    contexts.map (·.id) = memberIds ids (contexts.map fun c => (c.kind, c.name)) := by
  induction members generalizing ids exceptions with
  | nil => rfl
  | cons first more ih =>
    obtain ⟨id, t⟩ := first
    have hnamed (site : Site) (context : Option Context) (inside rest : DocForest)
        (hcontext : ∀ c ∈ context, c.kind.isMethod = false ∧ c.id = c.name.display)
        (hrest : rest.topContexts.map (·.id) =
          memberIds ids (rest.topContexts.map fun c => (c.kind, c.name))) :
        let contexts := (node site context inside rest).topContexts
        contexts.map (·.id) = memberIds ids (contexts.map fun c => (c.kind, c.name)) := by
      cases context with
      | none => exact hrest
      | some c =>
        obtain ⟨hkind, hid⟩ := hcontext c rfl
        simp [topContexts, memberIds, hkind, hid, hrest]
    have hmember (c : Context) (hc : c ∈ memberContext? t) :
        c.kind.isMethod = false ∧ c.id = c.name.display := by
      unfold memberContext? at hc
      split at hc <;> cases hc <;> first | exact ⟨rfl, rfl⟩ | (split <;> exact ⟨rfl, rfl⟩)
    rw [ofMembers]
    split
    · rename_i kind _
      have hkind : (ContextKind.ofMethod kind).isMethod := by cases kind <;> rfl
      have hrest := ih (ids.next t.nameOrEmpty.last).2 exceptions
      simp only [topContexts, Option.toList_some, List.singleton_append, List.map_cons, memberIds,
        hrest]
      exact (if_pos hkind).symm
    · exact hnamed _ _ _ _ (fun c hc => by cases hc; exact ⟨rfl, rfl⟩) (ih ..)
    · exact hnamed _ _ _ _ hmember (ih ..)
    · split
      · exact hnamed _ _ _ _ hmember (ih ..)
      · exact ih ..

/-- The contexts inside a statement are no units. -/
theorem inside_no_unit (t : SyntaxTree) : ∃ context inside,
    ofStatement t = node (.ofTree 0 t) context inside nil ∧ inside.All (·.kind.isUnit = false) := by
  have hleaf (owner : String) (t : SyntaxTree) (c : Context) (hc : c ∈ leafContext? owner t) :
      c.kind.isUnit = false := by
    unfold leafContext? at hc
    dsimp only at hc
    split at hc <;> cases hc <;> rfl
  have hmember (t : SyntaxTree) (c : Context) (hc : c ∈ memberContext? t) :
      c.kind.isUnit = false := by
    unfold memberContext? at hc
    split at hc <;> cases hc <;> first | rfl | (split <;> rfl)
  have hmethod (kind : MethodKind) (id : String) (t : SyntaxTree) :
      (methodContext kind id t).kind.isUnit = false := by
    cases kind <;> rfl
  obtain ⟨context, inside, hstatement, -, hinside⟩ :=
    all_inside_ofStatement hleaf hmember hmethod (fun _ _ => rfl) t
  exact ⟨context, inside, hstatement, hinside⟩

/-- Inside a package or an object type are the members of a unit. -/
theorem inside_ofStatement {t : SyntaxTree} {site : Site} {c : Context} {inside : DocForest}
    (h : ofStatement t = node site (some c) inside nil)
    (hkind : c.kind.isUnit) : inside = ofUnit t := by
  unfold ofStatement at h
  dsimp only at h
  split at h
  · rename_i unit _
    obtain ⟨-, hcontext, hinside, -⟩ := DocForest.node.inj h
    rw [← Option.some.inj hcontext] at hkind
    cases unit with
    | package | objectType => exact hinside.symm
    | _ => cases hkind
  · exact absurd h (by simp)

end DocForest

/-! ### Files -/

theorem exists_of_mem_statementRows {warnOrphans : Bool} {next : Nat} {trees : List SyntaxTree}
    {row : ContextRow} (hrow : row ∈ statementRows id warnOrphans next trees) :
    ∃ t ∈ trees, ∃ before after,
      let n := next + before.length
      let rows := (resolveStatement warnOrphans n t).1.rows none n
      statementRows id warnOrphans next trees = before ++ rows ++ after ∧ row ∈ rows := by
  induction trees generalizing next with
  | nil => cases hrow
  | cons t more ih =>
    rw [statementRows, ite_self, List.map_id] at hrow ⊢
    rcases List.mem_append.1 hrow with hrow | hrow
    · exact ⟨t, List.mem_cons_self, [], _, rfl, hrow⟩
    · obtain ⟨s, hs, before, after, hsplit, hmem⟩ := ih hrow
      let first := (resolveStatement warnOrphans next t).1.rows none next
      have hlength : next + (first ++ before).length =
          next + (resolveStatement warnOrphans next t).1.contextCount + before.length := by
        rw [List.length_append, DocForest.length_rows, Nat.add_assoc]
      refine ⟨s, List.mem_cons_of_mem _ hs, first ++ before, after, ?_⟩
      rw [hlength]
      refine ⟨?_, hmem⟩
      rw [hsplit]
      simp only [List.append_assoc, first]

/-- The row of a package or an object type comes right before those of the members of the unit. -/
theorem exists_unit_of_mem_statementRows {warnOrphans : Bool} {trees : List SyntaxTree}
    {row : ContextRow} (hrow : row ∈ statementRows id warnOrphans 0 trees)
    (hkind : row.context.kind.isUnit) :
    ∃ t ∈ trees, ∃ before after scope, ∃ bound : Binding, ∃ c,
      let inside := bound.describeInside c ((DocForest.ofUnit t).bind scope).1
      statementRows id warnOrphans 0 trees =
          before ++ row :: inside.rows (some before.length) (before.length + 1) ++ after ∧
        row.children = inside.topIds (before.length + 1) := by
  obtain ⟨t, ht, before, after, hsplit, hmem⟩ := exists_of_mem_statementRows hrow
  obtain ⟨context, inside, hstatement, hothers⟩ := DocForest.inside_no_unit t
  let site := Site.ofTree 0 t
  let scope := statementScope warnOrphans before.length t
  rw [Nat.zero_add, fst_resolveStatement, hstatement] at hsplit hmem
  have happly (doc : ParamDoc) (c : Context) (hc : c.kind.isUnit = false) :
      (doc.apply c).kind.isUnit = false := by
    rwa [doc.kind_apply]
  have howner (scope : BindingScope) (c : Context) (inside : List Context) (tags : List Tag)
      (hc : c.kind.isUnit = false) : (bindTags scope c inside tags).owner.kind.isUnit = false := by
    rwa [(sameForm_bindTags ..).kind]
  have hbound : (inside.bind scope).1.All (·.kind.isUnit = false) :=
    hothers.bind happly howner scope
  have hno {f : DocForest} {parent : Option Nat} {next : Nat}
      (hf : f.All (·.kind.isUnit = false)) :
      row ∉ f.rows parent next ++ [] := by
    intro hmem
    rw [List.append_nil] at hmem
    rw [hf.of_mem_rows (fun _ _ h => h) hmem] at hkind
    cases hkind
  cases context with
  | none => exact absurd hmem (hno hbound)
  | some c =>
    let bound := bindTags scope c (inside.bind scope).1.topContexts site.tags
    let described := bound.describeInside c (inside.bind scope).1
    have hdescribed : described.All (·.kind.isUnit = false) :=
      hbound.describeInside happly bound c
    have hrows : ((DocForest.node site (some c) inside .nil).bind scope).1.rows none before.length =
        bound.owner.row none (described.topIds (before.length + 1)) ::
          (described.rows (some before.length) (before.length + 1) ++ []) := by
      rw [DocForest.bind_some]
      rfl
    rw [hrows] at hmem hsplit
    rcases List.mem_cons.1 hmem with rfl | hmem
    · have hform : SameForm c bound.owner := sameForm_bindTags ..
      have hunit : inside = .ofUnit t :=
        DocForest.inside_ofStatement hstatement (by rw [← hform.kind]; exact hkind)
      subst hunit
      rw [List.append_nil] at hsplit
      exact ⟨t, ht, before, after, scope, bound, c, hsplit, rfl⟩
    · exact absurd hmem (hno hdescribed)

namespace ContextTable

variable (t : ContextTable)

/-- The contexts directly inside that of a row. -/
def inside (row : ContextRow) : List Context :=
  row.children.filterMap t.context?

variable {t}

theorem filterMap_topIds {before after : List ContextRow} {f : DocForest} {parent : Option Nat}
    (hrows : t.rows = before ++ f.rows parent before.length ++ after) :
    (f.topIds before.length).filterMap t.context? =
      f.topContexts.map fun c => { c with parent } := by
  have hfound (q : Nat × Context) (hq : q ∈ f.tops before.length) :
      t.context? q.1 = some { q.2 with parent } := by
    obtain ⟨row, hrow, hcontext⟩ :
        ∃ row, (before ++ (f.rows parent before.length).map id)[q.1]? = some row ∧
          row.context = { q.2 with parent } :=
      DocForest.getElem?_rows_tops rfl hq id
    rw [List.map_id] at hrow
    have hlt := (List.getElem?_eq_some_iff.1 hrow).1
    rw [context?, hrows, List.getElem?_append_left hlt, hrow, Option.map_some, hcontext]
  rw [DocForest.topIds, ← DocForest.map_snd_tops f before.length, List.filterMap_map, List.map_map,
    ← List.filterMap_eq_map]
  exact List.filterMap_congr hfound

end ContextTable

/-- The members of a package or an object type have the ids of members. These differ if and only if
the names of those that are no methods do, and none of these names is an id that is handed out. -/
theorem resolveAll_memberIds (source : String) (filename : Option String) (warnOrphans : Bool) :
    let table := (resolveAll (parseSql source filename).trees warnOrphans).1
    ∀ row ∈ table.rows, row.context.kind = .package ∨ row.context.kind = .objectType →
      let members := table.inside row
      let plain := members.filter (!·.kind.isMethod)
      let methods := members.filter (·.kind.isMethod)
      members.map (·.id) = memberIds .empty (members.map fun c => (c.kind, c.name)) ∧
        ((members.map (·.id)).Nodup ↔ (plain.map (·.name.display)).Nodup ∧
          ∀ c ∈ plain, ∀ base n, 0 < n → n ≤ (methods.map (·.name.last)).count base →
            c.name.display ≠ overloadId base n) := by
  intro table row hrow hkind members plain methods
  let trees := (parseSql source filename).trees
  have hrows : table.rows = statementRows id warnOrphans 0 trees :=
    congrArg (·.1.rows) (resolveAll_eq (parseSql_fits source filename) warnOrphans)
  rw [hrows] at hrow
  have hunit : row.context.kind.isUnit := by rcases hkind with h | h <;> rw [h] <;> rfl
  obtain ⟨t, _, before, after, scope, bound, c, hsplit, hchildren⟩ :=
    exists_unit_of_mem_statementRows hrow hunit
  have hlabels : members.map (·.label) = (DocForest.ofUnit t).topContexts.map (·.label) := by
    let inside := bound.describeInside c ((DocForest.ofUnit t).bind scope).1
    have hbefore : (before ++ [row]).length = before.length + 1 := by simp
    have hinside : table.rows =
        before ++ [row] ++ inside.rows (some before.length) (before ++ [row]).length ++ after := by
      rw [hrows, hsplit, hbefore]
      simp [inside]
    have hmembers := table.filterMap_topIds hinside
    rw [hbefore, ← hchildren] at hmembers
    unfold members ContextTable.inside
    rw [hmembers, List.map_map]
    exact DocForest.map_label_bound bound c (.ofUnit t)
  have hids : members.map (·.id) = memberIds .empty (members.map fun c => (c.kind, c.name)) := by
    have hmember := DocForest.ids_ofMembers (t.children.filterMap codeBinding?) .empty []
      (t.numberedChildren 0)
    have hsame {β : Type} (key : ContextKind × Name × String → β) :
        members.map (key ·.label) = (DocForest.ofUnit t).topContexts.map (key ·.label) := by
      simpa only [List.map_map, Function.comp_def] using congrArg (List.map key) hlabels
    exact (hsame (·.2.2)).trans (hmember.trans
      (congrArg _ (hsame fun label => (label.1, label.2.1)).symm))
  refine ⟨hids, ?_⟩
  rw [hids, nodup_memberIds]
  have hfilter (p : ContextKind → Bool) :
      (members.map fun c => (c.kind, c.name)).filter (p ·.1) =
        (members.filter (p ·.kind)).map fun c => (c.kind, c.name) := List.filter_map
  rw [hfilter (!·.isMethod), hfilter (·.isMethod), List.map_map, List.map_map, List.forall_mem_map]
  exact Iff.rfl

/-- Overloads and a variable that no overload has the id of. -/
theorem resolveAll_memberIds_overloads :
    let table := (resolveAll
      (parseSql "CREATE PACKAGE p IS n NUMBER; PROCEDURE f; PROCEDURE f; END;" none).trees).1
    ∃ row ∈ table.rows, row.context.kind = .package ∧
      (table.inside row).map (·.id) = ["N", "F-1", "F-2"] ∧
      ∀ c ∈ (table.inside row).filter (!·.kind.isMethod), ∀ base n, 0 < n →
        n ≤ (((table.inside row).filter (·.kind.isMethod)).map (·.name.last)).count base →
        c.name.display ≠ overloadId base n := by
  intro table
  have hrow : ∃ row ∈ table.rows, row.context.kind = .package ∧
      (table.inside row).map (·.id) = ["N", "F-1", "F-2"] := by decide +kernel
  obtain ⟨row, hmem, hkind, hids⟩ := hrow
  have hnodup : ((table.inside row).map (·.id)).Nodup := by
    rw [hids]
    decide
  exact ⟨row, hmem, hkind, hids,
    ((resolveAll_memberIds _ none true row hmem (.inl hkind)).2.1 hnodup).2⟩

/-- A quoted name may be the id that a method is given, though all members have different names. -/
theorem resolveAll_sharedId :
    let table := (resolveAll
      (parseSql "CREATE PACKAGE p IS \"F-1\" NUMBER; PROCEDURE f; END;" none).trees).1
    ∃ row ∈ table.rows, row.context.kind = .package ∧
      ((table.inside row).map (·.name.last)).Nodup ∧
      ¬((table.inside row).map (·.id)).Nodup := by
  decide +kernel

end SqlDoc

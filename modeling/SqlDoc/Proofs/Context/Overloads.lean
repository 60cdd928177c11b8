/-
# Overloads are numbered by declaration

A scope counts the methods of each name as it meets them. The members before one have moved the
count of its name by as many methods of the name as there are among them, and nothing else has moved
it (`DocForest.exists_ofMembers_append`). So the method that is the `k`-th of its name in a package
or an object type has the number `k`, whatever stands between the methods
(`resolveAll_overloads`). Names may hold hyphens and digits: the number stands after the last
hyphen, so that no two methods of one unit have the same id.

Key definitions: `NodeKind.isMethod`, `ContextTable.idAt?`.
Key theorems: `exists_split_of_getElem?_filter`, `ContextTable.Holds.exists_methodContext`,
`resolveAll_overloads`.
-/
import SqlDoc.Proofs.Context.MemberIds
import SqlDoc.Proofs.Context.Throwing

namespace SqlDoc

def NodeKind.isMethod : NodeKind → Bool
  | method _ => true
  | _ => false

theorem NodeKind.isMethod_iff {kind : NodeKind} : kind.isMethod ↔ ∃ k, kind = .method k := by
  cases kind <;> simp [isMethod]

/-- Of the elements with a property the one at the place `i` has `i` of them before it. -/
theorem exists_split_of_getElem?_filter {α : Type} {p : α → Bool} {l : List α} {i : Nat} {a : α}
    (h : (l.filter p)[i]? = some a) :
    ∃ before after, l = before ++ a :: after ∧ before.countP p = i ∧ p a := by
  induction l generalizing i with
  | nil => simp at h
  | cons b l ih =>
    by_cases hb : p b
    · rw [List.filter_cons_of_pos hb] at h
      cases i with
      | zero =>
        obtain rfl : b = a := by simpa using h
        exact ⟨[], l, rfl, rfl, hb⟩
      | succ i =>
        obtain ⟨before, after, rfl, hcount, ha⟩ := ih (by simpa using h)
        exact ⟨b :: before, after, rfl, by rw [List.countP_cons_of_pos hb, hcount], ha⟩
    · rw [List.filter_cons_of_neg hb] at h
      obtain ⟨before, after, rfl, hcount, ha⟩ := ih h
      exact ⟨b :: before, after, rfl, by rw [List.countP_cons_of_neg hb, hcount], ha⟩

namespace ContextTable

/-- The id of the context of a node, if it has one. -/
def idAt? (table : ContextTable) (statement node : Nat) : Option String :=
  ((table.contextAt? statement node).bind table.context?).map (·.id)

variable {table : ContextTable} {warnOrphans : Bool} {statement next : Nat} {t : SyntaxTree}

/-- The context of a method has the number that comes after those of the methods of its name that
are declared before it. -/
theorem Holds.exists_methodContext (h : table.Holds warnOrphans statement next t) (ht : t.Fits)
    (hunit : endsUnit t.kind) {node : Nat} {m : SyntaxTree}
    {before after : List (Nat × SyntaxTree)}
    (hmembers : t.numberedChildren 0 = before ++ (node, m) :: after) {kind : MethodKind}
    (hkind : m.kind = .method kind) :
    ∃ number c, table.contextAt? statement node = some number ∧ table.context? number = some c ∧
      c.kind = .ofMethod kind ∧ c.name = m.nameOrEmpty ∧
      c.id = overloadId m.nameOrEmpty.last
        (before.countP (·.2.isOverloadOf m.nameOrEmpty.last) + 1) := by
  obtain ⟨ids, seen, first, hids, -, hrecords, htops⟩ := DocForest.exists_ofMembers_append
    (t.children.filterMap codeBinding?) .empty [] before ((node, m) :: after) statement (next + 1)
  rw [← hmembers] at hrecords htops
  rw [DocForest.ofMembers, hkind] at hrecords htops
  obtain ⟨d, hnumber, hd, hsame⟩ := h.exists_context ht hunit (hrecords List.mem_cons_self) rfl
    (htops List.mem_cons_self) (fun c => (c.kind, c.name, c.id))
    (fun c d hform => by rw [hform.kind, hform.name, hform.id]) fun _ _ => rfl
  obtain ⟨hdkind, hsame⟩ := Prod.mk.inj hsame
  obtain ⟨hname, hid⟩ := Prod.mk.inj hsame
  have hcount : ids.count m.nameOrEmpty.last =
      before.countP (·.2.isOverloadOf m.nameOrEmpty.last) := by
    rw [hids]
    exact Nat.zero_add _
  refine ⟨first, d, hnumber, hd, hdkind, hname, hid.trans ?_⟩
  rw [← hcount]
  rfl

theorem Holds.pairwise_ids (h : table.Holds warnOrphans statement next t) (ht : t.Fits)
    (hunit : endsUnit t.kind) :
    ((t.numberedChildren 0).filter (·.2.kind.isMethod)).Pairwise fun q r =>
      table.idAt? statement q.1 ≠ table.idAt? statement r.1 := by
  let members := t.numberedChildren 0
  have hid (i : Nat) (hi : i < members.length) (hmethod : members[i].2.kind.isMethod) :
      table.idAt? statement members[i].1 = some (overloadId members[i].2.nameOrEmpty.last
        ((members.take i).countP (·.2.isOverloadOf members[i].2.nameOrEmpty.last) + 1)) := by
    obtain ⟨kind, hkind⟩ := NodeKind.isMethod_iff.1 hmethod
    have hmembers : members = members.take i ++ members[i] :: members.drop (i + 1) := by
      rw [← List.drop_eq_getElem_cons, List.take_append_drop]
    obtain ⟨number, c, hnumber, hc, -, -, hcid⟩ := h.exists_methodContext ht hunit hmembers hkind
    have hnumber : table.contextAt? statement members[i].1 = some number := hnumber
    rw [idAt?, hnumber, Option.bind_some, hc]
    exact congrArg some hcid
  rw [List.pairwise_filter, List.pairwise_iff_getElem]
  intro i j hi hj hij hmethod hmethod' heq
  rw [hid i hi hmethod, hid j hj hmethod'] at heq
  obtain ⟨hbase, hnumber⟩ := overloadId_inj (Option.some.inj heq)
  -- the later of two methods of one name has the earlier before it
  obtain ⟨kind, hkind⟩ := NodeKind.isMethod_iff.1 hmethod
  let p (q : Nat × SyntaxTree) : Bool := q.2.isOverloadOf members[i].2.nameOrEmpty.last
  have hfirst : (members.take (i + 1)).countP p = (members.take i).countP p + 1 := by
    have hp : p members[i] = true := by
      show members[i].2.isOverloadOf _ = true
      rw [SyntaxTree.isOverloadOf_of_method hkind]
      exact decide_eq_true rfl
    rw [List.take_succ_eq_append_getElem hi, List.countP_append, List.countP_singleton, if_pos hp]
  have hle : (members.take (i + 1)).countP p ≤ (members.take j).countP p :=
    (List.take_prefix_take_left (by omega)).sublist.countP_le
  rw [← hbase] at hnumber
  have hsame : (members.take i).countP p + 1 = (members.take j).countP p + 1 := hnumber
  omega

end ContextTable

/-- Of the methods of a package or an object type that have one unqualified name the first has the
number one, and each has the number after that of the one before it, whatever stands between them.
The ids of all methods differ. -/
theorem resolveAll_overloads (source : String) (filename : Option String) (warnOrphans : Bool)
    {k : Nat} {t : SyntaxTree} (ht : (parseSql source filename).trees[k]? = some t)
    (hunit : t.kind = .createUnit .package ∨ t.kind = .createUnit .objectType) :
    let table := (resolveAll (parseSql source filename).trees warnOrphans).1
    let members := t.numberedChildren 0
    (∀ base i node m, (members.filter (·.2.isOverloadOf base))[i]? = some (node, m) →
      ∃ number c, table.contextAt? k node = some number ∧ table.context? number = some c ∧
        c.kind.isMethod ∧ c.name = m.nameOrEmpty ∧ c.id = overloadId base (i + 1)) ∧
    ((members.filter (·.2.kind.isMethod)).map fun q => table.idAt? k q.1).Nodup := by
  intro table members
  have hfits := parseSql_fits source filename
  have htree := hfits t (List.mem_of_getElem? ht)
  have hends : endsUnit t.kind := by
    rcases hunit with h | h <;> rw [h] <;> rfl
  have hholds := holds_resolveAll hfits warnOrphans ht
  refine ⟨fun base i node m hm => ?_, List.pairwise_map.2 (hholds.pairwise_ids htree hends)⟩
  obtain ⟨before, after, hmembers, hcount, hoverload⟩ := exists_split_of_getElem?_filter hm
  obtain ⟨kind, hkind, hbase⟩ : ∃ kind, m.kind = .method kind ∧ m.nameOrEmpty.last = base := by
    unfold SyntaxTree.isOverloadOf at hoverload
    split at hoverload
    · exact ⟨_, ‹_›, of_decide_eq_true hoverload⟩
    · cases hoverload
  obtain ⟨number, c, hnumber, hc, hckind, hname, hid⟩ :=
    hholds.exists_methodContext htree hends hmembers hkind
  refine ⟨number, c, hnumber, hc, ?_, hname, ?_⟩
  · rw [hckind]
    cases kind <;> rfl
  · rw [hid, hbase, hcount]

/-- Overloads among other members, and a method whose name looks like the id of an overload. -/
theorem resolveAll_overloads_hyphen :
    let source := "CREATE PACKAGE p IS PROCEDURE f; n NUMBER; FUNCTION \"F-1\" RETURN NUMBER;\n" ++
      "CURSOR c IS SELECT 1 FROM dual; PROCEDURE \"F\"(f NUMBER); END;"
    let table := (resolveAll (parseSql source none).trees true).1
    ∃ t, (parseSql source none).trees[0]? = some t ∧ t.kind = .createUnit .package ∧
      ∃ node m number c, ((t.numberedChildren 0).filter (·.2.isOverloadOf "F"))[1]? =
          some (node, m) ∧
        table.contextAt? 0 node = some number ∧ table.context? number = some c ∧
        c.name = m.nameOrEmpty ∧ c.id = "F-2" := by
  intro source table
  have hfacts : (parseSql source none).trees.map (fun t =>
      (t.kind, ((t.numberedChildren 0).filter (·.2.isOverloadOf "F"))[1]?.isSome)) =
      [(.createUnit .package, true)] := by decide +kernel
  obtain ⟨t, htrees, hfacts⟩ := List.map_eq_singleton_iff.1 hfacts
  obtain ⟨hpackage, hsecond⟩ := Prod.mk.inj hfacts
  obtain ⟨⟨node, m⟩, hm⟩ := Option.isSome_iff_exists.1 hsecond
  have ht : (parseSql source none).trees[0]? = some t := by
    rw [htrees]
    rfl
  obtain ⟨number, c, hnumber, hc, -, hname, hid⟩ :=
    (resolveAll_overloads source none true ht (.inl hpackage)).1 "F" 1 node m hm
  exact ⟨t, ht, hpackage, node, m, number, c, hm, hnumber, hc, hname, hid⟩

end SqlDoc

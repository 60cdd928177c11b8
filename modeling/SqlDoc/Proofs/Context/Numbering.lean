/-
# Rows that name each other

The rows of resolved sites stand under the numbers by which they name each other: the row of a
context lists the contexts that have its number as the one around them, in order, and a context
comes after the one around it (`DocForest.linked_rows`). Rows of contexts inside another may be put
after its row, and rows of contexts in the same place one after the other.

Key definitions: `listed`, `Linked`, `DocForest.Shaped`.
Key theorems: `Linked.cons`, `Linked.append`, `DocForest.linked_rows`,
`DocForest.shaped_resolveStatement`.
-/
import SqlDoc.Proofs.Context.Nesting

namespace SqlDoc

/-- The kind of the contexts that a method or a record has inside it. -/
def Context.memberKind? (c : Context) : Option ContextKind :=
  match c.detail with
  | .method .. => some .parameter
  | .record => some .fieldDecl
  | _ => none

theorem Context.isSome_memberKind? (c : Context) :
    c.memberKind?.isSome = c.detail.hasMembers := by
  unfold memberKind? Detail.hasMembers
  cases c.detail <;> rfl

theorem SameForm.memberKind? {c d : Context} (h : SameForm c d) :
    d.memberKind? = c.memberKind? := by
  have hnoun (c : Context) : c.memberKind? =
      if c.targetNoun? = some "parameter" then some .parameter
      else if c.targetNoun? = some "field" then some .fieldDecl else none := by
    have hattribute : (if c.kind = .objectType then some "attribute" else none) ≠ some "parameter" ∧
        (if c.kind = .objectType then some "attribute" else none) ≠ some "field" := by
      split <;> decide
    unfold Context.memberKind? Context.targetNoun?
    cases c.detail with
    | method | record => rfl
    | _ => exact ((if_neg hattribute.1).trans (if_neg hattribute.2)).symm
  rw [hnoun, hnoun, h.noun]

/-! ### Rows -/

/-- The numbers and kinds of the contexts inside `parent`, if the first row has number `next`. -/
def listed (parent : Option Nat) (next : Nat) : List ContextRow → List (Nat × ContextKind)
  | [] => []
  | row :: rows =>
    if row.context.parent = parent then
      (next, row.context.kind) :: listed parent (next + 1) rows
    else listed parent (next + 1) rows

variable {parent : Option Nat} {next : Nat} {rows more : List ContextRow}

theorem listed_append (parent : Option Nat) (next : Nat) (rows more : List ContextRow) :
    listed parent next (rows ++ more) =
      listed parent next rows ++ listed parent (next + rows.length) more := by
  induction rows generalizing next with
  | nil => rfl
  | cons row rows ih =>
    rw [List.cons_append, listed, listed, ih, List.length_cons, Nat.add_right_comm, Nat.add_assoc]
    split <;> rfl

theorem listed_eq_nil (h : ∀ row ∈ rows, row.context.parent ≠ parent) :
    listed parent next rows = [] := by
  induction rows generalizing next with
  | nil => rfl
  | cons row rows ih =>
    obtain ⟨hrow, hrows⟩ := List.forall_mem_cons.1 h
    rw [listed, if_neg hrow, ih hrows]

/-- The rows of contexts inside `parent` and of those inside these name each other, if the first has
number `next`. Those directly inside `parent` are `tops`. -/
structure Linked (parent : Option Nat) (next : Nat) (rows : List ContextRow)
    (tops : List (Nat × ContextKind)) : Prop where
  /-- The context around one comes before it. -/
  around : ∀ i row, rows[i]? = some row →
    row.context.parent = parent ∨ ∃ p, row.context.parent = some p ∧ next ≤ p ∧ p < next + i
  listed_eq : listed parent next rows = tops
  children : ∀ i row, rows[i]? = some row →
    row.children = (listed (some (next + i)) next rows).map (·.1)
  members : ∀ i row, rows[i]? = some row → ∀ kind ∈ row.context.memberKind?,
    row.members = ((listed (some (next + i)) next rows).filter (·.2 = kind)).map (·.1)

namespace Linked

variable {tops others : List (Nat × ContextKind)}

theorem nil : Linked parent next [] [] where
  around i row hi := by simp at hi
  listed_eq := rfl
  children i row hi := by simp at hi
  members i row hi := by simp at hi

/-- No context of the rows is directly inside one with a number that is neither that of `parent` nor
that of a row. -/
theorem listed_other (h : Linked parent next rows tops) {p : Nat} (hparent : parent ≠ some p)
    (hp : p < next ∨ next + rows.length ≤ p) (id : Nat) : listed (some p) id rows = [] := by
  refine listed_eq_nil fun row hrow heq => ?_
  obtain ⟨i, hi⟩ := List.mem_iff_getElem?.1 hrow
  have hlt := (List.getElem?_eq_some_iff.1 hi).1
  rcases h.around i row hi with hsame | ⟨q, hq, hle, hbelow⟩
  · exact hparent (hsame.symm.trans heq)
  · have : q = p := Option.some.inj (hq.symm.trans heq)
    omega

/-- The rows of contexts in one place, one after the other. -/
theorem append (h : Linked parent next rows tops)
    (hmore : Linked parent (next + rows.length) more others) (hparent : ∀ p ∈ parent, p < next) :
    Linked parent next (rows ++ more) (tops ++ others) := by
  have hne {p : Nat} (hp : next ≤ p) : parent ≠ some p := fun heq => by
    have := hparent p heq
    omega
  -- What stands in the row of a context is found on the side where the row is.
  have hside (i : Nat) (row : ContextRow) (hi : (rows ++ more)[i]? = some row) :
      (rows[i]? = some row ∧
        listed (some (next + i)) next (rows ++ more) = listed (some (next + i)) next rows) ∨
      ∃ j, i = rows.length + j ∧ more[j]? = some row ∧
        listed (some (next + i)) next (rows ++ more) =
          listed (some (next + i)) (next + rows.length) more := by
    rw [listed_append]
    rcases Nat.lt_or_ge i rows.length with hlt | hge
    · left
      refine ⟨(List.getElem?_append_left hlt).symm.trans hi, ?_⟩
      rw [hmore.listed_other (hne (by omega)) (by omega), List.append_nil]
    · right
      refine ⟨i - rows.length, by omega, (List.getElem?_append_right hge).symm.trans hi, ?_⟩
      rw [h.listed_other (hne (by omega)) (by omega), List.nil_append]
  constructor
  case around =>
    intro i row hi
    rcases hside i row hi with ⟨hrow, _⟩ | ⟨j, rfl, hrow, _⟩
    · exact h.around i row hrow
    · rcases hmore.around j row hrow with hsame | ⟨p, hp, hle, hlt⟩
      · exact .inl hsame
      · exact .inr ⟨p, hp, by omega, by omega⟩
  case listed_eq => rw [listed_append, h.listed_eq, hmore.listed_eq]
  case children =>
    intro i row hi
    rcases hside i row hi with ⟨hrow, hlisted⟩ | ⟨j, rfl, hrow, hlisted⟩
    · rw [hlisted, h.children i row hrow]
    · rw [hlisted, hmore.children j row hrow, Nat.add_assoc]
  case members =>
    intro i row hi kind hkind
    rcases hside i row hi with ⟨hrow, hlisted⟩ | ⟨j, rfl, hrow, hlisted⟩
    · rw [hlisted, h.members i row hrow kind hkind]
    · rw [hlisted, hmore.members j row hrow kind hkind, Nat.add_assoc]

/-- The row of a context and after it the rows of those inside it. -/
theorem cons (h : Linked (some next) (next + 1) rows tops) (hparent : ∀ p ∈ parent, p < next)
    {c : Context} (hkind : ∀ kind ∈ c.memberKind?, ∀ top ∈ tops, top.2 = kind) :
    Linked parent next (c.row parent (tops.map (·.1)) :: rows) [(next, c.kind)] := by
  let row := c.row parent (tops.map (·.1))
  have hne : parent ≠ some next := fun heq => Nat.lt_irrefl next (hparent next heq)
  have hhead (i : Nat) (hi : next ≤ i) :
      listed (some i) next (row :: rows) = listed (some i) (next + 1) rows := by
    refine if_neg fun heq => ?_
    have := hparent i heq
    omega
  constructor
  case around =>
    intro i found hi
    cases i with
    | zero =>
      cases hi
      exact .inl rfl
    | succ i =>
      rcases h.around i found hi with hsame | ⟨p, hp, hle, hlt⟩
      · exact .inr ⟨next, hsame, by omega, by omega⟩
      · exact .inr ⟨p, hp, by omega, by omega⟩
  case listed_eq =>
    have hrest : listed parent (next + 1) rows = [] := by
      refine listed_eq_nil fun found hfound heq => ?_
      obtain ⟨i, hi⟩ := List.mem_iff_getElem?.1 hfound
      rcases h.around i found hi with hsame | ⟨p, hp, hle, _⟩
      · exact hne (heq.symm.trans hsame)
      · have := hparent p (heq.symm.trans hp)
        omega
    exact (if_pos rfl).trans (congrArg _ hrest)
  case children =>
    intro i found hi
    cases i with
    | zero =>
      cases hi
      rw [Nat.add_zero, hhead next (Nat.le_refl _), h.listed_eq]
      rfl
    | succ i =>
      rw [hhead _ (Nat.le_add_right ..), h.children i found hi, Nat.add_right_comm, Nat.add_assoc]
  case members =>
    intro i found hi kind hmember
    cases i with
    | zero =>
      cases hi
      have hall : tops.filter (·.2 = kind) = tops :=
        List.filter_eq_self.2 fun top htop => by simpa using hkind kind hmember top htop
      have hmembers : c.detail.hasMembers := by
        rw [← c.isSome_memberKind?]
        exact Option.isSome_of_mem hmember
      rw [Nat.add_zero, hhead next (Nat.le_refl _), h.listed_eq, hall]
      exact if_pos hmembers
    | succ i =>
      rw [hhead _ (Nat.le_add_right ..), h.members i found hi kind hmember, Nat.add_right_comm,
        Nat.add_assoc]

end Linked

/-! ### Sites -/

namespace DocForest

/-- Only sites with a context have others inside them. Those inside methods are parameters and those
inside records fields. -/
def Shaped : DocForest → Prop
  | nil => True
  | node _ none inside rest => inside = nil ∧ rest.Shaped
  | node _ (some c) inside rest =>
    (∀ kind ∈ c.memberKind?, ∀ d ∈ inside.topContexts, d.kind = kind) ∧ inside.Shaped ∧ rest.Shaped

variable {f : DocForest}

/-- The rows of sites name each other. -/
theorem linked_rows (hf : f.Shaped) (hparent : ∀ p ∈ parent, p < next) :
    Linked parent next (f.rows parent next) ((f.tops next).map fun top => (top.1, top.2.kind)) := by
  induction f generalizing parent next with
  | nil => exact .nil
  | node site context inside rest ihinside ihrest =>
    cases context with
    | none =>
      obtain ⟨rfl, hrest⟩ := hf
      exact ihrest hrest hparent
    | some c =>
      obtain ⟨hkind, hinside, hrest⟩ := hf
      have hbefore (p : Nat) (hp : p ∈ some next) : p < next + 1 := by
        rw [← Option.some.inj hp]
        exact Nat.lt_succ_self next
      have hids : ((inside.tops (next + 1)).map fun top => (top.1, top.2.kind)).map (·.1) =
          inside.topIds (next + 1) := List.map_map
      have hkinds : ∀ kind ∈ c.memberKind?,
          ∀ top ∈ (inside.tops (next + 1)).map fun top => (top.1, top.2.kind), top.2 = kind := by
        intro kind hk top htop
        obtain ⟨q, hq, rfl⟩ := List.mem_map.1 htop
        refine hkind kind hk q.2 ?_
        rw [← map_snd_tops inside (next + 1)]
        exact List.mem_map_of_mem hq
      have hfirst := (ihinside hinside hbefore).cons hparent hkinds
      have hlater (p : Nat) (hp : p ∈ parent) : p < next + 1 + inside.contextCount := by
        have := hparent p hp
        omega
      have hlength : next + (c.row parent (inside.topIds (next + 1)) ::
          inside.rows (some next) (next + 1)).length = next + 1 + inside.contextCount := by
        rw [List.length_cons, length_rows]
        omega
      rw [hids] at hfirst
      refine hfirst.append ?_ hparent
      rw [hlength]
      exact ihrest hrest hlater

/-! ### Statements -/

/-- The parameters inside methods and the fields inside records are what these list. -/
theorem mayNest_memberKind? : MayNest fun c k => ∀ kind ∈ c.memberKind?, k = kind where
  sameForm h hk := by
    rw [h.memberKind?]
    exact hk
  method _ _ _ kind hkind := Option.some.inj hkind
  record _ kind hkind := Option.some.inj hkind
  routine _ := ⟨fun _ hkind => Option.some.inj hkind, fun _ hkind => Option.some.inj hkind⟩
  container _ _ _ :=
    ⟨fun kind hkind => absurd hkind (Option.not_mem_none kind),
      fun kind hkind => absurd hkind (Option.not_mem_none kind)⟩

theorem Nests.shaped (hf : f.Nests fun c k => ∀ kind ∈ c.memberKind?, k = kind) : f.Shaped := by
  induction f with
  | nil => trivial
  | node _ context inside rest ihinside ihrest =>
    cases context with
    | none => exact ⟨hf.1, ihrest hf.2⟩
    | some c =>
      obtain ⟨hkinds, hinside, hrest⟩ := hf
      exact ⟨fun kind hkind d hd => hkinds _ (List.mem_map_of_mem hd) kind hkind,
        ihinside hinside, ihrest hrest⟩

/-- Resolved statements have the shape. -/
theorem shaped_resolveStatement {t : SyntaxTree} (ht : t.Fits) (warnOrphans : Bool) (next : Nat) :
    (resolveStatement warnOrphans next t).1.Shaped :=
  (nests_resolveStatement mayNest_memberKind? ht warnOrphans next).shaped

end DocForest
end SqlDoc

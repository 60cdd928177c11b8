/-
# The rows of resolved sites

Resolved sites say what the rows of their contexts are: a context has the number that its place
gives it, and its row has the numbers of the contexts at the top inside it (`DocForest.rows`). What
a tag says about a parameter or a field, or a pragma about an exception, changes one of these rows
(`rows_modifyFirst`).

Key definitions: `DocForest.tops`, `DocForest.rows`, `DocForest.modifyFirst`.
Key theorems: `map_context_rows`, `getElem?_rows_tops`, `rows_modifyFirst`.
-/
import SqlDoc.Context.Resolver
import SqlDoc.Proofs.Syntax.Builder

namespace SqlDoc

theorem modify_append_of_lt {α : Type} {f : α → α} {l : List α} {i : Nat} (h : i < l.length)
    (k : List α) : (l ++ k).modify i f = l.modify i f ++ k := by
  induction l generalizing i with
  | nil => cases h
  | cons a l ih =>
    cases i with
    | zero => rfl
    | succ i => exact congrArg (a :: ·) (ih (Nat.lt_of_succ_lt_succ h))

/-- The row of a context that has those with the numbers `ids` directly inside it. -/
def Context.row (c : Context) (parent : Option Nat) (ids : List Nat) : ContextRow where
  context := { c with parent }
  children := ids
  members := if c.detail.hasMembers then ids else []

/-- The codes of an exception. -/
def Context.codes? (c : Context) : Option (List String) :=
  match c.detail with
  | .exceptionDef codes => some codes
  | _ => none

/-- What a type that is no record is declared to be. -/
def Context.definition? (c : Context) : Option String :=
  match c.detail with
  | .typeDef _ definition => some definition
  | _ => none

namespace DocForest

/-- The contexts at the top with their numbers, if the first has number `next`. -/
def tops (next : Nat) : DocForest → List (Nat × Context)
  | nil => []
  | node _ context inside rest =>
    (context.map fun c => (next, c)).toList
      ++ rest.tops (next + context.toList.length + inside.contextCount)

/-- The numbers of the contexts at the top, if the first is `next`. -/
def topIds (next : Nat) (f : DocForest) : List Nat :=
  (f.tops next).map (·.1)

/-- The rows of the contexts inside `parent`, if the first has number `next`. -/
def rows (parent : Option Nat) (next : Nat) : DocForest → List ContextRow
  | nil => []
  | node _ none inside rest =>
    inside.rows parent next ++ rest.rows parent (next + inside.contextCount)
  | node _ (some c) inside rest =>
    c.row parent (inside.topIds (next + 1)) :: (inside.rows (some next) (next + 1)
      ++ rest.rows parent (next + 1 + inside.contextCount))

variable {f : DocForest} {parent : Option Nat} {next : Nat}

/-- The contexts of the rows are the contexts in their places. -/
@[simp] theorem map_context_rows (f : DocForest) (parent : Option Nat) (next : Nat) :
    (f.rows parent next).map (·.context) = f.placeContexts parent next := by
  induction f generalizing parent next with
  | nil => rfl
  | node _ context inside rest ihinside ihrest =>
    cases context with
    | none => rw [rows, placeContexts, List.map_append, ihinside, ihrest]
    | some c => rw [rows, placeContexts, List.map_cons, List.map_append, ihinside, ihrest]; rfl

@[simp] theorem length_rows (f : DocForest) (parent : Option Nat) (next : Nat) :
    (f.rows parent next).length = f.contextCount := by
  rw [← placeContexts_length f parent next, ← map_context_rows, List.length_map]

@[simp] theorem map_snd_tops (f : DocForest) (next : Nat) :
    (f.tops next).map (·.2) = f.topContexts := by
  induction f generalizing next with
  | nil => rfl
  | node _ context inside rest _ ih =>
    cases context <;> simp [tops, topContexts, ih]

/-- The first context is one of the exceptions at the top if it has codes. -/
theorem exceptions_some (site : Site) (c : Context) (inside rest : DocForest) (next : Nat) :
    (node site (some c) inside rest).exceptions next =
      (c.codes?.map fun codes => { id := next, name := c.name.last, codes }).toList ++
        rest.exceptions (next + 1 + inside.contextCount) := by
  rw [exceptions, Context.codes?]
  cases c.detail <;> simp

theorem getElem?_rows_tops {before : List ContextRow} {id : Nat} {c : Context}
    (hnext : before.length = next) (h : (id, c) ∈ f.tops next) (g : ContextRow → ContextRow) :
    ∃ row, (before ++ (f.rows parent next).map g)[id]? = some (g row) ∧
      row.context = { c with parent } := by
  induction f generalizing before next with
  | nil => cases h
  | node site context inside rest _ ih =>
    cases context with
    | none =>
      rw [rows, List.map_append, ← List.append_assoc]
      exact ih (by simp [hnext]) h
    | some c' =>
      rw [rows]
      rcases List.mem_cons.1 h with heq | h
      · obtain ⟨rfl, rfl⟩ := Prod.mk.inj heq
        refine ⟨c.row parent (inside.topIds (id + 1)), ?_, rfl⟩
        rw [← hnext, List.map_cons, List.getElem?_append_right (Nat.le_refl _), Nat.sub_self]
        rfl
      · rw [← List.cons_append, List.map_append, ← List.append_assoc]
        exact ih (by simp [hnext]; omega) h

end DocForest

/-! ### Changing a context -/

namespace ParamDoc

variable (d : ParamDoc) (c : Context)

theorem apply_parent (parent : Option Nat) :
    d.apply { c with parent } = { d.apply c with parent } := by
  unfold apply
  cases c.detail <;> rfl

theorem apply_throws (throws : List ThrowsDoc) :
    d.apply { c with throws } = { d.apply c with throws } := by
  unfold apply
  cases c.detail <;> rfl

@[simp] theorem throws_apply : (d.apply c).throws = c.throws := by
  unfold apply
  cases c.detail <;> rfl

@[simp] theorem hasMembers_apply : (d.apply c).detail.hasMembers = c.detail.hasMembers := by
  unfold apply
  cases c.detail <;> rfl

end ParamDoc

namespace DocForest

/-- Changes the first context at the top that `p` accepts. -/
def modifyFirst (p : Context → Bool) (g : Context → Context) : DocForest → DocForest
  | nil => nil
  | node site none inside rest => node site none inside (rest.modifyFirst p g)
  | node site (some c) inside rest =>
    if p c then node site (some (g c)) inside rest
    else node site (some c) inside (rest.modifyFirst p g)

variable {f : DocForest} {parent : Option Nat} {next : Nat} {p : Context → Bool}
  {g : Context → Context}

/-- What a tag says about one of the contexts changes the first that it can be about. -/
theorem describe_eq (isTarget : Context → Bool) (doc : ParamDoc) (f : DocForest) :
    f.describe isTarget doc =
      f.modifyFirst (fun c => isTarget c && c.name.sameBase doc.name) doc.apply := by
  induction f with
  | nil => rfl
  | node _ context _ _ _ ih => cases context <;> simp only [describe, modifyFirst, ih]

/-- What the change keeps of a context is kept of all contexts at the top. -/
theorem filterMap_tops_modifyFirst {β : Type} {key : Nat × Context → Option β}
    (hkey : ∀ id c, key (id, g c) = key (id, c)) (f : DocForest) (next : Nat) :
    ((f.modifyFirst p g).tops next).filterMap key = (f.tops next).filterMap key := by
  induction f generalizing next with
  | nil => rfl
  | node _ context inside rest _ ih =>
    cases context with
    | none => simp [modifyFirst, tops, ih]
    | some c =>
      unfold modifyFirst
      split <;> simp [tops, ih, List.filterMap_cons, hkey]

@[simp] theorem topIds_modifyFirst (p : Context → Bool) (g : Context → Context) (f : DocForest)
    (next : Nat) : (f.modifyFirst p g).topIds next = f.topIds next := by
  rw [topIds, topIds, ← List.filterMap_eq_map]
  exact filterMap_tops_modifyFirst (g := g) (fun _ _ => rfl) f next

theorem modifyFirst_of_find?_eq_none (h : (f.tops next).find? (fun q => p q.2) = none) :
    f.modifyFirst p g = f := by
  induction f generalizing next with
  | nil => rfl
  | node _ context inside rest _ ih =>
    cases context with
    | none => rw [modifyFirst, ih h]
    | some c =>
      rw [tops, Option.map_some, Option.toList_some, List.singleton_append, List.find?_cons] at h
      cases hc : p c with
      | true => rw [hc] at h; cases h
      | false =>
        rw [hc] at h
        rw [modifyFirst, if_neg (by rw [hc]; exact Bool.false_ne_true), ih h]

/-- A change of the first context that `p` accepts changes the row with its number. -/
theorem rows_modifyFirst (hrow : ∀ parent c ids, (Context.row c parent ids).modifyContext g =
      (g c).row parent ids)
    {late : ContextRow → ContextRow}
    (hlate : ∀ row, late (row.modifyContext g) = (late row).modifyContext g)
    {before : List ContextRow} {id : Nat} {c : Context} (hnext : before.length = next)
    (h : (f.tops next).find? (fun q => p q.2) = some (id, c)) :
    (before ++ (f.rows parent next).map late).modify id (·.modifyContext g) =
      before ++ ((f.modifyFirst p g).rows parent next).map late := by
  induction f generalizing before next with
  | nil => cases h
  | node site context inside rest _ ih =>
    cases context with
    | none =>
      have hbefore : (before ++ (inside.rows parent next).map late).length =
          next + inside.contextCount := by simp [hnext]
      rw [modifyFirst, rows, rows, List.map_append, List.map_append, ← List.append_assoc,
        ← List.append_assoc]
      exact ih hbefore h
    | some c' =>
      rw [tops, Option.map_some, Option.toList_some, List.singleton_append, List.find?_cons] at h
      unfold modifyFirst
      split
      · rename_i hc
        rw [hc] at h
        obtain ⟨rfl, rfl⟩ := Prod.mk.inj (Option.some.inj h)
        rw [rows, rows, List.map_cons, List.map_cons, ← hnext, modify_at_length, ← hlate, hrow]
      · rename_i hc
        rw [Bool.not_eq_true] at hc
        rw [hc] at h
        have hbefore : (before ++ (c'.row parent (inside.topIds (next + 1)) ::
            inside.rows (some next) (next + 1)).map late).length =
              next + 1 + inside.contextCount := by
          simp [hnext]
          omega
        rw [rows, rows, ← List.cons_append, ← List.cons_append, List.map_append,
          List.map_append, ← List.append_assoc, ← List.append_assoc]
        exact ih hbefore h

end DocForest

theorem ParamDoc.modifyContext_row (doc : ParamDoc) (parent : Option Nat) (c : Context)
    (ids : List Nat) :
    (c.row parent ids).modifyContext doc.apply = (doc.apply c).row parent ids := by
  rw [Context.row, Context.row, ContextRow.modifyContext, ParamDoc.apply_parent,
    ParamDoc.hasMembers_apply]

end SqlDoc

/-
# An arena of contexts

The contexts of a run, numbered in the order in which they come. A context names the one around it
by its number, which is smaller than its own.

Key definitions: `ContextArena`, `ContextArena.children`, `ContextArena.path`.
Key theorem: `ContextArena.lt_of_mem_children`.
-/
import SqlDoc.Context.Basic

namespace SqlDoc

/-- Contexts by number. -/
structure ContextArena where
  toList : List Context

namespace ContextArena

/-- The arena without contexts. -/
def empty : ContextArena := ⟨[]⟩

/-- How many contexts there are; the next gets this number. -/
def size (a : ContextArena) : Nat :=
  a.toList.length

/-- The context with a number. -/
def get? (a : ContextArena) (id : Nat) : Option Context :=
  a.toList[id]?

/-- The arena with one more context. -/
def alloc (a : ContextArena) (c : Context) : ContextArena :=
  ⟨a.toList ++ [c]⟩

/-- The arena with another context under a number that is in use. -/
def modify (a : ContextArena) (id : Nat) (f : Context → Context) : ContextArena :=
  ⟨a.toList.modify id f⟩

/-- The contexts with their numbers. -/
def numbered (a : ContextArena) : List (Nat × Context) :=
  a.toList.zipIdx.map fun (c, id) => (id, c)

/-- The contexts directly inside one, with their numbers. They come after it. -/
def children (a : ContextArena) (id : Nat) : List (Nat × Context) :=
  a.numbered.filter fun (j, c) => c.parent = some id ∧ id < j

/-- The first context directly inside one that has the id. -/
def childById? (a : ContextArena) (parent : Nat) (id : String) : Option Nat :=
  ((a.children parent).find? (·.2.id = id)).map (·.1)

/-- The ids from the outermost context around one down to its own. -/
def pathIds (a : ContextArena) (id : Nat) : List String :=
  match a.get? id with
  | none => []
  | some c =>
    match c.parent with
    | none => [c.id]
    | some parent => if parent < id then a.pathIds parent ++ [c.id] else [c.id]
termination_by id

/-- The ids from the outermost context down, such as `EMP_API/GET-1`. -/
def path (a : ContextArena) (id : Nat) : String :=
  "/".intercalate (a.pathIds id)

theorem mem_numbered {a : ContextArena} {id : Nat} {c : Context} :
    (id, c) ∈ a.numbered ↔ a.get? id = some c := by
  simp only [numbered, get?, List.mem_map, Prod.mk.injEq, Prod.exists]
  constructor
  · rintro ⟨c', id', h, rfl, rfl⟩
    simpa using List.mem_zipIdx_iff_getElem?.1 h
  · exact fun h => ⟨c, id, List.mem_zipIdx_iff_getElem?.2 (by simpa using h), rfl, rfl⟩

/-- A context comes after the one around it, and is in the arena. -/
theorem lt_of_mem_children {a : ContextArena} {id j : Nat} {c : Context}
    (h : (j, c) ∈ a.children id) : id < j ∧ j < a.size := by
  obtain ⟨hmem, hj⟩ := List.mem_filter.1 h
  simp only [decide_eq_true_eq] at hj
  exact ⟨hj.2, (List.getElem?_eq_some_iff.1 (mem_numbered.1 hmem)).1⟩

end ContextArena
end SqlDoc

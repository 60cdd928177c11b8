/-
# Ids of overloads

Several methods of one container may have the same name. The ids that tell them apart are the name,
a hyphen and a number, counted from one for each name.

Key definitions: `overloadId`, `OverloadIds`, `OverloadIds.next`.
Key theorem: `OverloadIds.count_next`.
-/

namespace SqlDoc

/-- The id of the overload with number `n` of a name. -/
def overloadId (base : String) (n : Nat) : String :=
  s!"{base}-{n}"

/-- The names that have been given an id, the last first. -/
structure OverloadIds where
  given : List String
  deriving DecidableEq, Repr

namespace OverloadIds

/-- No id has been given. -/
def empty : OverloadIds := ⟨[]⟩

/-- How many ids a name has been given. -/
def count (ids : OverloadIds) (base : String) : Nat :=
  ids.given.count base

/-- The next id of a name, and the ids after it. -/
def next (ids : OverloadIds) (base : String) : String × OverloadIds :=
  (overloadId base (ids.count base + 1), ⟨base :: ids.given⟩)

/-- An id counts for its own name only. -/
theorem count_next (ids : OverloadIds) (base other : String) :
    (ids.next base).2.count other = ids.count other + if base = other then 1 else 0 := by
  simp [next, count, List.count_cons]

end OverloadIds
end SqlDoc

/-
# Case mappings as runs

A case mapping moves long runs of letters by one distance: the letters `first`, `first + step`,
..., `last` each go to the letter `shift` further on. Letters that become several have a table of
their own.

Key definitions: `CaseRun`, `CaseRun.lookup`, `CaseRun.sources`, `CaseRun.pairs`, `caseMap`.
Key theorem: `CaseRun.exists_of_lookup`.
-/

namespace SqlDoc.Text

/-- The code points `first`, `first + step`, ..., `last`, and the distance they are moved. -/
structure CaseRun where
  first : Nat
  last : Nat
  step : Nat
  shift : Int

namespace CaseRun

/-- The run moves `n`. -/
def covers (run : CaseRun) (n : Nat) : Bool :=
  run.first ≤ n && n ≤ run.last && (n - run.first) % run.step == 0

/-- Where the runs, in ascending order, move `n`, if one of them does. -/
def lookup : List CaseRun → Nat → Option Nat
  | [], _ => none
  | run :: rest, n =>
    if n < run.first then none
    else if run.covers n then some ((n : Int) + run.shift).toNat
    else lookup rest n

/-- A code point that is moved lies in a run, which says how far. -/
theorem exists_of_lookup {runs : List CaseRun} {n m : Nat} (h : lookup runs n = some m) :
    ∃ run ∈ runs, (run.first ≤ n ∧ n ≤ run.last) ∧ m = ((n : Int) + run.shift).toNat := by
  induction runs with
  | nil => cases h
  | cons run runs ih =>
    unfold lookup at h
    split at h
    · cases h
    · split at h
      · rename_i hcovers
        simp only [covers, Bool.and_eq_true, decide_eq_true_eq] at hcovers
        exact ⟨run, List.mem_cons_self, hcovers.1, (Option.some.inj h).symm⟩
      · obtain ⟨other, hother, hrun⟩ := ih h
        exact ⟨other, List.mem_cons_of_mem run hother, hrun⟩

/-- The code points that the runs move to `n`. -/
def sources (runs : List CaseRun) (n : Nat) : List Nat :=
  runs.filterMap fun run =>
    let source := ((n : Int) - run.shift).toNat
    if run.covers source then some source else none

/-- The code points that a run moves, each with where it goes. -/
def pairs (run : CaseRun) : List (Nat × Nat) :=
  (List.range ((run.last - run.first) / run.step + 1)).map fun k =>
    let n := run.first + k * run.step
    (n, ((n : Int) + run.shift).toNat)

end CaseRun

/-- The image of a character under a mapping given by runs and expansions. -/
def caseMap (runs : List CaseRun) (expansions : List (Nat × List Nat)) (c : Char) : List Char :=
  match CaseRun.lookup runs c.toNat with
  | some n => [Char.ofNat n]
  | none =>
    match expansions.lookup c.toNat with
    | some image => image.map Char.ofNat
    | none => [c]

end SqlDoc.Text

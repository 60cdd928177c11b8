/-
# What a queue holds

A queue is given diagnostics and drained, in any order. What it holds are the diagnostics since it
was last drained, less those that report the same as an earlier one, and every drain hands on what
the queue held (`Queue.run_holds`). Reports that differ in the file of their positions alone are the
same, so of two files that have the same report at the same place the second is not heard of
(`Queue.drops_otherFile`). Where all reports are about one file only repetitions are left out.

Key definitions: `firstOfEach`, `QueueStep`, `Queue.run`, `batches`.
Key theorems: `Diagnostic.same_iff`, `firstOfEach_concat`, `Queue.run_batches`, `Queue.run_holds`.
-/
import Mathlib.Data.List.Induction
import SqlDoc.Diagnostic

namespace SqlDoc

/-! ### Repetitions -/

section

variable {α : Type}

/-- The elements of a list, less those that are the same as an earlier one. -/
def firstOfEach (same : α → α → Bool) (l : List α) : List α :=
  (l.zipIdx.filter fun p => !(l.take p.2).any (same · p.1)).map (·.1)

variable {same other : α → α → Bool}

theorem firstOfEach_concat (same : α → α → Bool) (l : List α) (x : α) :
    firstOfEach same (l ++ [x]) =
      firstOfEach same l ++ if l.any (same · x) then [] else [x] := by
  have hbefore : ∀ p ∈ l.zipIdx, (l ++ [x]).take p.2 = l.take p.2 := fun p hp =>
    List.take_append_of_le_length
      (Nat.le_of_lt (List.getElem?_eq_some_iff.1 (List.mem_zipIdx_iff_getElem?.1 hp)).1)
  have hkept : l.zipIdx.filter (fun p => !((l ++ [x]).take p.2).any (same · p.1)) =
      l.zipIdx.filter fun p => !(l.take p.2).any (same · p.1) :=
    List.filter_congr fun p hp => by rw [hbefore p hp]
  unfold firstOfEach
  rw [List.zipIdx_append, List.filter_append, List.map_append, hkept]
  by_cases hx : l.any (same · x) = true
  · simp [hx]
  · simp [hx]

theorem any_firstOfEach (htrans : ∀ x y z, same x y → same y z → same x z) (l : List α) (x : α) :
    (firstOfEach same l).any (same · x) = l.any (same · x) := by
  induction l using List.reverseRecOn with
  | nil => rfl
  | append_singleton l y ih =>
    rw [firstOfEach_concat, List.any_append, List.any_append, ih]
    by_cases hy : l.any (same · y) = true
    · rw [if_pos hy, List.any_nil, Bool.or_false, List.any_cons, List.any_nil, Bool.or_false]
      cases hyx : same y x with
      | false => rw [Bool.or_false]
      | true =>
        obtain ⟨z, hz, hzy⟩ := List.any_eq_true.1 hy
        rw [Bool.or_true]
        exact List.any_eq_true.2 ⟨z, hz, htrans z y x hzy hyx⟩
    · rw [if_neg hy]

/-- Which elements are left out depends on which of them are the same. -/
theorem firstOfEach_congr {l : List α} (h : ∀ x ∈ l, ∀ y ∈ l, same x y = other x y) :
    firstOfEach same l = firstOfEach other l := by
  unfold firstOfEach
  refine congrArg _ (List.filter_congr fun p hp => ?_)
  have hmem : p.1 ∈ l := List.mem_of_getElem? (List.mem_zipIdx_iff_getElem?.1 hp)
  have hany : (l.take p.2).any (same · p.1) = (l.take p.2).any (other · p.1) := by
    rw [Bool.eq_iff_iff, List.any_eq_true, List.any_eq_true]
    refine exists_congr fun y => and_congr_right fun hy => ?_
    rw [h y (List.mem_of_mem_take hy) p.1 hmem]
  rw [hany]

end

def Diagnostic.withoutFile (d : Diagnostic) : Diagnostic :=
  { d with position := d.position.map (·.inFile none) }

namespace Diagnostic

/-- Two diagnostics report the same if they differ at most in the file of their positions. -/
theorem same_iff {d e : Diagnostic} : d.same e ↔ d.withoutFile = e.withoutFile := by
  obtain ⟨code, severity, message, position, notes⟩ := d
  obtain ⟨code', severity', message', position', notes'⟩ := e
  have hplace (p q : Position) : p.samePlace q ↔ p.inFile none = q.inFile none := by
    simp [Position.samePlace, Position.inFile]
  cases position <;> cases position' <;>
    simp [same, withoutFile, hplace, and_assoc, and_comm, and_left_comm]

/-- In one file two diagnostics report the same only if they are equal. -/
theorem same_of_oneFile {file : Option String} {d e : Diagnostic}
    (hd : ∀ p ∈ d.position, p.filename = file) (he : ∀ p ∈ e.position, p.filename = file) :
    d.same e = (d == e) := by
  have hback {d : Diagnostic} (hd : ∀ p ∈ d.position, p.filename = file) :
      d = { d.withoutFile with position := d.withoutFile.position.map (·.inFile file) } := by
    obtain ⟨code, severity, message, position, notes⟩ := d
    cases position with
    | none => rfl
    | some p =>
      obtain ⟨line, column, filename⟩ := p
      obtain rfl : filename = file := hd _ rfl
      rfl
  rw [Bool.eq_iff_iff, same_iff, beq_iff_eq]
  refine ⟨fun h => ?_, congrArg _⟩
  rw [hback hd, hback he, h]

end Diagnostic

/-! ### Runs of a queue -/

/-- What is done to a queue. -/
inductive QueueStep where
  | emit (d : Diagnostic)
  | drain
  deriving DecidableEq, Repr

/-- What the drains among the steps hand on, one after the other, and the queue after the steps. -/
def Queue.run (q : Queue) : List QueueStep → List (List Diagnostic) × Queue
  | [] => ([], q)
  | .emit d :: steps => (q.emit d).run steps
  | .drain :: steps =>
    let (handedOn, q) := q.drain
    let (more, last) := q.run steps
    (handedOn :: more, last)

/-- The diagnostics that are emitted before each drain and after the one before it, and those after
the last drain. `since` have been emitted before the steps. -/
def batches (since : List Diagnostic) : List QueueStep → List (List Diagnostic) × List Diagnostic
  | [] => ([], since)
  | .emit d :: steps => batches (since ++ [d]) steps
  | .drain :: steps =>
    let (more, last) := batches [] steps
    (since :: more, last)

namespace Queue

/-- The queue has been given the diagnostics since it was last drained. -/
structure Has (q : Queue) (since : List Diagnostic) : Prop where
  toList : q.toList = firstOfEach Diagnostic.same since
  errorCount : q.errorCount = q.toList.countP (·.isError)

variable {q : Queue} {since : List Diagnostic}

theorem has_empty : empty.Has [] :=
  ⟨rfl, rfl⟩

theorem Has.emit (h : q.Has since) (d : Diagnostic) : (q.emit d).Has (since ++ [d]) := by
  have htrans (x y z : Diagnostic) : x.same y → y.same z → x.same z := by
    rw [Diagnostic.same_iff, Diagnostic.same_iff, Diagnostic.same_iff]
    exact Eq.trans
  have hheld : q.toList.any (·.same d) = since.any (·.same d) := by
    rw [h.toList, any_firstOfEach htrans]
  constructor
  · rw [toList_emit, firstOfEach_concat, hheld, h.toList]
  · unfold Queue.emit
    split
    · exact h.errorCount
    · rw [List.countP_append, ← h.errorCount]
      by_cases hd : d.isError = true <;> simp [hd]

/-- A queue hands on what the batches say, and has what has come since. -/
theorem run_batches (h : q.Has since) (steps : List QueueStep) :
    (q.run steps).1 = (batches since steps).1.map (firstOfEach Diagnostic.same) ∧
      (q.run steps).2.Has (batches since steps).2 := by
  induction steps generalizing q since with
  | nil => exact ⟨rfl, h⟩
  | cons step steps ih =>
    cases step with
    | emit d => exact ih (h.emit d)
    | drain =>
      obtain ⟨hmore, hlast⟩ := ih has_empty
      refine ⟨?_, hlast⟩
      show q.toList :: (empty.run steps).1 = firstOfEach _ since :: _
      rw [hmore, h.toList]

theorem run_concat_drain (q : Queue) (steps : List QueueStep) :
    q.run (steps ++ [.drain]) = ((q.run steps).1 ++ [(q.run steps).2.toList], empty) := by
  induction steps generalizing q with
  | nil => rfl
  | cons step steps ih =>
    cases step with
    | emit d => exact ih (q.emit d)
    | drain =>
      show (q.toList :: (empty.run (steps ++ [.drain])).1, (empty.run (steps ++ [.drain])).2) = _
      rw [ih empty]
      rfl

/-- After any steps a queue holds the diagnostics since the last drain, in order, less those that
report the same as an earlier one, and knows how many of them are errors. Each drain has handed on
what the queue held then, and a drain leaves nothing. Where the reports are about one file nothing
is left out but what has been reported in just the same way. -/
theorem run_holds (steps : List QueueStep) :
    let (handedOn, q) := empty.run steps
    let (closed, since) := batches [] steps
    q.toList = firstOfEach Diagnostic.same since ∧
      q.errorCount = q.toList.countP (·.isError) ∧
      handedOn = closed.map (firstOfEach Diagnostic.same) ∧
      empty.run (steps ++ [.drain]) = (handedOn ++ [q.toList], empty) ∧
      ∀ file, (∀ d ∈ since, ∀ p ∈ d.position, p.filename = file) →
        q.toList = firstOfEach (fun d e => d == e) since := by
  obtain ⟨hclosed, hheld⟩ := run_batches has_empty steps
  refine ⟨hheld.toList, hheld.errorCount, hclosed, run_concat_drain empty steps, fun file h => ?_⟩
  rw [hheld.toList]
  exact firstOfEach_congr fun d hd e he => Diagnostic.same_of_oneFile (h d hd) (h e he)

/-- The second report reads differently and is left out all the same. -/
theorem drops_otherFile :
    let about := fun file : String =>
      Diagnostic.warning .orphanTag "orphan" (some { line := 1, column := 1, filename := file })
    let steps := [.emit (about "a.sql"), .emit (about "b.sql")]
    (empty.run steps).2.toList = [about "a.sql"] ∧
      firstOfEach (fun d e => d == e) (batches [] steps).2 = [about "a.sql", about "b.sql"] ∧
      (about "a.sql").display ≠ (about "b.sql").display := by
  decide

end Queue
end SqlDoc

/-
# The order of positions

Positions are ordered by line and column. Files take no part in it, so two positions at one place of
different files each come no later than the other.

Key definitions: `Span.Encloses`.
Key theorems: `Position.lt_iff_before`, `Position.lt_advance`.
-/
import Mathlib.Data.Prod.Lex
import Mathlib.Order.Basic
import SqlDoc.Proofs.Position.Advance

namespace SqlDoc

instance : Preorder Position :=
  Preorder.lift fun p => toLex (p.line, p.column)

namespace Position

variable {p q : Position}

theorem lt_iff : p < q ↔ p.line < q.line ∨ p.line = q.line ∧ p.column < q.column :=
  Prod.Lex.toLex_lt_toLex

theorem le_iff : p ≤ q ↔ p.line < q.line ∨ p.line = q.line ∧ p.column ≤ q.column :=
  Prod.Lex.toLex_le_toLex

instance : DecidableLE Position := fun _ _ => decidable_of_iff' _ le_iff

instance : DecidableLT Position := fun _ _ => decidable_of_iff' _ lt_iff

theorem lt_iff_before : p < q ↔ p.before q = true := by
  simp [lt_iff, before]

/-- A text that is not empty leads further on. -/
theorem lt_advance (p : Position) {text : List Char} (h : text ≠ []) : p < p.advance text :=
  lt_iff_before.2 (p.before_advance h)

theorem le_advance (p : Position) (text : List Char) : p ≤ p.advance text := by
  by_cases h : text = []
  · rw [h, advance_nil]
  · exact (p.lt_advance h).le

end Position

/-- The second span lies within the first. -/
def Span.Encloses (outer inner : Span) : Prop :=
  outer.start ≤ inner.start ∧ inner.stop ≤ outer.stop

instance (outer inner : Span) : Decidable (outer.Encloses inner) :=
  inferInstanceAs (Decidable (_ ∧ _))

end SqlDoc

/-
# What a rule leaves in the open node

A rule reads into the node that is open. What it leaves there is known from the rule alone, if that
is all that is asked: whatever a look shows, the run goes on along one of the ways of the rule. So
`GrammarRule.Leaves` asks for the postcondition on all of them, and every run meets it
(`leaves_run`).

Key definition: `GrammarRule.Leaves`.
Key theorems: `GrammarRule.leaves_bind`, `GrammarRule.leaves_append`, `leaves_run`.
-/
import SqlDoc.Syntax.Rule

namespace SqlDoc
namespace GrammarRule

variable {α β : Type}

/-- Carried out with the node `n` open, the rule leaves a node with `Q`, if it ends with a
result. -/
def Leaves : {α : Type} → GrammarRule α → (α → OpenNode → Prop) → OpenNode → Prop
  | _, done a, Q, n => Q a n
  | _, missing _, _, _ => True
  | _, look _ next, Q, n => ∀ seen, (next seen).Leaves Q n
  | _, lineStart _ next, Q, n => ∀ b, (next b).Leaves Q n
  | _, remaining next, Q, n => ∀ count, (next count).Leaves Q n
  | _, bump next, Q, n => next.Leaves Q n ∧ ∀ g, next.Leaves Q (n.addGroup g)
  | _, node kind inside next, Q, n =>
    inside.Leaves (fun b child => (next b).Leaves Q (n.addNode child)) { kind }
  | _, setName name next, Q, n => next.Leaves Q { n with name := some name }
  | _, setKind kind next, Q, n => next.Leaves Q { n with kind }
  | _, within _ inside next, Q, n => inside.Leaves (fun b n => (next b).Leaves Q n) n

theorem Leaves.mono {r : GrammarRule α} {P Q : α → OpenNode → Prop} {n : OpenNode}
    (h : r.Leaves P n) (hPQ : ∀ a n, P a n → Q a n) : r.Leaves Q n := by
  induction r generalizing n with
  | done a => exact hPQ a n h
  | missing => trivial
  | look _ next ih => exact fun seen => ih seen (h seen) hPQ
  | lineStart _ next ih => exact fun b => ih b (h b) hPQ
  | remaining next ih => exact fun count => ih count (h count) hPQ
  | bump next ih => exact ⟨ih h.1 hPQ, fun g => ih (h.2 g) hPQ⟩
  | node kind inside next ihinside ihnext =>
    exact ihinside h fun b child hb => ihnext b hb hPQ
  | setName name next ih => exact ih h hPQ
  | setKind kind next ih => exact ih h hPQ
  | within _ inside next ihinside ihnext => exact ihinside h fun b n hb => ihnext b hb hPQ

/-- One rule leaves the node with which the next begins. -/
theorem leaves_bind (r : GrammarRule α) (f : α → GrammarRule β) (Q : β → OpenNode → Prop)
    (n : OpenNode) : (r >>= f).Leaves Q n ↔ r.Leaves (fun a n => (f a).Leaves Q n) n := by
  show (r.bind f).Leaves Q n ↔ _
  induction r generalizing n with
  | done a => rfl
  | missing => rfl
  | look _ next ih => exact forall_congr' fun seen => ih seen f n
  | lineStart _ next ih => exact forall_congr' fun b => ih b f n
  | remaining next ih => exact forall_congr' fun count => ih count f n
  | bump next ih => exact and_congr (ih f n) (forall_congr' fun g => ih f _)
  | node kind inside next _ ih =>
    constructor
    · exact fun h => Leaves.mono (r := inside) h fun b child => (ih b f _).1
    · exact fun h => Leaves.mono (r := inside) h fun b child => (ih b f _).2
  | setName name next ih => exact ih f _
  | setKind kind next ih => exact ih f _
  | within _ inside next _ ih =>
    constructor
    · exact fun h => Leaves.mono (r := inside) h fun b n => (ih b f n).1
    · exact fun h => Leaves.mono (r := inside) h fun b n => (ih b f n).2

/-- Every rule only adds to the open node. -/
theorem leaves_append (r : GrammarRule α) (n : OpenNode) :
    r.Leaves (fun _ m => ∃ f, m.below = n.below.append f) n := by
  induction r generalizing n with
  | done => exact ⟨.nil, (Forest.append_nil _).symm⟩
  | missing => trivial
  | look _ next ih => exact fun seen => ih seen n
  | lineStart _ next ih => exact fun b => ih b n
  | remaining next ih => exact fun count => ih count n
  | bump next ih =>
    refine ⟨ih n, fun g => (ih (n.addGroup g)).mono fun _ m ⟨f, hf⟩ => ⟨.group g f, ?_⟩⟩
    rw [hf, OpenNode.addGroup, Forest.append_assoc]
    rfl
  | node kind inside next ihinside ihnext =>
    refine (ihinside { kind }).mono fun b child _ => (ihnext b (n.addNode child)).mono
      fun _ m ⟨f, hf⟩ => ⟨.node child.kind child.name child.below f, ?_⟩
    rw [hf, OpenNode.addNode, Forest.append_assoc]
    rfl
  | setName name next ih => exact ih { n with name := some name }
  | setKind kind next ih => exact ih { n with kind }
  | within _ inside next ihinside ihnext =>
    refine (ihinside n).mono fun b m ⟨f, hf⟩ => (ihnext b m).mono fun _ l ⟨g, hg⟩ =>
      ⟨f.append g, ?_⟩
    rw [hg, hf, Forest.append_assoc]

end GrammarRule

/-- A run that ends with a result meets the postcondition. -/
theorem leaves_run {α : Type} {r : GrammarRule α} {Q : α → OpenNode → Prop} {s next : ParseState}
    {a : α} (h : r.Leaves Q s.current) (hrun : r.run s = (.ok a, next)) : Q a next.current := by
  induction r generalizing s next with
  | done =>
    cases hrun
    exact h
  | missing => cases hrun
  | look n rest ih => exact ih _ (s := (s.key n).2) (h _) hrun
  | lineStart n rest ih =>
    have hcurrent := s.startsLine_current n
    exact ih _ (s := (s.startsLine n).2) (hcurrent ▸ h _) hrun
  | remaining rest ih => exact ih _ (h _) hrun
  | bump rest ih =>
    refine ih ?_ hrun
    unfold ParseState.bump
    cases s.stream.next with
    | mk group stream =>
      cases group with
      | none => exact h.1
      | some g => exact h.2 g
  | node kind inside rest ihinside ihrest =>
    obtain ⟨b, inner, hinner, hrest⟩ := GrammarRule.ok_of_node hrun
    have hinside : inside.Leaves _ ({ s with current := { kind } } : ParseState).current := h
    exact ihrest b (ihinside hinside hinner) hrest
  | setName name rest ih =>
    exact ih (s := { s with current := { s.current with name := some name } }) h hrun
  | setKind kind rest ih => exact ih (s := { s with current := { s.current with kind } }) h hrun
  | within construct inside rest ihinside ihrest =>
    obtain ⟨b, inner, hinner, hrest⟩ := GrammarRule.ok_of_within hrun
    exact ihrest b (ihinside h hinner) hrest

end SqlDoc

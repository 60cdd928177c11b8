/-
# Rules that heed terminators

A `/` alone on its line ends a statement. Nodes of some kinds are read without asking for it, so it
may come to stand in one of them. That a rule takes it into no other node is a precondition that is
computed from the rule and the groups of the file: a look shows what stands at the place that the
run has come to, so the run goes on along one way of the rule (`GrammarRule.Heeds`). A run that
meets the precondition leaves a forest in which terminators stand in nodes that may hold them, and
ends at a place with the postcondition (`heeds_run`).

Key definitions: `isTerminatorAt`, `NodeKind.mayHoldTerminator`, `GrammarRule.Heeds`,
`Forest.Heeds`.
Key theorems: `GrammarRule.heeds_bind`, `heeds_run`, `Forest.Heeds.of_holders`.
-/
import SqlDoc.Proofs.Syntax.Layout

namespace SqlDoc

/-! ### Terminators among the groups of a file -/

section

variable (groups : List SqlGroup)

/-- The glance at the significant token of the group with index `n`. -/
def glanceAt (n : Nat) : Option Glance :=
  (keyAt groups n).map Token.glance

/-- The significant token of the group with index `n` begins a line, as the first of the file
does. -/
def startsLineAt (n : Nat) : Bool :=
  n = 0 || groups[n]?.any beginsLine

/-- The group with index `n` has a `/` that is alone on its line. -/
def isTerminatorAt (n : Nat) : Bool :=
  (glanceAt groups n).any (·.kind = .slash) &&
    (startsLineAt groups n && ((glanceAt groups (n + 1)).isNone || startsLineAt groups (n + 1)))

/-- The place after the group with index `n`, or the end. -/
def placeAfter (n : Nat) : Nat :=
  if n < groups.length then n + 1 else n

variable {groups}

/-- What stands beyond the next group does not depend on whether there is one. -/
theorem getElem?_placeAfter (n k : Nat) :
    groups[placeAfter groups n + k]? = groups[n + 1 + k]? := by
  unfold placeAfter
  split
  · rfl
  · rw [List.getElem?_eq_none (by omega), List.getElem?_eq_none (by omega)]

theorem glanceAt_placeAfter (n k : Nat) :
    glanceAt groups (placeAfter groups n + k) = glanceAt groups (n + 1 + k) := by
  rw [glanceAt, glanceAt, keyAt, keyAt, getElem?_placeAfter]

theorem placeAfter_of_isSome {n : Nat} (h : (glanceAt groups n).isSome) :
    placeAfter groups n = n + 1 := by
  refine if_pos (Nat.lt_of_not_le fun hle => ?_)
  rw [glanceAt, keyAt, List.getElem?_eq_none hle] at h
  cases h

/-- A token of another kind is no terminator. -/
theorem isTerminatorAt_of_any {n : Nat} {p : Glance → Bool} (h : (glanceAt groups n).any p)
    (hp : ∀ t, p t → t.kind ≠ .slash) : isTerminatorAt groups n = false := by
  obtain ⟨t, ht, hpt⟩ := (Option.any_eq_true ..).1 h
  rw [isTerminatorAt, ht, Option.any_some, decide_eq_false (hp t hpt), Bool.false_and]

/-- Nor is what does not begin a line. -/
theorem isTerminatorAt_of_not_startsLine {n : Nat} (h : startsLineAt groups n = false) :
    isTerminatorAt groups n = false := by
  rw [isTerminatorAt, h, Bool.false_and, Bool.and_false]

end

/-- Nodes of the kind are read without asking for a terminator, so one may come to stand in them. -/
def NodeKind.mayHoldTerminator : NodeKind → Bool
  | modifier | typeExpr | pragma | literal => true
  | _ => false

theorem NodeKind.mayHoldTerminator_iff {kind : NodeKind} : kind.mayHoldTerminator = true ↔
    kind = .modifier ∨ kind = .typeExpr ∨ kind = .pragma ∨ kind = .literal := by
  cases kind <;> simp [mayHoldTerminator]

/-! ### Forests -/

namespace Forest

/-- The kinds of the nodes in which the groups stand, without the nodes around these. `parent` is
that of the node above the forest. -/
def holders (parent : NodeKind) : Forest → List NodeKind
  | nil => []
  | group _ rest => parent :: rest.holders parent
  | node kind _ below rest => below.holders kind ++ rest.holders parent

/-- Terminators stand in nodes that may hold them. The first group has index `n`, and `lax` tells
whether one may stand at the top. -/
def Heeds (groups : List SqlGroup) (lax : Bool) (n : Nat) : Forest → Prop
  | nil => True
  | group _ rest => (lax = false → isTerminatorAt groups n = false) ∧ rest.Heeds groups lax (n + 1)
  | node kind _ below rest =>
    below.Heeds groups kind.mayHoldTerminator n ∧ rest.Heeds groups lax (n + below.groups.length)

variable {groups : List SqlGroup} {lax : Bool} {n : Nat} {f g : Forest}

theorem length_holders (f : Forest) (parent : NodeKind) :
    (f.holders parent).length = f.groups.length := by
  induction f generalizing parent with
  | nil => rfl
  | group _ rest ih => rw [holders, Forest.groups, List.length_cons, List.length_cons, ih]
  | node kind _ below rest ihbelow ihrest =>
    rw [holders, Forest.groups, List.length_append, List.length_append, ihbelow, ihrest]

theorem Heeds.append (hf : f.Heeds groups lax n) (hg : g.Heeds groups lax (n + f.groups.length)) :
    (f.append g).Heeds groups lax n := by
  induction f generalizing n with
  | nil => exact hg
  | group _ rest ih =>
    refine ⟨hf.1, ih hf.2 ?_⟩
    rwa [Forest.groups, List.length_cons, Nat.add_comm _ 1, ← Nat.add_assoc] at hg
  | node kind _ below rest _ ih =>
    refine ⟨hf.1, ih hf.2 ?_⟩
    rwa [Forest.groups, List.length_append, ← Nat.add_assoc] at hg

/-- A terminator stands in a node of a kind that may hold it. -/
theorem Heeds.of_holders {parent : NodeKind} (h : f.Heeds groups parent.mayHoldTerminator n)
    {i : Nat} {kind : NodeKind} (hkind : (f.holders parent)[i]? = some kind)
    (hi : isTerminatorAt groups (n + i)) : kind.mayHoldTerminator := by
  induction f generalizing n i parent with
  | nil => simp [holders] at hkind
  | group _ rest ih =>
    cases i with
    | zero =>
      obtain rfl : parent = kind := Option.some.inj hkind
      cases hlax : parent.mayHoldTerminator with
      | true => rfl
      | false => exact absurd hi (Bool.eq_false_iff.1 (h.1 hlax))
    | succ i => exact ih h.2 hkind (by rwa [Nat.add_assoc, Nat.add_comm 1])
  | node holder _ below rest ihbelow ihrest =>
    rw [holders] at hkind
    rcases Nat.lt_or_ge i (below.holders holder).length with hlt | hge
    · rw [List.getElem?_append_left hlt] at hkind
      exact ihbelow h.1 hkind hi
    · rw [List.getElem?_append_right hge] at hkind
      refine ihrest h.2 hkind ?_
      rw [length_holders] at hge ⊢
      rwa [show n + below.groups.length + (i - below.groups.length) = n + i by omega]

end Forest

/-! ### Rules -/

namespace GrammarRule

variable {α β : Type}

/-- Carried out at the place `n` among the groups, the rule takes terminators into nodes that may
hold them only, and ends, if it ends with a result, at a place with `Q`. Whether the open node may
hold one is told by `lax`. -/
def Heeds (groups : List SqlGroup) :
    {α : Type} → GrammarRule α → Bool → (α → Nat → Prop) → Nat → Prop
  | _, done a, _, Q, n => Q a n
  | _, missing _, _, _, _ => True
  | _, look k next, lax, Q, n => (next (glanceAt groups (n + k))).Heeds groups lax Q n
  | _, lineStart k next, lax, Q, n => (next (startsLineAt groups (n + k))).Heeds groups lax Q n
  | _, remaining next, lax, Q, n => ∀ count, (next count).Heeds groups lax Q n
  | _, bump next, lax, Q, n =>
    (lax = false → isTerminatorAt groups n = false) ∧
      next.Heeds groups lax Q (placeAfter groups n)
  | _, node kind inside next, lax, Q, n =>
    inside.Heeds groups kind.mayHoldTerminator (fun b n => (next b).Heeds groups lax Q n) n
  | _, setName _ next, lax, Q, n => next.Heeds groups lax Q n
  | _, setKind kind next, lax, Q, n =>
    kind.mayHoldTerminator = lax ∧ next.Heeds groups lax Q n
  | _, within _ inside next, lax, Q, n =>
    inside.Heeds groups lax (fun b n => (next b).Heeds groups lax Q n) n

variable {groups : List SqlGroup} {lax : Bool} {n : Nat}

theorem Heeds.mono {r : GrammarRule α} {P Q : α → Nat → Prop} (h : r.Heeds groups lax P n)
    (hPQ : ∀ a n, P a n → Q a n) : r.Heeds groups lax Q n := by
  induction r generalizing lax n with
  | done a => exact hPQ a n h
  | missing => trivial
  | look _ next ih => exact ih _ h hPQ
  | lineStart _ next ih => exact ih _ h hPQ
  | remaining next ih => exact fun count => ih count (h count) hPQ
  | bump next ih => exact ⟨h.1, ih h.2 hPQ⟩
  | node kind inside next ihinside ihnext => exact ihinside h fun b n hb => ihnext b hb hPQ
  | setName _ next ih => exact ih h hPQ
  | setKind _ next ih => exact ⟨h.1, ih h.2 hPQ⟩
  | within _ inside next ihinside ihnext => exact ihinside h fun b n hb => ihnext b hb hPQ

/-- One rule ends where the next begins. -/
theorem heeds_bind (r : GrammarRule α) (f : α → GrammarRule β) (Q : β → Nat → Prop) (n : Nat) :
    (r >>= f).Heeds groups lax Q n ↔
      r.Heeds groups lax (fun a n => (f a).Heeds groups lax Q n) n := by
  show (r.bind f).Heeds groups lax Q n ↔ _
  induction r generalizing lax n with
  | done a => rfl
  | missing => rfl
  | look _ next ih => exact ih ..
  | lineStart _ next ih => exact ih ..
  | remaining next ih => exact forall_congr' fun count => ih count f _
  | bump next ih => exact and_congr Iff.rfl (ih f _)
  | node kind inside next _ ih =>
    constructor
    · exact fun h => Heeds.mono (r := inside) h fun b n => (ih b f _).1
    · exact fun h => Heeds.mono (r := inside) h fun b n => (ih b f _).2
  | setName _ next ih => exact ih f _
  | setKind _ next ih => exact and_congr Iff.rfl (ih f _)
  | within _ inside next _ ih =>
    constructor
    · exact fun h => Heeds.mono (r := inside) h fun b n => (ih b f _).1
    · exact fun h => Heeds.mono (r := inside) h fun b n => (ih b f _).2

end GrammarRule

/-! ### Runs -/

/-- Reading has come to the place `n` among the groups of a file. -/
structure ParseState.At (s : ParseState) (groups : List SqlGroup) (error : Option LexError)
    (n : Nat) : Prop where
  holds : s.stream.Holds (groups.drop n) error
  started : s.started = decide (n ≠ 0)

namespace ParseState.At

variable {s : ParseState} {groups : List SqlGroup} {error : Option LexError} {n : Nat}

theorem key (h : s.At groups error n) (k : Nat) :
    (s.key k).1.map Token.glance = glanceAt groups (n + k) ∧ (s.key k).2.At groups error n := by
  obtain ⟨hkey, hholds⟩ := h.holds.peekKey k
  refine ⟨?_, hholds, h.started⟩
  show (s.stream.peekKey k).1.map _ = _
  rw [hkey, List.getElem?_drop]
  rfl

theorem startsLine (h : s.At groups error n) (k : Nat) :
    (s.startsLine k).1 = startsLineAt groups (n + k) ∧ (s.startsLine k).2.At groups error n := by
  unfold ParseState.startsLine startsLineAt
  rw [h.started]
  by_cases hfirst : k = 0 ∧ n = 0
  · obtain ⟨rfl, rfl⟩ := hfirst
    exact ⟨rfl, h⟩
  · have hplace : decide (n + k = 0) = false := decide_eq_false (by omega)
    obtain ⟨hpeek, hholds⟩ := h.holds.peek k
    rw [if_neg (by simpa using hfirst), hplace, Bool.false_or]
    refine ⟨?_, hholds, h.started⟩
    show (s.stream.peek k).1.any beginsLine = _
    rw [hpeek, List.getElem?_drop]

end ParseState.At

/-- Reading has gone on from the place `n` to the place `m` and has put the groups between the two
into the open node, with terminators in nodes that may hold them. -/
structure Heeded (groups : List SqlGroup) (error : Option LexError) (lax : Bool)
    (s next : ParseState) (n m : Nat) : Prop where
  place : next.At groups error m
  kind : next.current.kind = s.current.kind ∨ next.current.kind.mayHoldTerminator = lax
  below : ∃ f, next.current.below = s.current.below.append f ∧
    f.groups ++ groups.drop m = groups.drop n ∧ m = n + f.groups.length ∧ f.Heeds groups lax n

namespace Heeded

variable {groups : List SqlGroup} {error : Option LexError} {lax : Bool}
  {s mid next : ParseState} {n k m : Nat}

theorem refl (hcurrent : next.current = s.current) (hnext : next.At groups error n) :
    Heeded groups error lax s next n n where
  place := hnext
  kind := Or.inl (by rw [hcurrent])
  below := ⟨.nil, by rw [hcurrent, Forest.append_nil], rfl, rfl, trivial⟩

theorem trans (h1 : Heeded groups error lax s mid n k) (h2 : Heeded groups error lax mid next k m) :
    Heeded groups error lax s next n m := by
  obtain ⟨f, hf, hfgroups, hk, hfheeds⟩ := h1.below
  obtain ⟨g, hg, hggroups, hm, hgheeds⟩ := h2.below
  rw [hk] at hgheeds
  refine ⟨h2.place, ?_, f.append g, ?_, ?_, ?_, hfheeds.append hgheeds⟩
  · rcases h2.kind with hsame | hlax
    · exact hsame ▸ h1.kind
    · exact Or.inr hlax
  · rw [hg, hf, Forest.append_assoc]
  · rw [Forest.groups_append, List.append_assoc, hggroups, hfgroups]
  · rw [Forest.groups_append, List.length_append, hm, hk, Nat.add_assoc]

/-- Taking a group comes to the place after it. -/
theorem bump (h : s.At groups error n)
    (hlax : lax = false → isTerminatorAt groups n = false) :
    Heeded groups error lax s s.bump n (placeAfter groups n) := by
  obtain ⟨hhead, hnext⟩ := h.holds.next
  unfold ParseState.bump
  cases hn : s.stream.next with
  | mk group stream =>
    rw [hn] at hhead hnext
    rcases Nat.lt_or_ge n groups.length with hlt | hge
    · rw [List.drop_eq_getElem_cons hlt] at hhead hnext
      obtain rfl : group = some groups[n] := hhead
      rw [show placeAfter groups n = n + 1 from if_pos hlt]
      exact ⟨⟨hnext, (decide_eq_true (Nat.succ_ne_zero n)).symm⟩, Or.inl rfl,
        .group groups[n] .nil, rfl, (List.drop_eq_getElem_cons hlt).symm, rfl, hlax, trivial⟩
    · rw [List.drop_eq_nil_of_le hge] at hhead hnext
      obtain rfl : group = none := hhead
      rw [show placeAfter groups n = n from if_neg (Nat.not_lt_of_ge hge)]
      refine refl rfl ⟨?_, h.started⟩
      rw [List.drop_eq_nil_of_le hge]
      exact hnext

/-- What has been read into a node of its own stands in a node of the kind. -/
theorem node {kind : NodeKind} {inner : ParseState}
    (h : Heeded groups error kind.mayHoldTerminator { s with current := { kind } } inner n m) :
    Heeded groups error lax s { inner with current := s.current.addNode inner.current } n m := by
  obtain ⟨f, hbelow, hgroups, hm, hheeds⟩ := h.below
  have hbelow : inner.current.below = f := hbelow
  have hkind : inner.current.kind.mayHoldTerminator = kind.mayHoldTerminator := by
    rcases h.kind with hsame | hlax
    · rw [hsame]
    · exact hlax
  have hnode : (Forest.node inner.current.kind inner.current.name f .nil).groups = f.groups :=
    List.append_nil _
  refine ⟨⟨h.place.holds, h.place.started⟩, Or.inl rfl,
    .node inner.current.kind inner.current.name f .nil, ?_, ?_, ?_, ?_, trivial⟩
  · rw [OpenNode.addNode, hbelow]
  · rw [hnode, hgroups]
  · rw [hnode, hm]
  · rw [hkind]
    exact hheeds

end Heeded

/-- A run that meets the precondition puts a forest with terminators in the right nodes into the
open node, and ends at a place with the postcondition. -/
theorem heeds_run {α : Type} {groups : List SqlGroup} {error : Option LexError} {lax : Bool}
    {r : GrammarRule α} {Q : α → Nat → Prop} {s next : ParseState} {n : Nat} {a : α}
    (hs : s.At groups error n) (h : r.Heeds groups lax Q n)
    (hrun : r.run s = (.ok a, next)) : ∃ m, Q a m ∧ Heeded groups error lax s next n m := by
  induction r generalizing lax s next n with
  | done =>
    cases hrun
    exact ⟨n, h, .refl rfl hs⟩
  | missing => cases hrun
  | look k rest ih =>
    obtain ⟨hglance, hlook⟩ := hs.key k
    rw [GrammarRule.Heeds, ← hglance] at h
    obtain ⟨m, hQ, hheeded⟩ := ih _ (s := (s.key k).2) hlook h hrun
    have hlooked : Heeded groups error lax s (s.key k).2 n n := .refl rfl hlook
    exact ⟨m, hQ, hlooked.trans hheeded⟩
  | lineStart k rest ih =>
    obtain ⟨hline, hlook⟩ := hs.startsLine k
    have hcurrent := s.startsLine_current k
    rw [GrammarRule.Heeds, ← hline] at h
    obtain ⟨m, hQ, hheeded⟩ := ih _ (s := (s.startsLine k).2) hlook h hrun
    have hlooked : Heeded groups error lax s (s.startsLine k).2 n n := .refl hcurrent hlook
    exact ⟨m, hQ, hlooked.trans hheeded⟩
  | remaining rest ih => exact ih _ hs (h _) hrun
  | bump rest ih =>
    have hbump : Heeded groups error lax s s.bump n _ := .bump hs h.1
    obtain ⟨m, hQ, hheeded⟩ := ih hbump.place h.2 hrun
    exact ⟨m, hQ, hbump.trans hheeded⟩
  | node kind inside rest ihinside ihrest =>
    obtain ⟨b, inner, hinner, hrest⟩ := GrammarRule.ok_of_node hrun
    have hempty : ({ s with current := { kind } } : ParseState).At groups error n :=
      ⟨hs.holds, hs.started⟩
    obtain ⟨k, hQ, hinside⟩ := ihinside hempty h hinner
    have hnode : Heeded groups error lax s _ n k := hinside.node
    obtain ⟨m, hQ, hheeded⟩ := ihrest b hnode.place hQ hrest
    exact ⟨m, hQ, hnode.trans hheeded⟩
  | setName name rest ih =>
    obtain ⟨m, hQ, hheeded⟩ :=
      ih (s := { s with current := { s.current with name := some name } })
        ⟨hs.holds, hs.started⟩ h hrun
    exact ⟨m, hQ, hheeded.place, hheeded.kind, hheeded.below⟩
  | setKind kind rest ih =>
    obtain ⟨m, hQ, hheeded⟩ := ih (s := { s with current := { s.current with kind } })
      ⟨hs.holds, hs.started⟩ h.2 hrun
    refine ⟨m, hQ, hheeded.place, Or.inr ?_, hheeded.below⟩
    rcases hheeded.kind with hsame | hlax
    · rw [hsame]
      exact h.1
    · exact hlax
  | within construct inside rest ihinside ihrest =>
    obtain ⟨b, inner, hinner, hrest⟩ := GrammarRule.ok_of_within hrun
    obtain ⟨k, hQ, hinside⟩ := ihinside hs h hinner
    obtain ⟨m, hQ, hheeded⟩ := ihrest b hinside.place hQ hrest
    exact ⟨m, hQ, hinside.trans hheeded⟩

end SqlDoc

/-
# Groups that are taken unread

The text of a body and of an expression is taken without being read. A body goes on up to a `/`
alone on its line, a `CREATE` that begins a line or the end (`BodyRun`). An expression goes on up to
a token that may follow it outside parentheses, a parenthesis that it does not open, a `/` alone on
its line or the end (`ExpressionRun`). The loop of the first rule asks for just that. The loop of the
second counts the parentheses that are open, and its count is that of the opening ones that have been
taken less that of the closing ones.

Key definitions: `isCreateAt`, `parensFrom`, `BodyRun`, `ExpressionRun`.
Key theorems: `reaches_skipToTerminator_body`, `reaches_skipUntil_expression`.
-/
import SqlDoc.Proofs.Syntax.Reaching

namespace SqlDoc

section

variable (groups : List SqlGroup)

/-- The group with index `n` has a `CREATE` that begins a line. -/
def isCreateAt (n : Nat) : Bool :=
  (glanceAt groups n).any (fun t => t.kind.isWord && t.value = "CREATE") && startsLineAt groups n

/-- How many tokens of the kind there are from the group with index `first` up to the one with index
`stop`. -/
def parensFrom (kind : SqlKind) (first stop : Nat) : Nat :=
  ((groups.drop first).take (stop - first)).countP fun g => g.key?.any (·.kind = kind)

/-- From `first` up to `stop` all parentheses are closed. -/
def IsOutside (first stop : Nat) : Prop :=
  parensFrom groups .rparen first stop = parensFrom groups .lparen first stop

end

section

variable {groups : List SqlGroup} {first stop n : Nat}

@[simp] theorem parensFrom_self (kind : SqlKind) : parensFrom groups kind n n = 0 := by
  rw [parensFrom, Nat.sub_self, List.take_zero, List.countP_nil]

/-- One more group counts if its token is of the kind. -/
theorem parensFrom_succ (kind : SqlKind) (h : first ≤ n) : parensFrom groups kind first (n + 1) =
    parensFrom groups kind first n +
      if (glanceAt groups n).any (·.kind = kind) then 1 else 0 := by
  have hglance : (glanceAt groups n).any (·.kind = kind) =
      (groups[n]?.any fun g => g.key?.any (·.kind = kind)) := by
    rw [glanceAt, keyAt, Option.any_map, Option.any_bind]
    rfl
  rw [parensFrom, parensFrom, hglance, show n + 1 - first = n - first + 1 by omega,
    List.take_add_one, List.countP_append, List.getElem?_drop,
    show first + (n - first) = n by omega]
  cases groups[n]? with
  | none => rfl
  | some g => simp [List.countP_cons]

end

/-! ### Runs -/

/-- From the group with index `first` up to the one with index `stop` there are significant tokens,
of which none is a `/` alone on its line. -/
structure OpaqueRun (groups : List SqlGroup) (first stop : Nat) : Prop where
  le : first ≤ stop
  keyed : ∀ i, first ≤ i → i < stop → (glanceAt groups i).isSome = true
  unended : ∀ i, first ≤ i → i < stop → isTerminatorAt groups i = false

/-- Nor does a `CREATE` among them begin a line. -/
structure BodyPart (groups : List SqlGroup) (first stop : Nat) : Prop
    extends OpaqueRun groups first stop where
  uncreated : ∀ i, first ≤ i → i < stop → isCreateAt groups i = false

/-- What comes after them, if anything does, is one of the two. -/
structure BodyRun (groups : List SqlGroup) (first stop : Nat) : Prop
    extends BodyPart groups first stop where
  ends : glanceAt groups stop = none ∨ isTerminatorAt groups stop = true ∨
    isCreateAt groups stop = true

/-- Outside parentheses, an expression that ends at a token of certain kinds ends at the group with
index `n`. -/
def endsExpressionAt (groups : List SqlGroup) (ends : SqlKind → Bool) (n : Nat) : Bool :=
  (glanceAt groups n).any fun t => ends t.kind || t.kind = .rparen

/-- No parenthesis is closed that has not been opened, and outside parentheses there is no token that
ends an expression. -/
structure ExpressionPart (groups : List SqlGroup) (ends : SqlKind → Bool) (first stop : Nat) : Prop
    extends OpaqueRun groups first stop where
  opened : ∀ i, first ≤ i → i ≤ stop →
    parensFrom groups .rparen first i ≤ parensFrom groups .lparen first i
  goesOn : ∀ i, first ≤ i → i < stop → IsOutside groups first i →
    endsExpressionAt groups ends i = false

/-- What comes after them, if anything does, is such a token or a `/` alone on its line. -/
structure ExpressionRun (groups : List SqlGroup) (ends : SqlKind → Bool) (first stop : Nat) : Prop
    extends ExpressionPart groups ends first stop where
  ends : glanceAt groups stop = none ∨ isTerminatorAt groups stop = true ∨
    IsOutside groups first stop ∧ endsExpressionAt groups ends stop = true

section

variable {groups : List SqlGroup} {ends : SqlKind → Bool} {first stop : Nat}

namespace OpaqueRun

theorem refl (first : Nat) : OpaqueRun groups first first where
  le := Nat.le_refl first
  keyed _ hi hlt := absurd hi (Nat.not_le_of_lt hlt)
  unended _ hi hlt := absurd hi (Nat.not_le_of_lt hlt)

theorem succ (h : OpaqueRun groups first stop) (hsome : (glanceAt groups stop).isSome = true)
    (hend : isTerminatorAt groups stop = false) : OpaqueRun groups first (stop + 1) where
  le := Nat.le_succ_of_le h.le
  keyed i hi hlt := by
    rcases Nat.lt_succ_iff_lt_or_eq.1 hlt with hlt | rfl
    · exact h.keyed i hi hlt
    · exact hsome
  unended i hi hlt := by
    rcases Nat.lt_succ_iff_lt_or_eq.1 hlt with hlt | rfl
    · exact h.unended i hi hlt
    · exact hend

/-- All of it is part of the file. -/
theorem stop_le (h : OpaqueRun groups first stop) (hfirst : first ≤ groups.length) :
    stop ≤ groups.length := by
  rcases Nat.eq_or_lt_of_le h.le with rfl | hlt
  · exact hfirst
  · refine Nat.le_of_not_lt fun hgt => ?_
    have hlast := h.keyed (stop - 1) (by omega) (by omega)
    have hnone : groups[stop - 1]? = none := List.getElem?_eq_none (by omega)
    rw [glanceAt, keyAt, hnone] at hlast
    cases hlast

end OpaqueRun

theorem BodyPart.refl (first : Nat) : BodyPart groups first first where
  toOpaqueRun := .refl first
  uncreated _ hi hlt := absurd hi (Nat.not_le_of_lt hlt)

theorem BodyPart.succ (h : BodyPart groups first stop)
    (hsome : (glanceAt groups stop).isSome = true) (hend : isTerminatorAt groups stop = false)
    (hcreate : isCreateAt groups stop = false) : BodyPart groups first (stop + 1) where
  toOpaqueRun := h.toOpaqueRun.succ hsome hend
  uncreated i hi hlt := by
    rcases Nat.lt_succ_iff_lt_or_eq.1 hlt with hlt | rfl
    · exact h.uncreated i hi hlt
    · exact hcreate

theorem ExpressionPart.refl (first : Nat) : ExpressionPart groups ends first first where
  toOpaqueRun := .refl first
  opened i hi hle := by
    obtain rfl := Nat.le_antisymm hi hle
    exact Nat.le_of_eq (by rw [parensFrom_self, parensFrom_self])
  goesOn _ hi hlt := absurd hi (Nat.not_le_of_lt hlt)

/-- A token that is inside parentheses or does not end the expression is part of it. -/
theorem ExpressionPart.succ (h : ExpressionPart groups ends first stop)
    (hsome : (glanceAt groups stop).isSome = true) (hend : isTerminatorAt groups stop = false)
    (hgoes : IsOutside groups first stop → endsExpressionAt groups ends stop = false)
    (hopened : parensFrom groups .rparen first (stop + 1) ≤
      parensFrom groups .lparen first (stop + 1)) :
    ExpressionPart groups ends first (stop + 1) where
  toOpaqueRun := h.toOpaqueRun.succ hsome hend
  opened i hi hle := by
    rcases Nat.le_succ_iff.1 hle with hle | rfl
    · exact h.opened i hi hle
    · exact hopened
  goesOn i hi hlt := by
    rcases Nat.lt_succ_iff_lt_or_eq.1 hlt with hlt | rfl
    · exact h.goesOn i hi hlt
    · exact hgoes

/-- The depth that the rule counts is that of the parentheses that have been taken and are open. -/
structure ExpressionPart.AtDepth (groups : List SqlGroup) (ends : SqlKind → Bool)
    (first depth stop : Nat) : Prop extends ExpressionPart groups ends first stop where
  depth : parensFrom groups .rparen first stop + depth = parensFrom groups .lparen first stop

namespace ExpressionPart.AtDepth

variable {depth : Nat}

theorem refl (first : Nat) : AtDepth groups ends first 0 first where
  toExpressionPart := .refl first
  depth := by rw [parensFrom_self, parensFrom_self]

theorem isOutside_iff (h : AtDepth groups ends first depth stop) :
    IsOutside groups first stop ↔ depth = 0 := by
  have hdepth := h.depth
  rw [IsOutside]
  omega

/-- Taking a token counts its parenthesis. -/
theorem succ (h : AtDepth groups ends first depth stop) {t : Glance}
    (ht : glanceAt groups stop = some t) (hend : isTerminatorAt groups stop = false)
    (hgoes : depth = 0 → endsExpressionAt groups ends stop = false) :
    AtDepth groups ends first (GrammarRule.depthAfter depth t.kind) (stop + 1) := by
  have hdepth := h.depth
  have hcount (kind : SqlKind) : parensFrom groups kind first (stop + 1) =
      parensFrom groups kind first stop + if t.kind = kind then 1 else 0 := by
    rw [parensFrom_succ kind h.le, ht, Option.any_some]
    simp only [decide_eq_true_eq]
  -- a closing parenthesis is taken only if one is open
  have hclose : t.kind = .rparen → 0 < depth := by
    intro hkind
    refine Nat.pos_of_ne_zero fun hzero => ?_
    have hgoes := hgoes hzero
    rw [endsExpressionAt, ht, Option.any_some, hkind, decide_eq_true rfl, Bool.or_true] at hgoes
    cases hgoes
  have hnext : parensFrom groups .rparen first (stop + 1) + GrammarRule.depthAfter depth t.kind =
      parensFrom groups .lparen first (stop + 1) := by
    rw [hcount, hcount]
    by_cases hopen : t.kind = .lparen
    · rw [hopen, if_neg (by decide), if_pos rfl]
      show _ + 0 + (depth + 1) = _
      omega
    · by_cases hshut : t.kind = .rparen
      · have hpos := hclose hshut
        rw [hshut, if_pos rfl, if_neg (by decide)]
        show _ + 1 + (depth - 1) = _
        omega
      · have hsame : GrammarRule.depthAfter depth t.kind = depth := by
          unfold GrammarRule.depthAfter
          split
          · exact absurd ‹_› hopen
          · exact absurd ‹_› hshut
          · rfl
        rw [if_neg hopen, if_neg hshut, hsame]
        omega
  exact ⟨h.toExpressionPart.succ (by rw [ht]; rfl) hend (fun hout => hgoes (h.isOutside_iff.1 hout))
    (by omega), hnext⟩

end ExpressionPart.AtDepth

end

/-- There is one place only that reading has come to. -/
theorem ParseState.At.unique {groups : List SqlGroup} {error : Option LexError} {s : ParseState}
    {n m : Nat} (h : s.At groups error n) (h' : s.At groups error m) (hn : n ≤ groups.length)
    (hm : m ≤ groups.length) : n = m := by
  have hleft : groups.drop n = groups.drop m := h.holds.allGroups.symm.trans h'.holds.allGroups
  have hlength := congrArg List.length hleft
  rw [List.length_drop, List.length_drop] at hlength
  omega

/-! ### Rules -/

namespace GrammarRule

variable {groups : List SqlGroup} {E : Reach → Prop} {p : Reach}

theorem peeks_isCreateAt {reach : Nat} (h : 0 < reach) :
    (atCreate 0).Peeks groups reach (isCreateAt groups) := by
  have hcreate : (atCreate 0).Peeks groups reach _ := peeks_atCreate h
  refine cast (congrArg _ (funext fun n => ?_)) hcreate
  simp [isCreateAt]

/-- A significant token that is next is taken. -/
theorem reaches_take_next (h : (glanceAt groups p.taken).isSome = true) :
    take.Reaches groups E (fun _ q => q.taken = p.taken + 1) p :=
  placeAfter_of_isSome h

/-- The groups of a body are taken up to its end. -/
theorem reaches_skipToTerminator_body :
    skipToTerminator.Reaches groups E (fun _ q => BodyRun groups p.taken q.taken) p := by
  refine reaches_repeatWhile (I := fun q => BodyPart groups p.taken q.taken) (fun q hpart => ?_)
    (.refl _)
  refine ((peeks_atEnd (show 0 < 2 by omega)).or ((peeks_atTerminator (by omega)).or
    (peeks_isCreateAt (by omega)))).ite (fun htest w hw => ?_) fun htest w hw => ?_
  · show BodyRun groups p.taken w.taken
    rw [hw.taken]
    exact ⟨hpart, by simpa using htest⟩
  · obtain ⟨hsome, htest⟩ := Bool.or_eq_false_iff.1 htest
    obtain ⟨hend, hcreate⟩ := Bool.or_eq_false_iff.1 htest
    have hsome : (glanceAt groups q.taken).isSome = true := by simpa using hsome
    refine (reaches_take_next (by rwa [hw.taken])).bind fun _ v hv => ?_
    show BodyPart groups p.taken v.taken ∧ keyedFrom groups v.taken < keyedFrom groups q.taken
    rw [hv, hw.taken]
    exact ⟨hpart.succ hsome hend hcreate, keyedFrom_succ_lt hsome⟩

/-- The groups of an expression are taken up to its end. -/
theorem reaches_skipUntil_expression (ends : SqlKind → Bool) : (skipUntil ends).Reaches groups E
    (fun _ q => ExpressionRun groups ends p.taken q.taken) p := by
  refine Reaches.bind (P := fun _ q => ExpressionRun groups ends p.taken q.taken)
    (reaches_iterate (I := fun depth q => ExpressionPart.AtDepth groups ends p.taken depth q.taken)
      (fun _ q => keyedFrom groups q.taken) (fun depth q hpart => ?_) (.refl _) (Nat.le_refl _))
    fun _ _ h => h
  refine (peeks_atTerminator (show 0 + 1 < 2 by omega)).ite (fun hend w hw => ?_)
    fun hend w hw => ?_
  · show ExpressionRun groups ends p.taken w.taken
    rw [hw.taken]
    exact ⟨hpart.toExpressionPart, .inr (.inl hend)⟩
  · refine (peeks_key (show 0 < 2 by omega)).bind fun v hv => ?_
    have hplace : v.taken = q.taken := hv.taken.trans hw.taken
    rw [Nat.add_zero, hw.taken]
    cases hkey : glanceAt groups q.taken with
    | none =>
      show ExpressionRun groups ends p.taken v.taken
      rw [hplace]
      exact ⟨hpart.toExpressionPart, .inl hkey⟩
    | some t =>
      have hstops : endsExpressionAt groups ends q.taken = true ↔
          ends t.kind ∨ t.kind = .rparen := by
        rw [endsExpressionAt, hkey, Option.any_some, Bool.or_eq_true, decide_eq_true_eq]
      refine Reaches.ite (fun hstop => ?_) fun hgoes => ?_
      · show ExpressionRun groups ends p.taken v.taken
        rw [hplace]
        exact ⟨hpart.toExpressionPart,
          .inr (.inr ⟨hpart.isOutside_iff.2 hstop.1, hstops.2 hstop.2⟩)⟩
      · have hsome : (glanceAt groups q.taken).isSome = true := by rw [hkey]; rfl
        refine (reaches_take_next (by rwa [hplace])).bind fun _ u hu => ?_
        show ExpressionPart.AtDepth groups ends p.taken (depthAfter depth t.kind) u.taken ∧
          keyedFrom groups u.taken < keyedFrom groups q.taken
        rw [hu, hplace]
        refine ⟨hpart.succ hkey hend fun hzero => ?_, keyedFrom_succ_lt hsome⟩
        exact Bool.eq_false_iff.2 fun hstop => hgoes ⟨hzero, hstops.1 hstop⟩

/-! ### What has been taken -/

variable {error : Option LexError} {s next : ParseState} {n m : Nat}

/-- Where a rule ends is known from what it reaches. -/
theorem ok_of_reaches {α : Type} {r : GrammarRule α} {Q : α → Nat → Prop} {a : α}
    (hs : s.At groups error n)
    (h : ∀ p : Reach, p.taken = n →
      r.Reaches groups (fun _ => True) (fun a q => Q a q.taken) p)
    (hrun : r.run s = (.ok a, next)) : ∃ k, next.At groups error k ∧ Q a k := by
  -- all groups count as looked at, so that an end which has been noticed is among them
  have hreached : s.Reached groups error ⟨n, groups.length + 1⟩ := by
    refine ⟨hs, fun _ => ⟨groups.length, Nat.lt_succ_self _, ?_⟩⟩
    rw [glanceAt, keyAt, List.getElem?_eq_none (Nat.le_refl _)]
    rfl
  obtain ⟨q, hq, hQ⟩ := reaches_run hreached (h _ rfl) hrun
  exact ⟨q.taken, hq.place, hQ⟩

/-- The groups of a body are a run that ends where a body may end. -/
theorem bodyRun_of_run (hs : s.At groups error n) (hnext : next.At groups error m)
    (hn : n ≤ m) (hm : m ≤ groups.length)
    (hrun : skipToTerminator.run s = (.ok (), next)) : BodyRun groups n m := by
  obtain ⟨k, hk, hbody⟩ := ok_of_reaches (Q := fun _ k => BodyRun groups n k) hs
    (fun p hp => hp ▸ reaches_skipToTerminator_body) hrun
  rwa [hk.unique hnext (hbody.stop_le (Nat.le_trans hn hm)) hm] at hbody

/-- The groups of an expression are a run that ends where an expression may end. -/
theorem expressionRun_of_run {ends : SqlKind → Bool} (hs : s.At groups error n)
    (hnext : next.At groups error m) (hn : n ≤ m) (hm : m ≤ groups.length)
    (hrun : (skipUntil ends).run s = (.ok (), next)) : ExpressionRun groups ends n m := by
  obtain ⟨k, hk, hexpression⟩ := ok_of_reaches (Q := fun _ k => ExpressionRun groups ends n k) hs
    (fun p hp => hp ▸ reaches_skipUntil_expression ends) hrun
  rwa [hk.unique hnext (hexpression.stop_le (Nat.le_trans hn hm)) hm] at hexpression

end GrammarRule
end SqlDoc

/-
# A comment before a token

A comment is trivia. So where one is put between two tokens of a script, the trees are those of the
script without it, with the comment among the trivia of the group that the token behind it is in
(`parseTokens_insert`). Only places are moved, and trees that differ in nothing else are the same
when places are left out (`SyntaxTree.unplaced`).

Key definitions: `Token.unplaced`, `TokenGroup.insert`, `SyntaxTree.regroup`,
`SyntaxTree.unplaced`.
Key theorems: `groupsOf_insert`, `sameAhead_of_map`, `parseTokens_insert`.
-/
import Mathlib.Data.List.Nodup
import SqlDoc.Proofs.Sql.Content
import SqlDoc.Proofs.Syntax.Layout

namespace SqlDoc

/-! ### Places -/

namespace TokenGroup

variable {κ : Type}

/-- The group without the places of its tokens. -/
def unplaced : TokenGroup κ → TokenGroup κ
  | keyed leading key => keyed (leading.map .unplaced) key.unplaced
  | trailing first rest => trailing first.unplaced (rest.map .unplaced)

/-- The group with one more token, behind the first `n` of its trivia. -/
def insert (n : Nat) (t : Token κ) : TokenGroup κ → TokenGroup κ
  | keyed leading key => keyed (leading.take n ++ t :: leading.drop n) key
  | trailing first rest => trailing first rest

/-- The group with one more token, behind the first `n` of its trivia, if its significant token is
`first`. -/
def insertBefore [DecidableEq κ] (first : Token κ) (n : Nat) (t : Token κ) (g : TokenGroup κ) :
    TokenGroup κ :=
  if g.key? = some first then g.insert n t else g

@[simp] theorem key?_unplaced (g : TokenGroup κ) : g.unplaced.key? = g.key?.map .unplaced := by
  cases g <;> rfl

@[simp] theorem key?_insert (g : TokenGroup κ) (n : Nat) (t : Token κ) :
    (g.insert n t).key? = g.key? := by
  cases g <;> rfl

section

variable [DecidableEq κ] {first : Token κ} {n : Nat} {t : Token κ} {g : TokenGroup κ}

theorem insertBefore_keyed (leading : List (Token κ)) :
    (keyed leading first).insertBefore first n t =
      keyed (leading.take n ++ t :: leading.drop n) first :=
  if_pos rfl

theorem insertBefore_of_ne (h : g.key? ≠ some first) : g.insertBefore first n t = g :=
  if_neg h

@[simp] theorem key?_insertBefore : (g.insertBefore first n t).key? = g.key? := by
  unfold insertBefore
  split
  · exact key?_insert ..
  · rfl

end

end TokenGroup

/-! ### Groups -/

/-- Places do not decide how tokens are grouped. -/
theorem groupsAfter_unplaced (leading tokens : List SqlToken) :
    groupsAfter (leading.map .unplaced) (tokens.map .unplaced) =
      (groupsAfter leading tokens).map .unplaced := by
  fun_induction groupsAfter leading tokens with
  | case1 => rfl
  | case2 first rest => rfl
  | case3 leading t tokens ht ih =>
    have ht : t.unplaced.isSignificant = true := ht
    rw [List.map_cons, groupsAfter, if_pos ht, List.map_cons]
    exact congrArg _ ih
  | case4 leading t tokens ht ih =>
    have ht : ¬ t.unplaced.isSignificant = true := ht
    rw [List.map_cons, groupsAfter, if_neg ht, ← ih, List.map_append]
    rfl

theorem groupsOf_unplaced (tokens : List SqlToken) :
    groupsOf (tokens.map .unplaced) = (groupsOf tokens).map .unplaced :=
  groupsAfter_unplaced [] tokens

/-- The trivia before a token are in its group. -/
theorem groupsAfter_trivia {trivia : List SqlToken} (leading : List SqlToken)
    (htrivia : ∀ t ∈ trivia, t.isSignificant = false) {first : SqlToken}
    (hfirst : first.isSignificant = true) (more : List SqlToken) :
    groupsAfter leading (trivia ++ first :: more) =
      .keyed (leading ++ trivia) first :: groupsOf more := by
  induction trivia generalizing leading with
  | nil => rw [List.nil_append, List.append_nil, groupsAfter, if_pos hfirst, groupsOf]
  | cons t trivia ih =>
    obtain ⟨ht, hrest⟩ := List.forall_mem_cons.1 htrivia
    rw [List.cons_append, groupsAfter, if_neg (by rw [ht]; decide), ih _ hrest, List.append_assoc,
      List.singleton_append]

/-- The groups of the tokens on the left are closed, but for the last, whose trivia may go on. -/
theorem groupsAfter_append (leading left : List SqlToken) :
    ∃ groups pending, groups.flatMap (·.tokens) ++ pending = leading ++ left ∧
      ∀ right, groupsAfter leading (left ++ right) = groups ++ groupsAfter pending right := by
  induction left generalizing leading with
  | nil => exact ⟨[], leading, by simp, fun right => rfl⟩
  | cons t left ih =>
    by_cases ht : t.isSignificant = true
    · obtain ⟨groups, pending, htokens, hgroups⟩ := ih []
      refine ⟨.keyed leading t :: groups, pending, ?_, fun right => ?_⟩
      · rw [List.flatMap_cons, List.append_assoc, htokens, TokenGroup.tokens_keyed]
        simp
      · rw [List.cons_append, groupsAfter, if_pos ht, hgroups, List.cons_append]
    · obtain ⟨groups, pending, htokens, hgroups⟩ := ih (leading ++ [t])
      refine ⟨groups, pending, ?_, fun right => ?_⟩
      · rw [htokens, List.append_assoc, List.singleton_append]
      · rw [List.cons_append, groupsAfter, if_neg ht, hgroups]

theorem key?_mem_tokens {κ : Type} {g : TokenGroup κ} {t : Token κ} (h : g.key? = some t) :
    t ∈ g.tokens := by
  cases g with
  | keyed leading key =>
    cases h
    exact List.mem_append_right _ List.mem_cons_self
  | trailing => cases h

/-- A token that is put before another one is put into the group of that one. -/
theorem groupsOf_insert {left trivia more : List SqlToken} {first doc : SqlToken}
    (hnodup : (left ++ (trivia ++ first :: more)).Nodup)
    (htrivia : ∀ t ∈ trivia, t.isSignificant = false) (hfirst : first.isSignificant = true)
    (hdoc : doc.isSignificant = false) :
    ∃ n, groupsOf (left ++ doc :: (trivia ++ first :: more)) =
      (groupsOf (left ++ (trivia ++ first :: more))).map (.insertBefore first n doc) := by
  obtain ⟨groups, pending, htokens, hgroups⟩ := groupsAfter_append [] left
  rw [List.nil_append] at htokens
  have hdocs : ∀ t ∈ doc :: trivia, t.isSignificant = false :=
    List.forall_mem_cons.2 ⟨hdoc, htrivia⟩
  refine ⟨pending.length, ?_⟩
  -- the token is that of no other group
  have hsame {others : List SqlGroup} (h : first ∉ others.flatMap (·.tokens)) :
      others.map (.insertBefore first pending.length doc) = others := by
    conv_rhs => rw [← others.map_id]
    refine List.map_congr_left fun g hg => TokenGroup.insertBefore_of_ne fun hkey => h ?_
    exact List.mem_flatMap.2 ⟨g, hg, key?_mem_tokens hkey⟩
  obtain ⟨-, hright, hdisjoint⟩ := List.nodup_append.1 hnodup
  have hbefore : first ∉ groups.flatMap (·.tokens) := by
    intro hmem
    refine hdisjoint first ?_ first (by simp) rfl
    rw [← htokens]
    exact List.mem_append_left _ hmem
  have hafter : first ∉ (groupsOf more).flatMap (·.tokens) := by
    rw [tokens_groupsOf]
    exact (List.nodup_cons.1 (List.nodup_append.1 hright).2.1).1
  have hinto : (TokenGroup.keyed (pending ++ trivia) first).insertBefore first pending.length doc =
      .keyed (pending ++ doc :: trivia) first := by
    rw [TokenGroup.insertBefore_keyed, List.take_left, List.drop_left]
  rw [groupsOf, groupsOf, hgroups, hgroups, groupsAfter_trivia _ htrivia hfirst,
    ← List.cons_append, groupsAfter_trivia _ hdocs hfirst, List.map_append, List.map_cons,
    hsame hbefore, hsame hafter, hinto]

/-! ### Trees -/

/-- The tree with each group as `view` shows it. -/
def SyntaxTree.regroup (view : SqlGroup → SqlGroup) (t : SyntaxTree) : SyntaxTree :=
  t.sift fun g => some (view g)

namespace Forest

variable (f : Forest)

theorem groups_sift (view : SqlGroup → SqlGroup) :
    (f.sift fun g => some (view g)).groups = f.groups.map view := by
  induction f with
  | nil => rfl
  | group g rest ih => exact congrArg (view g :: ·) ih
  | node _ _ below rest ihbelow ihrest =>
    rw [sift, groups, groups, ihbelow, ihrest, List.map_append]

theorem groupsBefore_sift (view : SqlGroup → SqlGroup) (stop : NodeKind → Bool) :
    (f.sift fun g => some (view g)).groupsBefore stop = (f.groupsBefore stop).map view := by
  induction f with
  | nil => rfl
  | group g rest ih => exact congrArg (view g :: ·) ih
  | node kind _ below rest _ ih =>
    rw [sift, groupsBefore, groupsBefore]
    split
    · rfl
    · rw [groups_sift, ih, List.map_append]

variable (view : SqlGroup → Option SqlGroup)

theorem size_sift : (f.sift view).size = f.size := by
  induction f with
  | nil => rfl
  | group g rest ih =>
    rw [sift, size, ← ih]
    cases view g <;> rfl
  | node _ _ below rest ihbelow ihrest => rw [sift, size, size, ihbelow, ihrest]

/-- The nodes keep their numbers. -/
theorem numbered_sift (id : Nat) :
    (f.sift view).numbered id = (f.numbered id).map fun p => (p.1, p.2.sift view) := by
  induction f generalizing id with
  | nil => rfl
  | group g rest ih =>
    rw [sift, numbered, ← ih]
    cases view g <;> rfl
  | node _ _ below rest _ ih => rw [sift, numbered, numbered, size_sift, ih, List.map_cons]; rfl

end Forest

namespace SyntaxTree

variable (view : SqlGroup → SqlGroup) (t : SyntaxTree)

@[simp] theorem kind_regroup : (t.regroup view).kind = t.kind := rfl

@[simp] theorem groups_regroup : (t.regroup view).groups = t.groups.map view :=
  t.below.groups_sift view

theorem numberedChildren_regroup (id : Nat) : (t.regroup view).numberedChildren id =
    (t.numberedChildren id).map fun p => (p.1, p.2.regroup view) :=
  t.below.numbered_sift _ (id + 1)

theorem children_regroup : (t.regroup view).children = t.children.map (.regroup view) := by
  have hnumbered := congrArg (List.map (·.2)) (t.numberedChildren_regroup view 0)
  rw [List.map_map] at hnumbered
  rw [children, children, ← Forest.numbered_trees _ 1, ← Forest.numbered_trees _ 1, List.map_map]
  exact hnumbered

theorem child?_regroup (kind : NodeKind) :
    (t.regroup view).child? kind = (t.child? kind).map (.regroup view) := by
  rw [child?, child?, children_regroup, List.find?_map]
  rfl

end SyntaxTree

/-- The tree without the places of its tokens. -/
def SyntaxTree.unplaced (t : SyntaxTree) : SyntaxTree :=
  t.regroup .unplaced

theorem Forest.sift_sift (view after : SqlGroup → SqlGroup) (f : Forest) :
    (f.sift fun g => some (view g)).sift (fun g => some (after g)) =
      f.sift fun g => some (after (view g)) := by
  induction f with
  | nil => rfl
  | group g rest ih => exact congrArg _ ih
  | node kind name below rest ihbelow ihrest => rw [sift, sift, sift, ihbelow, ihrest]

/-- Groups that differ in what neither a rule nor a view shows are read in step. -/
theorem sameAhead_of_map {groups others : List SqlGroup} {view otherView : SqlGroup → SqlGroup}
    (error otherError : Option LexError) (h : groups.map view = others.map otherView)
    (hkey : ∀ g h, view g = otherView h → g.key?.map Token.glance = h.key?.map Token.glance)
    (hline : ∀ g h, view g = otherView h → beginsLine g = beginsLine h) :
    SameAhead ⟨fun g => some (view g), error⟩ ⟨fun g => some (otherView g), otherError⟩ false groups
      others := by
  have hsame (n : Nat) : groups[n]? = none ∧ others[n]? = none ∨
      ∃ g h, groups[n]? = some g ∧ others[n]? = some h ∧ view g = otherView h := by
    have hn := congrArg (·[n]?) h
    simp only [List.getElem?_map] at hn
    cases hg : groups[n]? with
    | none =>
      rw [hg] at hn
      exact .inl ⟨rfl, Option.map_eq_none_iff.1 hn.symm⟩
    | some g =>
      rw [hg] at hn
      obtain ⟨k, hk, hview⟩ := Option.map_eq_some_iff.1 hn.symm
      exact .inr ⟨g, k, rfl, hk, hview.symm⟩
  refine ⟨fun n => ?_, fun n _ => ?_, fun n => ?_⟩
  · unfold keyAt
    rcases hsame n with ⟨hg, hk⟩ | ⟨g, k, hg, hk, hview⟩
    · rw [hg, hk]
    · rw [hg, hk]
      exact hkey g k hview
  · rcases hsame n with ⟨hg, hk⟩ | ⟨g, k, hg, hk, hview⟩
    · rw [hg, hk]
    · rw [hg, hk]
      exact hline g k hview
  · rcases hsame n with ⟨hg, hk⟩ | ⟨g, k, hg, hk, hview⟩
    · rw [hg, hk]
      rfl
    · rw [hg, hk]
      exact congrArg some hview

theorem glance_unplaced (g : SqlGroup) :
    g.unplaced.key?.map Token.glance = g.key?.map Token.glance := by
  rw [TokenGroup.key?_unplaced, Option.map_map]
  rfl

theorem beginsLine_unplaced (g : SqlGroup) : beginsLine g.unplaced = beginsLine g := by
  cases g with
  | keyed leading key =>
    show (true && (leading.map Token.unplaced).any _) = _
    rw [List.any_map]
    rfl
  | trailing first rest => rfl

theorem beginsLine_insert (g : SqlGroup) (n : Nat) {t : SqlToken} (ht : t.kind ≠ .newline) :
    beginsLine (g.insert n t) = beginsLine g := by
  cases g with
  | keyed leading key =>
    have hnewline : decide (t.kind = .newline) = false := decide_eq_false ht
    show (true && (leading.take n ++ t :: leading.drop n).any _) = (true && leading.any _)
    rw [List.any_append, List.any_cons, hnewline, Bool.false_or, ← List.any_append,
      List.take_append_drop]
  | trailing first rest => rfl

/-- The trees of a script with a comment before a token are those of the script, with the comment in
the group of the token, but for places. -/
theorem parseTokens_insert {lexed commented : Lexed} {left trivia more left' right' : List SqlToken}
    {first doc : SqlToken} (htokens : lexed.tokens = left ++ (trivia ++ first :: more))
    (hcommented : commented.tokens = left' ++ doc :: right')
    (hleft : left'.map Token.content = left.map Token.content)
    (hright : right'.map Token.content = (trivia ++ first :: more).map Token.content)
    (hnodup : lexed.tokens.Nodup) (htrivia : ∀ t ∈ trivia, t.isSignificant = false)
    (hfirst : first.isSignificant = true) (hdoc : doc.kind = .docComment) :
    ∃ n, (parseTokens commented).trees.map .unplaced =
        (parseTokens lexed).trees.map (fun t =>
          (t.regroup (.insertBefore first n doc)).unplaced) ∧
      (lexed.error = none → commented.error = none →
        SameEnding (parseTokens lexed).error (parseTokens commented).error) := by
  have hinsignificant : doc.isSignificant = false := by
    rw [Token.isSignificant, Token.trivia, hdoc]
    rfl
  rw [htokens] at hnodup
  obtain ⟨n, hgroups⟩ := groupsOf_insert hnodup htrivia hfirst hinsignificant
  refine ⟨n, ?_⟩
  let insert : SqlGroup → SqlGroup := .insertBefore first n doc
  have hseen : (groupsOf lexed.tokens).map (fun g => (insert g).unplaced) =
      (groupsOf commented.tokens).map .unplaced := by
    have hmap : (groupsOf lexed.tokens).map (fun g => (insert g).unplaced) =
        ((groupsOf lexed.tokens).map insert).map .unplaced := by
      rw [List.map_map]
      rfl
    have htokens' : commented.tokens.map Token.unplaced =
        (left ++ doc :: (trivia ++ first :: more)).map Token.unplaced := by
      rw [hcommented, List.map_append, List.map_cons, map_unplaced_eq hleft,
        map_unplaced_eq hright, ← List.map_cons, ← List.map_append]
    rw [hmap, htokens, ← hgroups, ← groupsOf_unplaced, ← groupsOf_unplaced, htokens']
  have hkey (g : SqlGroup) : (insert g).unplaced.key?.map Token.glance =
      g.key?.map Token.glance := by
    rw [glance_unplaced, TokenGroup.key?_insertBefore]
  have hline (g : SqlGroup) : beginsLine (insert g).unplaced = beginsLine g := by
    rw [beginsLine_unplaced]
    unfold insert TokenGroup.insertBefore
    split
    · exact beginsLine_insert g n (by rw [hdoc]; decide)
    · rfl
  have halike := parseTokens_alike (sameAhead_of_map lexed.error commented.error hseen
    (fun g h hview => by rw [← hkey g, hview, glance_unplaced])
    (fun g h hview => by rw [← hline g, hview, beginsLine_unplaced]))
  refine ⟨?_, halike.error⟩
  have htrees : SyntaxTree.sift (fun g => some (insert g).unplaced) =
      fun t => (t.regroup insert).unplaced := by
    funext t
    exact congrArg (SyntaxTree.mk t.kind t.name) (Forest.sift_sift insert .unplaced t.below).symm
  rw [← htrees]
  exact halike.trees.symm

end SqlDoc

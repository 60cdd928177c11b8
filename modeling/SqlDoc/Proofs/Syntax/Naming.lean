/-
# Names read from the groups that write them

A name is read part by part, so its parts are the normal forms of what the groups hold that are
taken, with the dots between them left out (`DottedParts`). So the node of an identifier is named for
its groups. The node of a pragma is named for the word after `PRAGMA`, which is looked at before it
is taken, and nothing that is taken later names the node again (`GrammarRule.KeepsName`).

Key definitions: `DottedParts`, `NodeKind.IsNamedFor`, `GrammarRule.KeepsName`.
Key theorems: `dottedParts_name`, `isNamedFor_identifier`, `ok_of_expectWord`,
`isNamedFor_pragma`.
-/
import SqlDoc.Proofs.Syntax.Adding
import SqlDoc.Proofs.Syntax.Taking

namespace SqlDoc

/-! ### Names of nodes -/

/-- The groups write a name with its qualifiers, and the normal forms of its parts are those. -/
inductive DottedParts : List SqlGroup → List String → Prop where
  | single (leading : List SqlToken) {t : SqlToken} (ht : t.kind.isName = true) :
      DottedParts [.keyed leading t] [t.value]
  | qualified {groups : List SqlGroup} {parts : List String} (h : DottedParts groups parts)
      (leading leading' : List SqlToken) {dot t : SqlToken} (hdot : dot.kind = .dot)
      (ht : t.kind.isName = true) :
      DottedParts (groups ++ [.keyed leading dot, .keyed leading' t]) (parts ++ [t.value])

namespace NodeKind

/-- The name of a node of the kind can be read off its groups. -/
def isLabel : NodeKind → Bool
  | identifier | pragma => true
  | _ => false

/-- A node of the kind that holds the groups has the name that they give it. -/
def IsNamedFor (kind : NodeKind) (name : Option Name) (groups : List SqlGroup) : Prop :=
  match kind with
  | identifier => ∃ parts, name = some ⟨parts⟩ ∧ DottedParts groups parts
  | pragma => ∀ leading word, groups[1]? = some (.keyed leading word) → name = some ⟨[word.value]⟩
  | _ => True

end NodeKind

/-! ### Reading a name -/

namespace GrammarRule

variable {α β σ : Type} {groups : List SqlGroup} {error : Option LexError} {s next : ParseState}

/-- A glance at a token ahead shows the groups that are left. -/
theorem ok_of_key {n : Nat} {seen : Option Glance} (h : s.stream.Holds groups error)
    (hrun : (key n).run s = (.ok seen, next)) :
    seen = (groups[n]?.bind (·.key?)).map Token.glance ∧ Took groups error s next [] groups := by
  have hkey : (s.key n).1 = groups[n]?.bind (·.key?) := (h.peekKey n).1
  cases hrun
  refine ⟨?_, took_key h n⟩
  rw [← hkey]
  rfl

/-- So does a question about it. -/
theorem ok_of_at? {n : Nat} {p : Glance → Bool} {b : Bool} (h : s.stream.Holds groups error)
    (hrun : (at? n p).run s = (.ok b, next)) :
    b = (groups[n]?.bind (·.key?)).any (fun t => p t.glance) ∧
      Took groups error s next [] groups := by
  have hrun : (key n >>= fun seen => done (seen.any p)).run s = (.ok b, next) := hrun
  obtain ⟨seen, mid, hkey, hdone⟩ := ok_of_bind hrun
  obtain ⟨rfl, hlooked⟩ := ok_of_key h hkey
  cases hdone
  exact ⟨Option.any_map .., hlooked⟩

/-- Where a token ahead is as asked, its group is there. -/
theorem exists_keyed {n : Nat} {p : SqlToken → Bool}
    (h : (groups[n]?.bind (·.key?)).any p = true) :
    ∃ leading t, groups[n]? = some (.keyed leading t) ∧ p t = true := by
  obtain ⟨t, hkey, ht⟩ := (Option.any_eq_true ..).1 h
  obtain ⟨g, hg, hgkey⟩ := Option.bind_eq_some_iff.1 hkey
  cases g with
  | keyed leading key =>
    cases hgkey
    exact ⟨leading, t, hg, ht⟩
  | trailing => cases hgkey

/-- A part is taken with its group, and the name has one more part. -/
theorem ok_of_namePart {leading : List SqlToken} {t : SqlToken} {rest : List SqlGroup}
    {name result : Name} (h : s.stream.Holds (.keyed leading t :: rest) error)
    (hrun : (namePart name).run s = (.ok result, next)) :
    result = name.push t.value ∧
      Took (.keyed leading t :: rest) error s next [.keyed leading t] rest := by
  have hkey : (s.key 0).1 = some t := (h.peekKey 0).1
  have hlook := took_key h 0
  have hbump := took_bump hlook.holds
  have hrun : (.ok (((s.key 0).1.map Token.glance).elim name (name.push ·.value)),
      (s.key 0).2.bump) = (Except.ok result, next) := hrun
  cases hrun
  rw [hkey]
  exact ⟨rfl, hlook.append hbump⟩

/-- Takes one more part of a name, if a dot and a part are next. -/
def qualifier (name : Name) : GrammarRule (Option Name) := do
  if ← atKind 0 .dot <&&> atName 1 then
    take
    some <$> namePart name
  else return none

/-- A qualifier takes a dot and a part, or nothing. -/
theorem ok_of_qualifier {name : Name} {result : Option Name} (h : s.stream.Holds groups error)
    (hrun : (qualifier name).run s = (.ok result, next)) :
    result = none ∧ Took groups error s next [] groups ∨
      ∃ leading dot leading' t left, dot.kind = .dot ∧ t.kind.isName = true ∧
        result = some (name.push t.value) ∧
        Took groups error s next [.keyed leading dot, .keyed leading' t] left := by
  obtain ⟨both, mid, htests, hrest⟩ := ok_of_bind hrun
  obtain ⟨isDot, first, hdot, hname⟩ := ok_of_bind htests
  obtain ⟨rfl, hfirst⟩ := ok_of_at? h hdot
  cases hdotKind : (groups[0]?.bind (·.key?)).any fun t => t.glance.kind = .dot with
  | false =>
    rw [hdotKind] at hname
    cases hname
    cases hrest
    exact .inl ⟨rfl, hfirst⟩
  | true =>
    rw [hdotKind] at hname
    obtain ⟨rfl, hsecond⟩ := ok_of_at? hfirst.holds hname
    have hlooked := hfirst.append hsecond
    cases hnameKind : (groups[1]?.bind (·.key?)).any fun t => t.glance.kind.isName with
    | false =>
      rw [hnameKind] at hrest
      cases hrest
      exact .inl ⟨rfl, hlooked⟩
    | true =>
      rw [hnameKind] at hrest
      obtain ⟨leading, dot, hfirstGroup, hisDot⟩ := exists_keyed hdotKind
      obtain ⟨leading', t, hsecondGroup, ht⟩ := exists_keyed hnameKind
      obtain ⟨left, rfl⟩ :
          ∃ left, groups = .keyed leading dot :: .keyed leading' t :: left := by
        match groups, hfirstGroup, hsecondGroup with
        | _ :: _ :: left, hfirstGroup, hsecondGroup =>
          cases hfirstGroup
          cases hsecondGroup
          exact ⟨left, rfl⟩
      obtain ⟨_, taken, htake, hpart⟩ := ok_of_bind hrest
      cases htake
      have hbump := took_bump hlooked.holds
      obtain ⟨part, last, hpart, hdone⟩ := ok_of_bind hpart
      obtain ⟨rfl, hlast⟩ := ok_of_namePart hbump.holds hpart
      cases hdone
      exact .inr ⟨leading, dot, leading', t, left, of_decide_eq_true hisDot, ht, rfl,
        (hlooked.append hbump).append hlast⟩

/-- Qualifiers one after the other go on with the name that has been read. -/
theorem dottedParts_iterateUpTo {count : Nat} {name result : Name} {before : List SqlGroup}
    (h : s.stream.Holds groups error) (hbefore : DottedParts before name.parts)
    (hrun : (iterateUpTo qualifier count name).run s = (.ok result, next)) :
    ∃ taken left, Took groups error s next taken left ∧
      DottedParts (before ++ taken) result.parts := by
  induction count generalizing s name groups before with
  | zero =>
    cases hrun
    exact ⟨[], groups, .looked h rfl, by rwa [List.append_nil]⟩
  | succ count ih =>
    rw [iterateUpTo_succ] at hrun
    obtain ⟨more, mid, hstep, hrest⟩ := ok_of_bind hrun
    rcases ok_of_qualifier h hstep with ⟨rfl, htook⟩ |
      ⟨leading, dot, leading', t, between, hdot, ht, rfl, htook⟩
    · cases hrest
      exact ⟨[], groups, htook, by rwa [List.append_nil]⟩
    · have hname : DottedParts _ (name.push t.value).parts :=
        .qualified hbefore leading leading' hdot ht
      obtain ⟨taken, left, hmore, hparts⟩ := ih htook.holds hname hrest
      refine ⟨_, left, htook.append hmore, ?_⟩
      rwa [← List.append_assoc]

/-- A name is read from the groups that write it. -/
theorem dottedParts_name {result : Name} (h : s.stream.Holds groups error)
    (hrun : name.run s = (.ok result, next)) :
    ∃ taken left, Took groups error s next taken left ∧ DottedParts taken result.parts := by
  obtain ⟨isName, looked, hat, hrest⟩ := ok_of_bind hrun
  obtain ⟨rfl, hlooked⟩ := ok_of_at? h hat
  cases hkind : (groups[0]?.bind (·.key?)).any fun t => t.glance.kind.isName with
  | false =>
    rw [hkind] at hrest
    cases hrest
  | true =>
    rw [hkind] at hrest
    obtain ⟨leading, t, hgroup, ht⟩ := exists_keyed hkind
    obtain ⟨rest, rfl⟩ : ∃ rest, groups = .keyed leading t :: rest := by
      match groups, hgroup with
      | _ :: rest, hgroup =>
        cases hgroup
        exact ⟨rest, rfl⟩
    obtain ⟨first, mid, hpart, hmore⟩ := ok_of_bind hrest
    obtain ⟨rfl, hfirst⟩ := ok_of_namePart hlooked.holds hpart
    have hsingle : DottedParts [.keyed leading t] (Name.push .empty t.value).parts :=
      .single leading ht
    obtain ⟨taken, left, htook, hparts⟩ :=
      dottedParts_iterateUpTo hfirst.holds hsingle hmore
    exact ⟨_, left, (hlooked.append hfirst).append htook, hparts⟩

/-- The node of an identifier is named for its groups. -/
theorem isNamedFor_identifier {result : Name} {kind : NodeKind} (h : s.stream.Holds groups error)
    (hcurrent : s.current = { kind })
    (hrun : (do let n ← name; setName n (done n)).run s = (.ok result, next)) :
    NodeKind.identifier.IsNamedFor next.current.name next.current.below.groups := by
  obtain ⟨n, mid, hname, hset⟩ := ok_of_bind hrun
  obtain ⟨taken, left, htook, hparts⟩ := dottedParts_name h hname
  have hgroups : mid.current.below.groups = taken := by
    rw [htook.current, hcurrent]
    rfl
  cases hset
  exact ⟨result.parts, rfl, hgroups ▸ hparts⟩

/-! ### Reading a pragma -/

/-- A run of the rule leaves the name of the open node as it is. -/
def KeepsName (r : GrammarRule α) : Prop :=
  ∀ n, r.Leaves (fun _ m => m.name = n.name) n

namespace KeepsName

theorem pure (a : α) : (Pure.pure a : GrammarRule α).KeepsName :=
  fun _ => rfl

theorem missing (expected : String) : (GrammarRule.missing expected : GrammarRule α).KeepsName :=
  fun _ => trivial

theorem bind {r : GrammarRule α} {f : α → GrammarRule β} (hr : r.KeepsName)
    (hf : ∀ a, (f a).KeepsName) : (r >>= f).KeepsName := by
  intro n
  refine (leaves_bind r f _ n).2 ((hr n).mono fun a m hm => (hf a m).mono fun _ l hl => ?_)
  exact hl.trans hm

theorem ite {c : Prop} [Decidable c] {r r' : GrammarRule α} (hr : r.KeepsName)
    (hr' : r'.KeepsName) : (if c then r else r').KeepsName := by
  split
  · exact hr
  · exact hr'

theorem look {n : Nat} {next : Option Glance → GrammarRule α} (h : ∀ seen, (next seen).KeepsName) :
    (GrammarRule.look n next).KeepsName :=
  fun m seen => h seen m

theorem take : GrammarRule.take.KeepsName :=
  fun _ => ⟨rfl, fun _ => rfl⟩

theorem iterate {step : σ → GrammarRule (Option σ)} (h : ∀ s, (step s).KeepsName) (s : σ) :
    (GrammarRule.iterate step s).KeepsName := by
  have hcount (count : Nat) : (GrammarRule.iterateUpTo step count s).KeepsName :=
    iterateUpTo_induction (P := (·.KeepsName)) pure (fun s _ hf => (h s).bind hf) count s
  exact fun n count => hcount (count + 1) n

theorem skipParens : GrammarRule.skipParens.KeepsName := by
  refine bind (look fun _ => pure _) fun _ => ite (bind (iterate (fun depth => ?_) 0) fun _ =>
    pure _) (pure _)
  refine bind (look fun _ => pure _) fun seen => ?_
  cases seen with
  | none => exact pure _
  | some t => exact take.bind fun _ => pure _

theorem expectSemicolon : GrammarRule.expectSemicolon.KeepsName :=
  bind (bind (look fun _ => pure _) fun _ => ite (take.bind fun _ => pure _) (pure _)) fun _ =>
    ite (pure _) (missing _)

end KeepsName

/-- A token that is as asked is taken with its group, and any other is left. -/
theorem ok_of_takeIf {p : Glance → Bool} {b : Bool} (h : s.stream.Holds groups error)
    (hrun : (takeIf (at? 0 p)).run s = (.ok b, next)) :
    b = false ∧ Took groups error s next [] groups ∧ next.current = s.current ∨
      b = true ∧ ∃ leading t left, groups = .keyed leading t :: left ∧ p t.glance = true ∧
        Took groups error s next [.keyed leading t] left ∧
        next.current = s.current.addGroup (.keyed leading t) := by
  obtain ⟨isThere, looked, hat, htake⟩ := ok_of_bind hrun
  have hcurrent : looked.current = s.current := by
    cases hat
    rfl
  obtain ⟨rfl, hlooked⟩ := ok_of_at? h hat
  cases hfound : (groups[0]?.bind (·.key?)).any fun t => p t.glance with
  | false =>
    rw [hfound] at htake
    cases htake
    exact .inl ⟨rfl, hlooked, hcurrent⟩
  | true =>
    rw [hfound] at htake
    obtain ⟨leading, t, hgroup, ht⟩ := exists_keyed hfound
    obtain ⟨left, rfl⟩ : ∃ left, groups = .keyed leading t :: left := by
      match groups, hgroup with
      | _ :: left, hgroup =>
        cases hgroup
        exact ⟨left, rfl⟩
    have hbump := took_bump hlooked.holds
    have htaken := current_bump hlooked.holds
    rw [hcurrent] at htaken
    obtain ⟨_, taken, htook, hdone⟩ := ok_of_bind htake
    cases htook
    cases hdone
    exact .inr ⟨rfl, leading, t, left, rfl, ht, hlooked.append hbump, htaken⟩

/-- A word that is required is taken with its group. -/
theorem ok_of_expectWord {word : String} (h : s.stream.Holds groups error)
    (hrun : (expectWord word).run s = (.ok (), next)) :
    ∃ leading t left, groups = .keyed leading t :: left ∧ t.value = word ∧
      Took groups error s next [.keyed leading t] left ∧
      next.current = s.current.addGroup (.keyed leading t) := by
  obtain ⟨found, mid, htakeIf, hrest⟩ := ok_of_bind hrun
  rcases ok_of_takeIf h htakeIf with ⟨rfl, -⟩ | ⟨rfl, leading, t, left, rfl, ht, htook, hcurrent⟩
  · cases hrest
  · cases hrest
    have hvalue : t.glance.value = word := by
      simpa using (Bool.and_eq_true_iff.1 ht).2
    exact ⟨leading, t, left, rfl, hvalue, htook, hcurrent⟩

/-- The node of a pragma is named for the word after `PRAGMA`. -/
theorem isNamedFor_pragma {terminated : Bool} {kind : NodeKind} (h : s.stream.Holds groups error)
    (hcurrent : s.current = { kind })
    (hrun : (do
      expectWord "PRAGMA"
      if let some t ← key 0 then setName ⟨[t.value]⟩ (done ())
      take
      skipParens
      if terminated then expectSemicolon : GrammarRule Unit).run s = (.ok (), next)) :
    NodeKind.pragma.IsNamedFor next.current.name next.current.below.groups := by
  let rest : GrammarRule Unit := do
    take
    skipParens
    if terminated then expectSemicolon
  have hkeeps : rest.KeepsName :=
    KeepsName.take.bind fun _ => KeepsName.skipParens.bind fun _ =>
      .ite .expectSemicolon (.pure _)
  obtain ⟨_, mid, hword, hrun⟩ := ok_of_bind hrun
  obtain ⟨leading, first, left, rfl, -, hfirst, -⟩ := ok_of_expectWord h hword
  obtain ⟨seen, looked, hkey, hrun⟩ := ok_of_bind hrun
  obtain ⟨rfl, hlooked⟩ := ok_of_key hfirst.holds hkey
  -- what is read after the name has been set
  have hrest {named : ParseState} (hnamed : Took left error mid named [] left)
      (hrun : rest.run named = (.ok (), next)) :
      next.current.name = named.current.name ∧
        ∃ taken after, left = taken ++ after ∧
          next.current.below.groups = .keyed leading first :: taken := by
    obtain ⟨taken, after, htook, -⟩ := took_of_run hnamed.holds hrun
    refine ⟨leaves_run (hkeeps _) hrun, taken, after, htook.groups_eq, ?_⟩
    rw [htook.current, hnamed.current, hfirst.current, hcurrent]
    rfl
  have hnext {taken after : List SqlGroup} (hleft : left = taken ++ after) {leading' word}
      (hgroups : next.current.below.groups = .keyed leading first :: taken)
      (hsecond : next.current.below.groups[1]? = some (.keyed leading' word)) :
      left[0]?.bind (·.key?) = some word := by
    rw [hgroups, List.getElem?_cons_succ] at hsecond
    rw [hleft, List.getElem?_append_left (List.getElem?_eq_some_iff.1 hsecond).1, hsecond]
    rfl
  intro leading' word hsecond
  cases hseen : left[0]?.bind (·.key?) with
  | none =>
    rw [hseen] at hrun
    obtain ⟨-, taken, after, hleft, hgroups⟩ := hrest hlooked hrun
    cases hseen.symm.trans (hnext hleft hgroups hsecond)
  | some t =>
    rw [hseen] at hrun
    have hnamed : Took left error mid { looked with
        current := { looked.current with name := some ⟨[t.value]⟩ } } [] left :=
      ⟨rfl, hlooked.holds, hlooked.current⟩
    obtain ⟨hname, taken, after, hleft, hgroups⟩ := hrest hnamed hrun
    cases hseen.symm.trans (hnext hleft hgroups hsecond)
    exact hname

end GrammarRule
end SqlDoc

/-
# Words before a method of an object type

Whether a member of an object type is a method is known only after the words that may stand before
one, such as `MEMBER` or `NOT OVERRIDING`. They are passed once, to find the word that tells the
kind of the method, and read a second time as its modifiers. The two ways through them are by
different rules, which go in step. What one turn of the count passes is a word, or a `NOT` and a
word (`WritesModifier`), and just that is taken by the rule for one modifier
(`run_methodModifier`). So the modifiers that have been counted end at the word that tells the kind
(`objectMember_method`), and the method cannot miss it.

Key definitions: `WritesModifier`, `ModifiersAt`, `modifierNodes`.
Key theorems: `run_countModifiers`, `run_methodModifiers`, `run_kindWord`, `objectMember_method`.
-/
import SqlDoc.Proofs.Syntax.Expecting
import SqlDoc.Proofs.Syntax.Naming
import SqlDoc.Proofs.Syntax.Shape

namespace SqlDoc

open GrammarRule

/-! ### Modifiers -/

/-- The groups of one modifier of a method, with the name of its node: a word that may stand before
a method, or a `NOT` and a word that may be negated. -/
inductive WritesModifier : String → List SqlGroup → Prop where
  | word (leading : List SqlToken) {t : SqlToken} (hword : t.kind.isWord = true)
      (ht : t.value ∈ methodModifiers) : WritesModifier t.value [.keyed leading t]
  | negated (leading leading' : List SqlToken) {not t : SqlToken} (hnot : not.kind.isWord = true)
      (hvalue : not.value = "NOT") (hword : t.kind.isWord = true)
      (ht : t.value ∈ negatableModifiers) :
      WritesModifier s!"NOT {t.value}" [.keyed leading not, .keyed leading' t]

/-- From the group with index `first` up to the one with index `stop` the groups are modifiers. -/
structure ModifiersAt (groups : List SqlGroup) (first : Nat)
    (modifiers : List (String × List SqlGroup)) (stop : Nat) : Prop where
  written : ∀ m ∈ modifiers, WritesModifier m.1 m.2
  stop_eq : stop = first + (modifiers.flatMap (·.2)).length
  drop_eq : groups.drop first = modifiers.flatMap (·.2) ++ groups.drop stop

/-- The groups in a row, with no nodes. -/
def Forest.ofGroups : List SqlGroup → Forest
  | [] => .nil
  | g :: groups => .group g (.ofGroups groups)

/-- A node for every modifier, with its name and its groups. -/
def modifierNodes : List (String × List SqlGroup) → Forest
  | [] => .nil
  | (label, groups) :: more =>
    .node .modifier (some ⟨[label]⟩) (.ofGroups groups) (modifierNodes more)

namespace ModifiersAt

variable {groups : List SqlGroup} {first mid stop : Nat}
  {modifiers : List (String × List SqlGroup)}

theorem nil (groups : List SqlGroup) (first : Nat) : ModifiersAt groups first [] first :=
  ⟨fun _ hm => (List.not_mem_nil hm).elim, rfl, rfl⟩

theorem cons {label : String} {written : List SqlGroup} (hfirst : WritesModifier label written)
    (hmid : mid = first + written.length) (hdrop : groups.drop first = written ++ groups.drop mid)
    (h : ModifiersAt groups mid modifiers stop) :
    ModifiersAt groups first ((label, written) :: modifiers) stop where
  written := List.forall_mem_cons.2 ⟨hfirst, h.written⟩
  stop_eq := by
    rw [h.stop_eq, hmid, List.flatMap_cons, List.length_append, Nat.add_assoc]
  drop_eq := by
    rw [hdrop, h.drop_eq, List.flatMap_cons, List.append_assoc]

end ModifiersAt

/-- A group that is there begins what is left from it on. -/
theorem drop_of_getElem? {α : Type} {l : List α} {n : Nat} {a : α} (h : l[n]? = some a) :
    l.drop n = a :: l.drop (n + 1) := by
  obtain ⟨hlt, rfl⟩ := List.getElem?_eq_some_iff.1 h
  exact List.drop_eq_getElem_cons hlt

namespace GrammarRule

variable {α β : Type} {groups rest : List SqlGroup} {error : Option LexError}
  {s mid next : ParseState}

/-! ### Runs that look ahead -/

/-- From `s`, which holds `groups`, reading has come to `next` by looking ahead. -/
structure Glanced (groups : List SqlGroup) (error : Option LexError) (s next : ParseState) :
    Prop where
  holds : next.stream.Holds groups error
  only : next = { s with stream := next.stream }

theorem Glanced.refl (h : s.stream.Holds groups error) : Glanced groups error s s :=
  ⟨h, rfl⟩

theorem Glanced.trans (h1 : Glanced groups error s mid) (h2 : Glanced groups error mid next) :
    Glanced groups error s next where
  holds := h2.holds
  only := by
    rw [h2.only, h1.only]

theorem Glanced.current (h : Glanced groups error s next) : next.current = s.current := by
  rw [h.only]

/-- A rule that has ended with a result is followed by what the result calls for. -/
theorem run_bind_of_ok {r : GrammarRule α} {f : α → GrammarRule β} {a : α}
    (h : r.run s = (.ok a, mid)) : (r >>= f).run s = (f a).run mid := by
  change (r.bind f).run s = _
  rw [run_bind, h]

/-- The word with index `n` is one of `words`. -/
def wordAt (groups : List SqlGroup) (n : Nat) (words : List String) : Bool :=
  (groups[n]?.bind (·.key?)).any fun t => t.kind.isWord && words.contains t.value

/-- Where a word is one of `words`, its group is there. -/
theorem exists_of_wordAt {n : Nat} {words : List String} (h : wordAt groups n words = true) :
    ∃ leading t, groups[n]? = some (.keyed leading t) ∧ t.kind.isWord = true ∧ t.value ∈ words := by
  obtain ⟨leading, t, hgroup, ht⟩ := exists_keyed h
  obtain ⟨hword, hvalue⟩ := Bool.and_eq_true_iff.1 ht
  exact ⟨leading, t, hgroup, hword, List.contains_iff_mem.1 hvalue⟩

/-- To glance at a token is to look ahead. -/
theorem run_key (h : s.stream.Holds groups error) (n : Nat) :
    ∃ next, (key n).run s = (.ok ((groups[n]?.bind (·.key?)).map Token.glance), next) ∧
      Glanced groups error s next := by
  have hkey : (s.key n).1 = groups[n]?.bind (·.key?) := (h.peekKey n).1
  refine ⟨(s.key n).2, ?_, (h.peekKey n).2, rfl⟩
  rw [← hkey]
  rfl

/-- So is to ask for a word. -/
theorem run_atAnyWord (h : s.stream.Holds groups error) (n : Nat) (words : List String) :
    ∃ next, (atAnyWord n words).run s = (.ok (wordAt groups n words), next) ∧
      Glanced groups error s next := by
  obtain ⟨next, hkey, hnext⟩ := run_key h n
  refine ⟨next, ?_, hnext⟩
  have hrun : (atAnyWord n words).run s = (.ok (((groups[n]?.bind (·.key?)).map Token.glance).any
      fun t => t.kind.isWord && words.contains t.value), next) := run_bind_of_ok hkey
  rw [hrun, Option.any_map]
  rfl

/-! ### Passing modifiers -/

/-- One turn of the count. -/
def passModifier : Nat × Nat → GrammarRule (Option (Nat × Nat)) := fun (offset, count) => do
  if ← atWord offset "NOT" <&&> atAnyWord (offset + 1) negatableModifiers then
    return some (offset + 2, count + 1)
  else if ← atAnyWord offset methodModifiers then return some (offset + 1, count + 1)
  else return none

theorem countModifiers_eq : countModifiers = iterate passModifier (0, 0) :=
  rfl

/-- One turn looks ahead, and passes a modifier if it goes on. -/
theorem run_passModifier (h : s.stream.Holds groups error) (offset count : Nat) :
    ∃ result next, (passModifier (offset, count)).run s = (.ok result, next) ∧
      Glanced groups error s next ∧ ∀ state ∈ result, state.2 = count + 1 ∧
        ∃ label written, WritesModifier label written ∧ state.1 = offset + written.length ∧
          groups.drop offset = written ++ groups.drop state.1 := by
  -- without a `NOT`, or if nothing that may be negated comes after it
  have hword {s : ParseState} (h : s.stream.Holds groups error) :
      ∃ result next, (do
          if ← atAnyWord offset methodModifiers then return some (offset + 1, count + 1)
          else return none : GrammarRule (Option (Nat × Nat))).run s = (.ok result, next) ∧
        Glanced groups error s next ∧ ∀ state ∈ result, state.2 = count + 1 ∧
          ∃ label written, WritesModifier label written ∧ state.1 = offset + written.length ∧
            groups.drop offset = written ++ groups.drop state.1 := by
    obtain ⟨next, hrun, hnext⟩ := run_atAnyWord h offset methodModifiers
    cases hat : wordAt groups offset methodModifiers with
    | false =>
      rw [hat] at hrun
      exact ⟨none, next, run_bind_of_ok hrun, hnext, fun state hstate => nomatch hstate⟩
    | true =>
      rw [hat] at hrun
      refine ⟨some (offset + 1, count + 1), next, run_bind_of_ok hrun, hnext, ?_⟩
      obtain ⟨leading, t, hgroup, hisWord, ht⟩ := exists_of_wordAt hat
      rintro _ ⟨⟩
      exact ⟨rfl, t.value, _, .word leading hisWord ht, rfl, drop_of_getElem? hgroup⟩
  obtain ⟨first, hrun, hfirst⟩ := run_atAnyWord h offset ["NOT"]
  cases hnot : wordAt groups offset ["NOT"] with
  | false =>
    rw [hnot] at hrun
    have htest : (atWord offset "NOT" <&&> atAnyWord (offset + 1) negatableModifiers).run s =
        (.ok false, first) := run_bind_of_ok hrun
    obtain ⟨result, next, hrest, hnext, hresult⟩ := hword hfirst.holds
    exact ⟨result, next, (run_bind_of_ok htest).trans hrest, hfirst.trans hnext, hresult⟩
  | true =>
    rw [hnot] at hrun
    obtain ⟨second, hrun', hsecond⟩ :=
      run_atAnyWord hfirst.holds (offset + 1) negatableModifiers
    have htest : (atWord offset "NOT" <&&> atAnyWord (offset + 1) negatableModifiers).run s =
        (.ok (wordAt groups (offset + 1) negatableModifiers), second) :=
      (run_bind_of_ok hrun).trans hrun'
    have hglanced := hfirst.trans hsecond
    cases hat : wordAt groups (offset + 1) negatableModifiers with
    | false =>
      rw [hat] at htest
      obtain ⟨result, next, hrest, hnext, hresult⟩ := hword hsecond.holds
      exact ⟨result, next, (run_bind_of_ok htest).trans hrest, hglanced.trans hnext, hresult⟩
    | true =>
      rw [hat] at htest
      refine ⟨some (offset + 2, count + 1), second, run_bind_of_ok htest, hglanced, ?_⟩
      obtain ⟨leading, not, hgroup, hisWord, hvalue⟩ := exists_of_wordAt hnot
      obtain ⟨leading', t, hgroup', hisWord', ht⟩ := exists_of_wordAt hat
      rintro _ ⟨⟩
      have hvalue := List.mem_singleton.1 hvalue
      refine ⟨rfl, _, _, .negated leading leading' hisWord hvalue hisWord' ht, rfl, ?_⟩
      rw [drop_of_getElem? hgroup, drop_of_getElem? hgroup']
      rfl

/-- All turns look ahead, and pass as many modifiers as they count. -/
theorem run_passModifiers (h : s.stream.Holds groups error) (turns offset count : Nat) :
    ∃ stop modifiers next, (iterateUpTo passModifier turns (offset, count)).run s =
        (.ok (stop, count + modifiers.length), next) ∧
      Glanced groups error s next ∧ ModifiersAt groups offset modifiers stop := by
  induction turns generalizing s offset count with
  | zero => exact ⟨offset, [], s, rfl, .refl h, .nil groups offset⟩
  | succ turns ih =>
    obtain ⟨result, mid, hpass, hmid, hresult⟩ := run_passModifier h offset count
    have hrun : (iterateUpTo passModifier (turns + 1) (offset, count)).run s =
        (result.elim (.done (offset, count)) (iterateUpTo passModifier turns)).run mid := by
      rw [iterateUpTo_succ]
      exact run_bind_of_ok hpass
    rw [hrun]
    cases result with
    | none => exact ⟨offset, [], mid, rfl, hmid, .nil groups offset⟩
    | some state =>
      obtain ⟨mark, passed⟩ := state
      obtain ⟨rfl, label, written, hwritten, hoffset, hdrop⟩ := hresult _ rfl
      obtain ⟨stop, modifiers, next, hmore, hnext, hmodifiers⟩ := ih hmid.holds mark (count + 1)
      refine ⟨stop, (label, written) :: modifiers, next, ?_, hmid.trans hnext,
        hmodifiers.cons hwritten hoffset hdrop⟩
      rw [List.length_cons, Nat.add_comm modifiers.length, ← Nat.add_assoc]
      exact hmore

/-- The count tells how many modifiers are ahead and where they end. -/
theorem run_countModifiers (h : s.stream.Holds groups error) :
    ∃ offset modifiers next, countModifiers.run s = (.ok (offset, modifiers.length), next) ∧
      Glanced groups error s next ∧ ModifiersAt groups 0 modifiers offset := by
  obtain ⟨offset, modifiers, next, hrun, hrest⟩ :=
    run_passModifiers h (s.stream.remaining + 1) 0 0
  rw [Nat.zero_add] at hrun
  rw [countModifiers_eq]
  exact ⟨offset, modifiers, next, hrun, hrest⟩

/-! ### Taking modifiers -/

/-- One modifier of a method. -/
def methodModifier : GrammarRule Unit :=
  modifier do
    let _ ← takeWord "NOT"
    take

/-- A group that is next is taken into the open node. -/
theorem run_take {g : SqlGroup} (h : s.stream.Holds (g :: rest) error) :
    take.run s = (.ok (), s.bump) ∧ s.bump.stream.Holds rest error ∧
      s.bump.current = s.current.addGroup g :=
  ⟨rfl, (took_bump h).holds, current_bump h⟩

/-- A word is taken if it is the one that is asked for. -/
theorem run_takeWord {leading : List SqlToken} {t : SqlToken} {word : String}
    (h : s.stream.Holds (.keyed leading t :: rest) error) (hword : t.kind.isWord = true)
    (ht : t.value = word) :
    ∃ next, (takeWord word).run s = (.ok true, next) ∧ next.stream.Holds rest error ∧
      next.current = s.current.addGroup (.keyed leading t) := by
  obtain ⟨looked, hat, hlooked⟩ := run_atAnyWord h 0 [word]
  have hthere : wordAt (.keyed leading t :: rest) 0 [word] = true := by
    simp [wordAt, TokenGroup.key?, hword, ht]
  obtain ⟨htake, hholds, hcurrent⟩ := run_take hlooked.holds
  rw [hthere] at hat
  refine ⟨looked.bump, (run_bind_of_ok hat).trans (run_bind_of_ok htake), hholds, ?_⟩
  rw [hcurrent, hlooked.current]

/-- Any other is left. -/
theorem run_takeWord_of_ne {leading : List SqlToken} {t : SqlToken} {word : String}
    (h : s.stream.Holds (.keyed leading t :: rest) error) (ht : t.value ≠ word) :
    ∃ next, (takeWord word).run s = (.ok false, next) ∧
      Glanced (.keyed leading t :: rest) error s next := by
  obtain ⟨looked, hat, hlooked⟩ := run_atAnyWord h 0 [word]
  have hother : wordAt (.keyed leading t :: rest) 0 [word] = false := by
    simp [wordAt, TokenGroup.key?, ht]
  rw [hother] at hat
  exact ⟨looked, run_bind_of_ok hat, hlooked⟩

theorem ne_not_of_mem {word : String} (h : word ∈ methodModifiers) : word ≠ "NOT" := by
  rintro rfl
  revert h
  decide

/-- The name of a modifier that begins with a token, if another comes next. -/
def modifierLabel (first : SqlToken) : Option SqlToken → String
  | some second => if first.value = "NOT" then s!"NOT {second.value}" else first.value
  | none => first.value

/-- A modifier gets its name from what is ahead, and then what it holds is read. -/
theorem run_modifier (inside : GrammarRule Unit) {first : SqlToken}
    (h : s.stream.Holds groups error) (hfirst : groups[0]?.bind (·.key?) = some first) :
    ∃ opened : ParseState, opened.stream.Holds groups error ∧
      opened.current = {
        kind := .modifier
        name := some ⟨[modifierLabel first (groups[1]?.bind (·.key?))]⟩ } ∧
      ∀ inner, inside.run opened = (.ok (), inner) → (modifier inside).run s =
        (.ok (), { inner with current := s.current.addNode inner.current }) := by
  have hempty : ({ s with current := { kind := .modifier } } : ParseState).stream.Holds groups
    error := h
  obtain ⟨one, hone, hglanced⟩ := run_key hempty 0
  obtain ⟨two, htwo, hglanced'⟩ := run_key hglanced.holds 1
  have hcurrent : two.current = { kind := .modifier } := by
    rw [hglanced'.current, hglanced.current]
  rw [hfirst] at hone
  cases hsecond : groups[1]?.bind (·.key?) with
  | none | some =>
    rw [hsecond] at htwo
    refine ⟨{ two with current := { two.current with name := some ⟨[modifierLabel first _]⟩ } },
      hglanced'.holds, by rw [hcurrent], fun inner hinner => ?_⟩
    unfold modifier
    simp only [GrammarRule.run]
    rw [run_bind_of_ok hone]
    simp only [Option.map_some]
    rw [run_bind_of_ok htwo]
    split
    · rename_i hfails
      cases hfails.symm.trans hinner
    · rename_i hends
      cases hends.symm.trans hinner
      rfl

/-- A modifier that has been passed is taken in a node of its own. -/
theorem run_methodModifier {label : String} {written : List SqlGroup}
    (hwritten : WritesModifier label written) (h : s.stream.Holds (written ++ rest) error) :
    ∃ next, methodModifier.run s = (.ok (), next) ∧ next.stream.Holds rest error ∧
      next.current = { s.current with
        below := s.current.below.append (modifierNodes [(label, written)]) } := by
  cases hwritten with
  | @word leading t hword ht =>
    have hne := ne_not_of_mem ht
    obtain ⟨opened, hopened, hcurrent, hrun⟩ :=
      run_modifier (takeWord "NOT" >>= fun _ => take) h rfl
    obtain ⟨looked, hnot, hlooked⟩ := run_takeWord_of_ne hopened hne
    obtain ⟨htake, hholds, htaken⟩ := run_take hlooked.holds
    refine ⟨_, hrun _ ((run_bind_of_ok hnot).trans htake), hholds, ?_⟩
    have hlabel (second : Option SqlToken) : modifierLabel t second = t.value := by
      cases second with
      | none => rfl
      | some => exact if_neg hne
    rw [htaken, hlooked.current, hcurrent, hlabel]
    rfl
  | @negated leading leading' not t hnot hvalue hword ht =>
    obtain ⟨opened, hopened, hcurrent, hrun⟩ :=
      run_modifier (takeWord "NOT" >>= fun _ => take) h rfl
    obtain ⟨between, htakeNot, hbetween, hfirst⟩ := run_takeWord hopened hnot hvalue
    obtain ⟨htake, hholds, htaken⟩ := run_take hbetween
    refine ⟨_, hrun _ ((run_bind_of_ok htakeNot).trans htake), hholds, ?_⟩
    have hlabel : modifierLabel not (some t) = s!"NOT {t.value}" := if_pos hvalue
    rw [htaken, hfirst, hcurrent]
    show s.current.addNode _ = _
    simp only [List.cons_append, List.getElem?_cons_succ, List.getElem?_cons_zero,
      Option.bind_some, TokenGroup.key?, hlabel]
    rfl

/-- All of them are taken, in nodes one after the other. -/
theorem run_methodModifiers {modifiers : List (String × List SqlGroup)}
    (hwritten : ∀ m ∈ modifiers, WritesModifier m.1 m.2)
    (h : s.stream.Holds (modifiers.flatMap (·.2) ++ rest) error) :
    ∃ next, (times modifiers.length methodModifier).run s = (.ok (), next) ∧
      next.stream.Holds rest error ∧
      next.current = { s.current with
        below := s.current.below.append (modifierNodes modifiers) } := by
  induction modifiers generalizing s with
  | nil =>
    refine ⟨s, rfl, h, ?_⟩
    rw [modifierNodes, Forest.append_nil]
  | cons m more ih =>
    obtain ⟨hfirst, hmore⟩ := List.forall_mem_cons.1 hwritten
    rw [List.flatMap_cons, List.append_assoc] at h
    obtain ⟨mid, hrun, hholds, hcurrent⟩ := run_methodModifier hfirst h
    obtain ⟨next, hrest, hnext, hlast⟩ := ih hmore hholds
    refine ⟨next, (run_bind_of_ok hrun).trans hrest, hnext, ?_⟩
    rw [hlast, hcurrent, Forest.append_assoc]
    rfl

/-! ### The word after them -/

end GrammarRule

/-- The word that tells the kind of a method. -/
def MethodKind.word : MethodKind → String
  | procedure => "PROCEDURE"
  | function => "FUNCTION"
  | constructor => "CONSTRUCTOR"
  | cursor => "CURSOR"

theorem exists_kind_of_mem {word : String}
    (h : word ∈ ["PROCEDURE", "FUNCTION", "CONSTRUCTOR"]) :
    ∃ kind : MethodKind, kind ≠ .cursor ∧ word = kind.word := by
  simp only [List.mem_cons, List.not_mem_nil, or_false] at h
  rcases h with rfl | rfl | rfl
  · exact ⟨.procedure, nofun, rfl⟩
  · exact ⟨.function, nofun, rfl⟩
  · exact ⟨.constructor, nofun, rfl⟩

namespace GrammarRule

variable {groups rest : List SqlGroup} {error : Option LexError} {s : ParseState}
  {leading : List SqlToken} {word : SqlToken} {kind : MethodKind}

/-- Takes the word that tells the kind of a method. -/
def kindWord (kind : MethodKind) : GrammarRule Unit := do
  if kind = .constructor then expectWord "CONSTRUCTOR"
  else
    unless ← takeWord "PROCEDURE" <||> takeWord "FUNCTION" do missing "`PROCEDURE` or `FUNCTION`"

/-- A method of an object type from that word on. -/
def methodRest (kind : MethodKind) : GrammarRule Unit := do
  if kind = .constructor then expectWord "FUNCTION"
  methodHead kind true

theorem methodWords_bind (kind : MethodKind) :
    (methodWords kind >>= fun _ => methodHead kind true) =
      (kindWord kind >>= fun _ => methodRest kind) := by
  cases kind with
  | constructor => exact LawfulMonad.bind_assoc ..
  | procedure | function | cursor => rfl

theorem adds_methodRest (kind : MethodKind) : (methodRest kind).Adds (.method kind) 1 :=
  .ite ((adds_expectWord _).bind fun _ => adds_methodHead kind true) (adds_methodHead kind true)

theorem neverAsks_methodRest (kind : MethodKind) : (methodRest kind).NeverAsks kindWordTexts := by
  have hword : (expectWord "FUNCTION").NeverAsks kindWordTexts := neverAsks_expectWord (by decide)
  unfold methodRest
  infer_instance

/-- The word is taken where it is next. -/
theorem run_kindWord (h : s.stream.Holds (.keyed leading word :: rest) error)
    (hword : word.kind.isWord = true) (hvalue : word.value = kind.word) (hkind : kind ≠ .cursor) :
    ∃ next, (kindWord kind).run s = (.ok (), next) ∧ next.stream.Holds rest error ∧
      next.current = s.current.addGroup (.keyed leading word) := by
  cases kind with
  | cursor => exact (hkind rfl).elim
  | constructor =>
    obtain ⟨next, hrun, hnext⟩ := run_takeWord h hword hvalue
    exact ⟨next, run_bind_of_ok hrun, hnext⟩
  | procedure =>
    obtain ⟨next, hrun, hnext⟩ := run_takeWord h hword hvalue
    have hor : (takeWord "PROCEDURE" <||> takeWord "FUNCTION").run s = (.ok true, next) :=
      run_bind_of_ok hrun
    refine ⟨next, ?_, hnext⟩
    rw [kindWord, if_neg nofun]
    exact run_bind_of_ok hor
  | function =>
    have hne : word.value ≠ "PROCEDURE" := by
      rw [hvalue]
      decide
    obtain ⟨looked, hnot, hlooked⟩ := run_takeWord_of_ne h hne
    obtain ⟨next, hrun, hholds, hcurrent⟩ := run_takeWord hlooked.holds hword hvalue
    have hor : (takeWord "PROCEDURE" <||> takeWord "FUNCTION").run s = (.ok true, next) :=
      (run_bind_of_ok hnot).trans hrun
    refine ⟨next, ?_, hholds, by rw [hcurrent, hlooked.current]⟩
    rw [kindWord, if_neg nofun]
    exact run_bind_of_ok hor

/-- The kind of a method is the one that the word `offset` groups ahead tells. -/
theorem run_method (h : s.stream.Holds groups error) {offset : Nat}
    (hgroup : groups[offset]? = some (.keyed leading word)) (hword : word.kind.isWord = true)
    (hvalue : word.value = kind.word) (hkind : kind ≠ .cursor) (count : Nat) :
    ∃ opened, Glanced groups error s opened ∧ (method count offset true).run s =
      (within "a procedure or function declaration" (node (.method kind) (do
        times count methodModifier
        kindWord kind
        methodRest kind) done) done).run opened := by
  obtain ⟨first, hfirst, hglanced⟩ := run_atAnyWord h offset ["CONSTRUCTOR"]
  obtain ⟨second, hsecond, hglanced'⟩ := run_atAnyWord hglanced.holds offset ["FUNCTION"]
  refine ⟨second, hglanced.trans hglanced', ?_⟩
  have hat (w : String) : wordAt groups offset [w] = decide (kind.word = w) := by
    simp [wordAt, hgroup, TokenGroup.key?, hword, hvalue]
  rw [hat] at hfirst hsecond
  rw [method_eq]
  refine (run_bind_of_ok hfirst).trans ((run_bind_of_ok hsecond).trans ?_)
  simp only [methodWords_bind]
  cases kind with
  | cursor => exact (hkind rfl).elim
  | constructor | function | procedure => rfl

/-- A member of an object type before which `count` modifiers have been counted, with the word
`PROCEDURE`, `FUNCTION` or `CONSTRUCTOR` `offset` groups ahead, is a method of the kind that this
word tells. In its node the rule for modifiers takes just the groups that have been passed, in
`count` nodes, and then the word is next and is taken. So the member does not fail for want of it,
and if it is read to its end, its node has that kind and begins with those modifiers and that
word. -/
theorem objectMember_method {looked tested : ParseState} {offset count : Nat}
    (h : s.stream.Holds groups error)
    (hcount : countModifiers.run s = (.ok (offset, count), looked))
    (htest : (atAnyWord offset ["PROCEDURE", "FUNCTION", "CONSTRUCTOR"]).run looked =
      (.ok true, tested)) :
    ∃ (modifiers : List (String × List SqlGroup)) (leading : List SqlToken) (word : SqlToken)
      (rest : List SqlGroup) (kind : MethodKind) (opened atWord afterWord : ParseState),
      -- what is ahead
      (groups = modifiers.flatMap (·.2) ++ .keyed leading word :: rest ∧
        (∀ m ∈ modifiers, WritesModifier m.1 m.2) ∧ modifiers.length = count ∧
        (modifiers.flatMap (·.2)).length = offset ∧
        word.kind.isWord = true ∧ word.value = kind.word ∧ kind ≠ .cursor) ∧
      -- what the method does
      (objectMember.run s = (method count offset true).run tested ∧
        (method count offset true).run tested =
          (within "a procedure or function declaration" (node (.method kind) (do
            times count methodModifier
            kindWord kind
            methodRest kind) done) done).run opened ∧
        Glanced groups error s opened ∧
        (times count methodModifier).run { opened with current := { kind := .method kind } } =
          (.ok (), atWord) ∧
        atWord.stream.Holds (.keyed leading word :: rest) error ∧
        atWord.current = { kind := .method kind, below := modifierNodes modifiers } ∧
        (kindWord kind).run atWord = (.ok (), afterWord) ∧
        afterWord.stream.Holds rest error ∧
        afterWord.current = atWord.current.addGroup (.keyed leading word)) ∧
      -- what comes of it
      (∀ e next, objectMember.run s = (.error e, next) →
        e.expected ∉ ["`PROCEDURE` or `FUNCTION`", "`CONSTRUCTOR`"]) ∧
      ∀ next, objectMember.run s = (.ok (), next) → ∃ node more,
        next.current = s.current.addNode node ∧ node.kind = .method kind ∧
        node.below = (modifierNodes modifiers).append (.group (.keyed leading word) more) := by
  obtain ⟨_, modifiers, _, hrun, hlooked, hmodifiers⟩ := run_countModifiers h
  cases hcount.symm.trans hrun
  obtain ⟨_, hat, htested⟩ :=
    run_atAnyWord hlooked.holds offset ["PROCEDURE", "FUNCTION", "CONSTRUCTOR"]
  have hsame := hat.symm.trans htest
  have hthere : wordAt groups offset ["PROCEDURE", "FUNCTION", "CONSTRUCTOR"] = true :=
    Except.ok.inj (congrArg Prod.fst hsame)
  obtain rfl : _ = tested := congrArg Prod.snd hsame
  obtain ⟨leading, word, hgroup, hword, hvalue⟩ := exists_of_wordAt hthere
  obtain ⟨kind, hkind, hvalue⟩ := exists_kind_of_mem hvalue
  have hgroups : groups =
      modifiers.flatMap (·.2) ++ .keyed leading word :: groups.drop (offset + 1) := by
    rw [← drop_of_getElem? hgroup]
    exact hmodifiers.drop_eq
  have hglanced := hlooked.trans htested
  obtain ⟨opened, hopened, hmethod⟩ :=
    run_method hglanced.holds hgroup hword hvalue hkind modifiers.length
  -- the inside of the node
  have hheld : ({ opened with current := { kind := .method kind } } : ParseState).stream.Holds
      (modifiers.flatMap (·.2) ++ .keyed leading word :: groups.drop (offset + 1)) error :=
    hgroups ▸ hopened.holds
  obtain ⟨atWord, htimes, hat, hcurrent⟩ := run_methodModifiers hmodifiers.written hheld
  obtain ⟨afterWord, htakes, hafter, htaken⟩ := run_kindWord hat hword hvalue hkind
  have hmember : objectMember.run s = (method modifiers.length offset true).run _ :=
    (run_bind_of_ok hrun).trans (run_bind_of_ok htest)
  have hinside := (run_bind_of_ok (f := fun _ => kindWord kind >>= fun _ => methodRest kind)
    htimes).trans (run_bind_of_ok htakes)
  have hresult : objectMember.run s =
      match (methodRest kind).run afterWord with
      | (.error e, inner) => (.error (e.inside "a procedure or function declaration"), inner)
      | (.ok _, inner) =>
        (.ok (), { inner with current := opened.current.addNode inner.current }) := by
    rw [hmember, hmethod]
    simp only [GrammarRule.run, hinside]
    cases (methodRest kind).run afterWord with
    | mk result inner => cases result <;> rfl
  refine ⟨modifiers, leading, word, _, kind, opened, atWord, afterWord,
    ⟨hgroups, hmodifiers.written, rfl, ?_, hword, hvalue, hkind⟩,
    ⟨hmember, hmethod, hglanced.trans hopened, htimes, hat, hcurrent, htakes, hafter, htaken⟩,
    ?_, ?_⟩
  · rw [hmodifiers.stop_eq, Nat.zero_add]
  · intro e next hfails
    rw [hresult] at hfails
    split at hfails
    · rename_i hrest
      cases hfails
      have hasks := (neverAsks_methodRest kind).expected hrest
      exact hasks
    · cases hfails
  · intro next hends
    rw [hresult] at hends
    split at hends
    · cases hends
    · rename_i inner hrest
      cases hends
      have hgrown := leaves_run (adds_methodRest kind _) hrest
      obtain ⟨more, hbelow, -⟩ := hgrown.below
      refine ⟨inner.current, more, by rw [(hglanced.trans hopened).current], ?_, ?_⟩
      · rw [hgrown.kind, htaken, hcurrent]
        rfl
      · rw [hbelow, htaken, hcurrent]
        exact Forest.append_assoc ..

/-- A rule that has a result ends with it. -/
theorem run_of_toOption {α : Type} {r : GrammarRule α} {a : α}
    (h : (r.run s).1.toOption = some a) : r.run s = (.ok a, (r.run s).2) := by
  cases hrun : r.run s with
  | mk result next =>
    rw [hrun] at h
    cases result with
    | error e => cases h
    | ok b =>
      cases h
      rfl

/-- Two modifiers, the first of them two words, before a function. -/
theorem objectMember_method_negated :
    ∃ (s next : ParseState) (modifiers : List (String × List SqlGroup)) (leading : List SqlToken)
      (word : SqlToken) (kind : MethodKind) (node : OpenNode) (more : Forest),
      s = .ofLexed (lexSql "NOT OVERRIDING MEMBER FUNCTION f RETURN t") ∧
      modifiers.length = 2 ∧ (modifiers.flatMap (·.2)).length = 3 ∧ word.value = kind.word ∧
      objectMember.run s = (.ok (), next) ∧ next.current = s.current.addNode node ∧
      node.kind = .method kind ∧
      node.below = (modifierNodes modifiers).append (.group (.keyed leading word) more) := by
  let source := lexSql "NOT OVERRIDING MEMBER FUNCTION f RETURN t"
  have hcount : (countModifiers.run (.ofLexed source)).1.toOption = some (3, 2) := by
    decide +kernel
  have htest : ((atAnyWord 3 ["PROCEDURE", "FUNCTION", "CONSTRUCTOR"]).run
      (countModifiers.run (.ofLexed source)).2).1.toOption = some true := by decide +kernel
  have hends : (objectMember.run (.ofLexed source)).1.toOption = some () := by decide +kernel
  obtain ⟨modifiers, leading, word, _, kind, _, _, _, ⟨_, _, hlength, hoffset, _, hvalue, _⟩, _, _,
    hresult⟩ := objectMember_method (TokenStream.holds_ofLexed source) (run_of_toOption hcount)
      (run_of_toOption htest)
  obtain ⟨node, more, hcurrent, hkind, hbelow⟩ := hresult _ (run_of_toOption hends)
  exact ⟨_, _, modifiers, leading, word, kind, node, more, rfl, hlength, hoffset, hvalue,
    run_of_toOption hends, hcurrent, hkind, hbelow⟩

end GrammarRule
end SqlDoc

/-
# Codes of exceptions at the end of a unit

A pragma binds a code to the first exception of a name. Resolved sites have the codes from the
start; a resolver adds them to the rows when the unit ends. Adding a code to a site before the tags
are bound or afterwards comes to the same (`bind_addCode`), so that one pragma after the other makes
the rows those of the sites with all codes (`foldl_bindCode`).

Key definitions: `Context.addCode`, `DocForest.withCodes`.
Key theorems: `ofMembers_withCodes`, `bind_addCode`, `foldl_bindCode`.
-/
import SqlDoc.Proofs.Context.Members
import SqlDoc.Proofs.Context.Raising

namespace SqlDoc

/-! ### A code of an exception -/

namespace Context

/-- The context with one more code, if it is an exception that does not have it. -/
def addCode (code : String) (c : Context) : Context :=
  match c.detail with
  | .exceptionDef codes =>
    { c with
      detail := .exceptionDef (if codes.contains code then codes else codes ++ [code]) }
  | _ => c

/-- It is an exception of the name. -/
def isException (name : String) (c : Context) : Bool :=
  c.codes?.isSome && c.name.last = name

variable (code : String) (c : Context)

/-- Nothing but codes is changed, and only where there are some. -/
theorem addCode_eq : c.addCode code = c ∨ ∃ codes codes', c.detail = .exceptionDef codes ∧
    c.addCode code = { c with detail := .exceptionDef codes' } := by
  unfold addCode
  split
  · exact .inr ⟨_, _, ‹_›, rfl⟩
  · exact .inl rfl

@[simp] theorem name_addCode : (c.addCode code).name = c.name := by
  rcases c.addCode_eq code with h | ⟨_, _, _, h⟩ <;> rw [h]

@[simp] theorem kind_addCode : (c.addCode code).kind = c.kind := by
  rcases c.addCode_eq code with h | ⟨_, _, _, h⟩ <;> rw [h]

@[simp] theorem isSome_codes?_addCode : (c.addCode code).codes?.isSome = c.codes?.isSome := by
  rcases c.addCode_eq code with h | ⟨codes, _, hdetail, h⟩
  · rw [h]
  · rw [h, codes?, codes?, hdetail]
    rfl

@[simp] theorem isException_addCode (name : String) :
    (c.addCode code).isException name = c.isException name := by
  rw [isException, isException, isSome_codes?_addCode, name_addCode]

theorem addCode_row (parent : Option Nat) (ids : List Nat) :
    (c.row parent ids).modifyContext (addCode code) = (c.addCode code).row parent ids := by
  obtain ⟨_, _, _, _, _, _, _, _, _, detail⟩ := c
  cases detail <;> rfl

theorem addCode_withoutThrows (row : ContextRow) :
    (row.modifyContext (addCode code)).withoutThrows =
      row.withoutThrows.modifyContext (addCode code) := by
  obtain ⟨⟨_, _, _, _, _, _, _, _, _, detail⟩, _, _⟩ := row
  cases detail <;> rfl

/-- A pragma and a tag say different things about a context. -/
theorem addCode_apply (doc : ParamDoc) :
    (doc.apply c).addCode code = doc.apply (c.addCode code) := by
  obtain ⟨_, _, _, _, _, _, _, _, _, detail⟩ := c
  cases detail <;> rfl

end Context

/-- A context with the codes that it has is an exception. -/
theorem SameForm.isException {c d : Context} (h : SameForm c d) (name : String) :
    d.isException name = c.isException name := by
  rw [Context.isException, Context.isException, h.codes, h.name]

/-! ### Codes of sites -/

namespace DocForest

/-- The sites with the codes that the pragmas bind, each to the first exception of its name. -/
def withCodes (bindings : List (Name × String)) (f : DocForest) : DocForest :=
  bindings.foldl (fun f b => f.modifyFirst (·.isException b.1.last) (.addCode b.2)) f

/-- What one more code leaves as it is stays so. -/
theorem withCodes_congr {β : Type} {g : DocForest → β}
    (hstep : ∀ (q : Context → Bool) (code : String) (f : DocForest),
      g (f.modifyFirst q (.addCode code)) = g f)
    (bindings : List (Name × String)) (f : DocForest) : g (f.withCodes bindings) = g f := by
  unfold withCodes
  induction bindings generalizing f with
  | nil => rfl
  | cons b bindings ih => rw [List.foldl_cons, ih, hstep]

/-- A site whose context is not changed. -/
theorem modifyFirst_of_not {p : Context → Bool} {g : Context → Context} {site : Site}
    {context : Option Context} (h : ∀ c ∈ context, p c = false) (inside rest : DocForest) :
    (node site context inside rest).modifyFirst p g =
      node site context inside (rest.modifyFirst p g) := by
  cases context with
  | none => rfl
  | some c => rw [modifyFirst, if_neg (by rw [h c rfl]; exact Bool.false_ne_true)]

theorem boundCodes_append (bindings : List (Name × String)) (b : Name × String) (name : String) :
    boundCodes (bindings ++ [b]) name =
      if b.1.last = name then
        if (boundCodes bindings name).contains b.2 then boundCodes bindings name
        else boundCodes bindings name ++ [b.2]
      else boundCodes bindings name := by
  unfold boundCodes
  rw [List.filter_append, List.map_append]
  by_cases hname : b.1.last = name
  · have hcontains (codes : List String) : codes.eraseDups.contains b.2 = codes.contains b.2 := by
      simp [List.contains_eq_mem]
    rw [if_pos hname, List.filter_cons_of_pos (by simpa using hname), List.eraseDups_append,
      hcontains]
    split <;> simp_all [List.removeAll, List.eraseDups_cons]
  · rw [if_neg hname, List.filter_cons_of_neg (by simpa using hname)]
    simp

theorem isException_exceptionContext (codes : List String) (t : SyntaxTree) (name : String) :
    (exceptionContext codes t).isException name = decide (t.nameOrEmpty.last = name) :=
  Bool.true_and _

/-- One more pragma changes an exception if it is the first of the name. -/
theorem addCode_exceptionContext (bindings : List (Name × String)) (b : Name × String)
    (exceptions : List String) (t : SyntaxTree) :
    let name := t.nameOrEmpty.last
    let codes (bindings : List (Name × String)) :=
      if exceptions.contains name then [] else boundCodes bindings name
    exceptionContext (codes (bindings ++ [b])) t =
      if exceptions.contains b.1.last ∨ b.1.last ≠ name then exceptionContext (codes bindings) t
      else (exceptionContext (codes bindings) t).addCode b.2 := by
  intro name codes
  by_cases hname : b.1.last = name
  · cases hknown : exceptions.contains name with
    | true =>
      have hcodes (bindings : List (Name × String)) : codes bindings = [] := if_pos hknown
      rw [hcodes, hcodes, if_pos (.inl (hname ▸ hknown))]
    | false =>
      have hcodes (bindings : List (Name × String)) : codes bindings = boundCodes bindings name :=
        if_neg (by rw [hknown]; exact Bool.false_ne_true)
      have hfirst : ¬(exceptions.contains b.1.last ∨ b.1.last ≠ name) := by
        rw [hname, hknown]
        simp
      rw [hcodes, hcodes, if_neg hfirst, boundCodes_append, if_pos hname]
      rfl
  · have hcodes : codes (bindings ++ [b]) = codes bindings := by
      unfold codes
      rw [boundCodes_append, if_neg hname]
    rw [hcodes, if_pos (.inr hname)]

/-- One more pragma binds its code to the first exception of its name, if there is none before. -/
theorem ofMembers_append (bindings : List (Name × String)) (b : Name × String) (ids : OverloadIds)
    (exceptions : List String) (members : List (Nat × SyntaxTree)) :
    ofMembers (bindings ++ [b]) ids exceptions members =
      if exceptions.contains b.1.last then ofMembers bindings ids exceptions members
      else (ofMembers bindings ids exceptions members).modifyFirst (·.isException b.1.last)
        (.addCode b.2) := by
  induction members generalizing ids exceptions with
  | nil => simp [ofMembers, modifyFirst]
  | cons first more ih =>
    obtain ⟨id, t⟩ := first
    have hmember (c : Context) (hc : c ∈ memberContext? t) : c.isException b.1.last = false := by
      obtain ⟨_, _, _, _, hcodes, _⟩ := Resolver.memberContext?_eq_some (s := {}) hc
      rw [Context.isException, hcodes]
      rfl
    -- The site of any member but an exception stays as it is.
    have hother (site : Site) {context : Option Context}
        (hcontext : ∀ c ∈ context, c.isException b.1.last = false) (inside : DocForest)
        (ids : OverloadIds) :
        node site context inside (ofMembers (bindings ++ [b]) ids exceptions more) =
          if exceptions.contains b.1.last then
            node site context inside (ofMembers bindings ids exceptions more)
          else (node site context inside (ofMembers bindings ids exceptions more)).modifyFirst
            (·.isException b.1.last) (.addCode b.2) := by
      rw [modifyFirst_of_not hcontext, ih]
      split <;> rfl
    cases hkind : t.kind with
    | method kind =>
      rw [ofMembers, ofMembers, hkind]
      exact hother _ (fun c hc => by cases hc; rfl) _ _
    | exceptionDecl =>
      rw [ofMembers, ofMembers, hkind]
      dsimp only
      rw [ih, List.contains_cons, addCode_exceptionContext]
      cases hknown : exceptions.contains b.1.last with
      | true => simp
      | false =>
        rw [Bool.or_false, if_neg Bool.false_ne_true, modifyFirst, isException_exceptionContext]
        by_cases hname : b.1.last = t.nameOrEmpty.last
        · simp [hname]
        · simp [hname, Ne.symm hname]
    | typeDecl shape =>
      cases shape with
      | record =>
        rw [ofMembers, ofMembers, hkind]
        exact hother _ hmember _ _
      | _ =>
        rw [ofMembers, ofMembers, hkind]
        exact hother _ hmember _ _
    | _ =>
      rw [ofMembers, ofMembers, hkind]
      first
        | exact hother _ hmember _ _
        | exact ih _ _

/-- The members of a unit have the codes that its pragmas bind. -/
theorem ofMembers_withCodes (bindings : List (Name × String)) (ids : OverloadIds)
    (members : List (Nat × SyntaxTree)) :
    ofMembers bindings ids [] members = (ofMembers [] ids [] members).withCodes bindings := by
  have hprefix (first more : List (Name × String)) : ofMembers (first ++ more) ids [] members =
      (ofMembers first ids [] members).withCodes more := by
    induction more generalizing first with
    | nil => rw [List.append_nil]; rfl
    | cons b more ih =>
      rw [List.append_cons, ih, ofMembers_append]
      rfl
  exact hprefix [] bindings

/-! ### Codes and tags -/

/-- Changes of two kinds that do not touch each other. -/
theorem modifyFirst_comm {p q : Context → Bool} {g h : Context → Context}
    (hp : ∀ c, p (h c) = p c) (hq : ∀ c, q (g c) = q c) (hgh : ∀ c, g (h c) = h (g c))
    (f : DocForest) :
    (f.modifyFirst p g).modifyFirst q h = (f.modifyFirst q h).modifyFirst p g := by
  induction f with
  | nil => rfl
  | node site context inside rest _ ih =>
    cases context with
    | none => simp only [modifyFirst, ih]
    | some c =>
      by_cases hpc : p c <;> by_cases hqc : q c <;> simp [modifyFirst, hpc, hqc, hp, hq, hgh, ih]

/-- What a tag says about a context does not depend on its codes. -/
theorem describeInside_addCode (b : Binding) (c : Context) (name code : String) (f : DocForest) :
    b.describeInside c (f.modifyFirst (·.isException name) (.addCode code)) =
      (b.describeInside c f).modifyFirst (·.isException name) (.addCode code) := by
  have hform (doc : ParamDoc) (d : Context) :
      (doc.apply d).isException name = d.isException name := by
    unfold ParamDoc.apply Context.isException Context.codes?
    cases d.detail <;> rfl
  refine Binding.describeInside_comm (g := modifyFirst (·.isException name) (.addCode code)) rfl
    (fun doc f => ?_) f
  have hcomm := modifyFirst_comm (p := (·.isException name))
    (q := fun d => isTargetOf c d && d.name.sameBase doc.name) (g := .addCode code)
    (h := doc.apply) (hform doc) (by simp [isTargetOf]) (fun d => d.addCode_apply code doc) f
  rw [describe_eq, describe_eq, hcomm]

end DocForest

namespace Binding

variable (scope : BindingScope) (code : String)

/-- The binding with one more code of its context. -/
def addCode (b : Binding) : Binding :=
  { b with owner := b.owner.addCode code }

theorem orphan_addCode (b : Binding) (t : Tag) (message : String) :
    (b.addCode code).orphan scope t message = (b.orphan scope t message).addCode code := by
  unfold orphan
  split <;> rfl

/-- Whether a code is added before a tag is bound or afterwards makes no difference. -/
theorem addTag_addCode (targets : Option ParamTargets) {b : Binding}
    (hb : b.owner.codes?.isSome) (t : Tag) :
    (b.addCode code).addTag scope targets t = (b.addTag scope targets t).addCode code := by
  obtain ⟨codes, hdetail⟩ : ∃ codes, b.owner.detail = .exceptionDef codes := by
    unfold Context.codes? at hb
    split at hb
    · exact ⟨_, ‹_›⟩
    · cases hb
  obtain ⟨⟨kind, _, _, _, _, _, _, _, _, _⟩, _, named, returned, _, _⟩ := b
  cases hdetail
  unfold addTag
  cases t.body with
  | description =>
    dsimp only
    unfold addDescription
    split <;> rfl
  | param name type default isOptional =>
    cases targets with
    | none => rfl
    | some targets =>
      cases name with
      | none => exact orphan_addCode ..
      | some name =>
        dsimp only
        unfold addParam
        show (if named.contains name.display then _ else _) =
          addCode code (if named.contains name.display then _ else _)
        split
        · rfl
        · show (if targets.names.any (·.sameBase name) then _ else _) =
            addCode code (if targets.names.any (·.sameBase name) then _ else _)
          split
          · rfl
          · unfold orphan
            split <;> rfl
  | returns type =>
    dsimp only
    unfold addReturn
    show (if !kind.isMethod then _ else _) = addCode code (if !kind.isMethod then _ else _)
    split
    · rfl
    · show (if returned then _ else _) = addCode code (if returned then _ else _)
      split
      · rfl
      · unfold orphan
        split <;> rfl
  | throws name =>
    cases name with
    | none => exact orphan_addCode ..
    | some name => rfl
  | link | visibility | generic => rfl

theorem bindTags_addCode {c : Context} (hc : c.codes?.isSome) (inside : List Context)
    (tags : List Tag) :
    bindTags scope (c.addCode code) inside tags = (bindTags scope c inside tags).addCode code := by
  have htargets : (c.addCode code).paramTargets? inside = c.paramTargets? inside := by
    rcases c.addCode_eq code with h | ⟨codes, codes', hdetail, h⟩
    · rw [h]
    · rw [h, Context.paramTargets?, Context.paramTargets?, hdetail]
  have hfold (b : Binding) (hb : b.owner.codes?.isSome) :
      tags.foldl (addTag scope (c.paramTargets? inside)) (b.addCode code) =
        (tags.foldl (addTag scope (c.paramTargets? inside)) b).addCode code := by
    induction tags generalizing b with
    | nil => rfl
    | cons t tags ih =>
      have hform : SameForm b.owner (b.addTag scope (c.paramTargets? inside) t).owner :=
        sameForm_addTag ..
      rw [List.foldl_cons, List.foldl_cons, addTag_addCode scope code _ hb, ih _ (hform.codes ▸ hb)]
  have hbound := hfold { owner := c } hc
  unfold bindTags
  rw [htargets]
  refine (congrArg finish hbound).trans ?_
  generalize tags.foldl (addTag scope (c.paramTargets? inside)) { owner := c } = b
  unfold finish addCode
  dsimp only
  split
  · rfl
  · obtain ⟨⟨_, _, _, _, _, _, _, _, _, detail⟩, _⟩ := b
    cases detail <;> rfl

end Binding

namespace DocForest

/-- A code is added to a site before the tags are bound or afterwards. -/
theorem bind_addCode (scope : BindingScope) (name code : String) (f : DocForest) :
    (f.modifyFirst (·.isException name) (.addCode code)).bind scope =
      ((f.bind scope).1.modifyFirst (·.isException name) (.addCode code), (f.bind scope).2) := by
  induction f with
  | nil => rfl
  | node site context inside rest _ ih =>
    cases context with
    | none => rw [modifyFirst, bind, bind, ih]; rfl
    | some c =>
      have hform := sameForm_bindTags scope c (inside.bind scope).1.topContexts site.tags
      unfold modifyFirst
      split
      · rename_i hc
        have hcodes : c.codes?.isSome := (Bool.and_eq_true_iff.1 hc).1
        have hdescribe (b : Binding) (f : DocForest) :
            (b.addCode code).describeInside (c.addCode code) f = b.describeInside c f := by
          unfold Binding.describeInside isTargetOf
          rw [Context.kind_addCode]
          rfl
        rw [bind_some, bind_some, Binding.bindTags_addCode scope code hcodes]
        dsimp only
        rw [hdescribe, if_pos (by rwa [hform.isException])]
        rfl
      · rename_i hc
        rw [bind_some, bind_some, ih]
        dsimp only
        rw [if_neg (by rwa [hform.isException])]

/-- What the tags of a unit are about does not depend on codes. -/
theorem paramTargets?_addCode (c : Context) (name code : String) (f : DocForest) :
    c.paramTargets? (f.modifyFirst (·.isException name) (.addCode code)).topContexts =
      c.paramTargets? f.topContexts := by
  have hkeys {β : Type} (key : Context → Option β) (hkey : ∀ c, key (c.addCode code) = key c) :
      (f.modifyFirst (·.isException name) (.addCode code)).topContexts.filterMap key =
        f.topContexts.filterMap key := by
    rw [← map_snd_tops _ 0, ← map_snd_tops f 0, List.filterMap_map, List.filterMap_map]
    exact filterMap_tops_modifyFirst (fun _ c => hkey c) f 0
  have hnames := hkeys (fun c => some c.name) (by simp)
  rw [List.filterMap_eq_map'] at hnames
  have hattributes :=
    hkeys (fun c => if c.kind = .attributeDecl then some c.name else none) (by simp)
  have hfilter (contexts : List Context) :
      (contexts.filter (·.kind = .attributeDecl)).map (·.name) =
        contexts.filterMap fun c => if c.kind = .attributeDecl then some c.name else none := by
    rw [← List.filterMap_eq_map, List.filterMap_filter]
    simp
  unfold Context.paramTargets?
  rw [hfilter, hfilter, hnames, hattributes]

/-- The pragmas of a unit add their codes to the contexts inside it before its tags are bound or
afterwards. -/
theorem bind_withCodes (scope : BindingScope) (site : Site) (c : Context)
    (bindings : List (Name × String)) (f : DocForest) :
    (node site (some c) (f.withCodes bindings) nil).bind scope =
      let bound := bindTags scope c (f.bind scope).1.topContexts site.tags
      (node site (some bound.owner)
        ((bound.describeInside c (f.bind scope).1).withCodes bindings) nil,
        ((node site (some c) f nil).bind scope).2) := by
  induction bindings generalizing f with
  | nil => rfl
  | cons b bindings ih =>
    have htags (f : DocForest) : bindTags scope c
        (f.modifyFirst (·.isException b.1.last) (.addCode b.2)).topContexts site.tags =
        bindTags scope c f.topContexts site.tags := by
      unfold bindTags
      rw [paramTargets?_addCode]
    rw [withCodes, List.foldl_cons, ← withCodes, ih, bind_addCode, bind_some, bind_some,
      bind_addCode]
    dsimp only
    rw [htags, describeInside_addCode]
    rfl

theorem topIds_withCodes (bindings : List (Name × String)) (f : DocForest) (next : Nat) :
    (f.withCodes bindings).topIds next = f.topIds next :=
  withCodes_congr (g := (·.topIds next)) (fun _ _ _ => topIds_modifyFirst ..) bindings f

/-- Codes leave what is to be done at the end of the unit as it is. -/
theorem pending_withCodes (bindings : List (Name × String)) (f : DocForest) (next : Nat) :
    (f.withCodes bindings).pending next = f.pending next := by
  have hmodify (p : Context → Bool) (g : Context → Context) (f : DocForest) (next : Nat) :
      (f.modifyFirst p g).pending next = f.pending next := by
    induction f generalizing next with
    | nil => rfl
    | node site context inside rest _ ih =>
      cases context with
      | none => simp [modifyFirst, pending, ih]
      | some c =>
        unfold modifyFirst
        split <;> simp [pending, ih]
  exact withCodes_congr (g := (·.pending next)) (fun q code f => hmodify q _ f next) bindings f

end DocForest
end SqlDoc

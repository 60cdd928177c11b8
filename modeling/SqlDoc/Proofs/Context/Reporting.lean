/-
# What is reported about a file

Binding a tag reports that there is nothing to bind it to, or that it repeats another, and nothing
else (`Binding.have_bindTags`). So what is reported about a file is that, or what is reported about
its sites: constructs that are not understood and comments that cannot be split into tokens. But a
comment is split into tokens to its end, whatever is in it (`lexDoc_total`).

Key definitions: `Code.isAboutTag`, `Reports.Have`.
Key theorems: `Binding.have_bindTags`, `DocForest.have_bind`, `have_resolveFrom`, `lexDoc_total`.
-/
import SqlDoc.Proofs.Context.Recording
import SqlDoc.Proofs.Doc.Stack

namespace SqlDoc

/-- The report is about a tag with nothing to bind to, or about one that repeats another. -/
def Code.isAboutTag : Code → Bool
  | orphanTag | duplicateTag => true
  | _ => false

/-- The codes of all reports satisfy `P`. -/
def Reports.Have (P : Code → Prop) (r : Reports) : Prop :=
  (∀ d ∈ r.now, P d.code) ∧ ∀ d ∈ r.late, P d.code

namespace Reports.Have

variable {P Q : Code → Prop} {r s : Reports}

theorem append (hr : r.Have P) (hs : s.Have P) : (r ++ s).Have P :=
  ⟨List.forall_mem_append.2 ⟨hr.1, hs.1⟩, List.forall_mem_append.2 ⟨hr.2, hs.2⟩⟩

theorem ofNow {now : List Diagnostic} (h : ∀ d ∈ now, P d.code) : ({ now } : Reports).Have P :=
  ⟨h, fun _ hd => absurd hd List.not_mem_nil⟩

theorem ofLate {late : List Diagnostic} (h : ∀ d ∈ late, P d.code) : ({ late } : Reports).Have P :=
  ⟨fun _ hd => absurd hd List.not_mem_nil, h⟩

theorem nil : ({} : Reports).Have P :=
  .ofNow fun _ hd => absurd hd List.not_mem_nil

theorem mono (hr : r.Have P) (h : ∀ c, P c → Q c) : r.Have Q :=
  ⟨fun d hd => h _ (hr.1 d hd), fun d hd => h _ (hr.2 d hd)⟩

end Reports.Have

/-! ### Tags -/

namespace Binding

/-- What is reported so far is about tags. -/
def ReportsTags (b : Binding) : Prop :=
  b.reports.Have fun c => c.isAboutTag

namespace ReportsTags

variable {b : Binding}

theorem warn (hb : b.ReportsTags) {code : Code} (hcode : code.isAboutTag) (message : String)
    (t : Tag) : (b.warn code message t).ReportsTags := by
  refine Reports.Have.append hb (.ofNow fun d hd => ?_)
  rw [List.mem_singleton.1 hd]
  exact hcode

theorem orphan (hb : b.ReportsTags) (scope : BindingScope) (t : Tag) (message : String) :
    (b.orphan scope t message).ReportsTags := by
  unfold Binding.orphan
  split
  · exact hb.warn rfl message t
  · exact hb

theorem duplicate (hb : b.ReportsTags) (t : Tag) (what : String) :
    (b.duplicate t what).ReportsTags :=
  hb.warn rfl _ t

theorem addParam (hb : b.ReportsTags) (scope : BindingScope) (targets : ParamTargets) (t : Tag)
    (name : Name) (doc : ParamDoc) : (b.addParam scope targets t name doc).ReportsTags := by
  let named : Binding := { b with named := name.display :: b.named }
  have hnamed : named.ReportsTags := hb
  unfold Binding.addParam
  split
  · exact hb.duplicate t _
  · dsimp only
    split
    · exact hb
    · exact hnamed.orphan scope t _

theorem addReturn (hb : b.ReportsTags) (scope : BindingScope) (t : Tag) (type : Option String) :
    (b.addReturn scope t type).ReportsTags := by
  let returned : Binding := { b with returned := true }
  have hreturned : returned.ReportsTags := hb
  unfold Binding.addReturn
  split
  · exact hb
  · split
    · exact hb.duplicate t _
    · dsimp only
      split
      · exact hb
      · exact hreturned.orphan scope t _

theorem addThrows (hb : b.ReportsTags) (scope : BindingScope) (t : Tag) (name : Name) :
    (b.addThrows scope t name).ReportsTags := by
  refine Reports.Have.append hb (.ofLate fun d hd => ?_)
  split at hd
  · rw [List.mem_singleton.1 hd]
    rfl
  · cases hd

theorem addTag (hb : b.ReportsTags) (scope : BindingScope) (targets : Option ParamTargets)
    (t : Tag) : (b.addTag scope targets t).ReportsTags := by
  unfold Binding.addTag
  cases t.body with
  | description =>
    dsimp only
    unfold addDescription
    split <;> exact hb
  | param name =>
    cases targets with
    | none => exact hb
    | some targets =>
      cases name with
      | none => exact hb.orphan scope t _
      | some name => exact hb.addParam scope targets t name _
  | returns => exact hb.addReturn scope t _
  | throws name =>
    cases name with
    | none => exact hb.orphan scope t _
    | some name => exact hb.addThrows scope t name
  | link | visibility | generic => exact hb

end ReportsTags

/-- What is reported while tags are bound is about tags. -/
theorem have_bindTags (scope : BindingScope) (c : Context) (inside : List Context)
    (tags : List Tag) : (bindTags scope c inside tags).reports.Have fun c => c.isAboutTag := by
  have hfold (b : Binding) (hb : b.ReportsTags) :
      (tags.foldl (Binding.addTag scope (c.paramTargets? inside)) b).ReportsTags := by
    induction tags generalizing b with
    | nil => exact hb
    | cons t tags ih => exact ih _ (hb.addTag scope _ t)
  have hbound := hfold { owner := c } .nil
  unfold bindTags finish
  split <;> exact hbound

end Binding

/-! ### Statements -/

section

variable {P : Code → Prop} (htag : ∀ c : Code, c.isAboutTag → P c)

include htag

/-- What is reported about sites and what is inside them is reported about the sites or about
tags. -/
theorem DocForest.have_bind {f : DocForest}
    (hsites : ∀ site ∈ f.sites, ∀ d ∈ site.reports, P d.code) (scope : BindingScope) :
    (f.bind scope).2.Have P := by
  induction f with
  | nil => exact .nil
  | node site context inside rest ihinside ihrest =>
    obtain ⟨hsite, hothers⟩ := List.forall_mem_cons.1 hsites
    have hinside := ihinside fun s hs => hothers s (List.mem_append_left _ hs)
    have hrest := ihrest fun s hs => hothers s (List.mem_append_right _ hs)
    have hsite : ({ now := site.reports } : Reports).Have P := .ofNow hsite
    cases context with
    | none => exact (hsite.append hinside).append hrest
    | some c =>
      rw [bind_some]
      have hbound := (Binding.have_bindTags scope c (inside.bind scope).1.topContexts
        site.tags).mono htag
      exact ((hsite.append hinside).append hbound).append hrest

theorem have_resolveStatement {t : SyntaxTree} (ht : t.Fits)
    (hsites : ∀ site ∈ t.sites NodeKind.isRecorded, ∀ d ∈ site.reports, P d.code)
    (warnOrphans : Bool) (next : Nat) : (resolveStatement warnOrphans next t).2.Have P := by
  rw [← DocForest.sites_ofStatement ht] at hsites
  have hbind := DocForest.have_bind htag hsites (statementScope warnOrphans next t)
  rw [snd_resolveStatement]
  dsimp only
  split
  · exact .ofNow (List.forall_mem_append.2 hbind)
  · exact hbind

theorem have_resolveFrom {trees : List SyntaxTree} (htrees : ∀ t ∈ trees, t.Fits)
    (hsites : ∀ t ∈ trees, ∀ site ∈ t.sites NodeKind.isRecorded, ∀ d ∈ site.reports, P d.code)
    (warnOrphans : Bool) (statement next : Nat) :
    (resolveFrom warnOrphans statement next trees).2.Have P := by
  induction trees generalizing statement next with
  | nil => exact .nil
  | cons t more ih =>
    obtain ⟨ht, hmore⟩ := List.forall_mem_cons.1 htrees
    obtain ⟨hsite, hothers⟩ := List.forall_mem_cons.1 hsites
    exact (have_resolveStatement htag ht hsite warnOrphans next).append (ih hmore hothers _ _)

end

/-! ### Comments -/

/-- No comment is reported as one that cannot be split into tokens. -/
theorem Site.code_ne_malformedComment {node : Nat} {t : SyntaxTree} {d : Diagnostic}
    (hd : d ∈ (Site.ofTree node t).reports) : d.code ≠ .malformedComment := by
  rcases List.mem_append.1 hd with hd | hd
  · obtain ⟨c, hc, hd⟩ := List.mem_flatMap.1 hd
    obtain ⟨token, -, rfl⟩ := List.mem_map.1 hc
    have herror : (parseComment token.text token.span.start).error = none := lexDoc_error ..
    rw [herror] at hd
    cases hd
  · split at hd
    · rw [List.mem_singleton.1 hd]
      exact Code.noConfusion
    · cases hd

/-- Every text can be read as a comment: its tokens are not empty, they are all of the text, and no
error comes after them. The lexer changes its state at most once between two of them without
reading. So reading tags gives no error either, and no comment of a script is reported as one that
cannot be split into tokens. -/
theorem lexDoc_total :
    (∀ (text : String) (start : Position),
      let lexed := lexDoc text start
      lexed.2 = none ∧ (∀ t ∈ lexed.1, t.text ≠ "") ∧ tokensText lexed.1 = text ∧
        (∀ (read : List DocToken) (lx : Lexer docGrammar) (found : Char) (rest : List Char),
          (Lexer.start docGrammar text.toList start).Reads read lx → lx.rest = found :: rest →
            ∃ t next, lx.step = .token t next ∧ Lexer.stepAt found 1 lx = .token t next) ∧
        (parseComment text start).error = none) ∧
      ∀ (source : String) (filename : Option String) (warnOrphans : Bool),
        ∀ d ∈ (resolveAll (parseSql source filename).trees warnOrphans).2,
          d.code ≠ .malformedComment := by
  refine ⟨fun text start => ⟨lexDoc_error text start, fun t ht => ?_, lexDoc_text text start, ?_,
    lexDoc_error text start⟩, fun source filename warnOrphans d hd => ?_⟩
  · obtain ⟨before, after, hsplit⟩ := List.append_of_mem ht
    obtain ⟨cut, -, hcut, -⟩ := Lexer.Reads.of_run hsplit
    obtain ⟨next, hstep, -, -⟩ := Lexer.step_of_run_cons hcut
    intro hnil
    refine Lexer.text_ne_nil_of_step hstep ?_
    rw [hnil]
    rfl
  · intro read lx found rest hreads hrest
    obtain ⟨_, hstands, -⟩ := (Doc.stands_start text.toList start).of_reads hreads
    obtain ⟨next, hstep, hone, -⟩ := hstands.step hrest
    exact ⟨_, next, hstep, hone⟩
  · have hfits := parseSql_fits source filename
    have hout := congrArg Prod.snd (resolveAll_eq hfits warnOrphans)
    rw [hout] at hd
    have hreports := have_resolveFrom (P := (· ≠ .malformedComment))
      (fun c hc heq => by rw [heq] at hc; cases hc) hfits
      (fun t _ site hsite d hd => by
        obtain ⟨_, _, rfl⟩ := List.mem_map.1 hsite
        exact Site.code_ne_malformedComment hd) warnOrphans 0 0
    exact (List.mem_append.1 hd).elim (hreports.1 d) (hreports.2 d)

end SqlDoc

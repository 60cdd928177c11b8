/-
# A file with one description more

If the comment in front of a method of a package says what one of the parameters is for, the row of
that parameter gets the description. No other row of the statement changes, the contexts keep their
numbers, and nothing is reported (`SaysOf.resolveStatement`). So the same holds of a file with that
statement (`SaysOf.resolveFrom`).

Key definitions: `SyntaxTree.numberedParameters`, `SaysOf`.
Key theorems: `SaysOf.exists_describes`, `SaysOf.resolveStatement`, `SaysOf.resolveFrom`.
-/
import SqlDoc.Proofs.Context.Telling
import SqlDoc.Proofs.Context.Throwing

namespace SqlDoc

/-! ### Parameters -/

/-- The parameters of the method with number `id`, with their numbers. -/
def SyntaxTree.numberedParameters (t : SyntaxTree) (id : Nat) : List (Nat × SyntaxTree) :=
  ((t.numberedChildren id).find? (·.2.kind = .parameterList)).elim [] fun list =>
    (list.2.numberedChildren list.1).filter (·.2.kind.isNameable)

/-- What is named in the list is a parameter. -/
theorem SyntaxTree.kind_of_mem_parameters {t : SyntaxTree} (ht : t.below.Fits t.kind) {id : Nat}
    {q : Nat × SyntaxTree} (hq : q ∈ t.numberedParameters id) :
    ∃ mode, q.2.kind = .parameter mode := by
  unfold numberedParameters at hq
  cases hfind : (t.numberedChildren id).find? (·.2.kind = .parameterList) with
  | none =>
    rw [hfind] at hq
    cases hq
  | some list =>
    rw [hfind] at hq
    obtain ⟨hmem, hnameable⟩ := List.mem_filter.1 hq
    have hlist : list.2 ∈ t.below.trees := mem_trees_of_numbered (List.mem_of_find?_eq_some hfind)
    have hkind : list.2.kind = .parameterList := by simpa using List.find?_some hfind
    obtain ⟨hmay, -⟩ := (ht.of_mem hlist).2.1.of_mem (mem_trees_of_numbered hmem)
    rw [hkind] at hmay
    rcases hmay with hpiece | hmay
    · rw [NodeKind.isPiece, hnameable] at hpiece
      cases hpiece
    · generalize q.2.kind = kind at hmay
      cases kind with
      | parameter mode => exact ⟨mode, rfl⟩
      | _ => cases hmay

namespace DocForest

theorem ofLeaves_filter (owner : String) (leaves : List (Nat × SyntaxTree)) :
    ofLeaves owner (leaves.filter (·.2.kind.isNameable)) = ofLeaves owner leaves := by
  induction leaves with
  | nil => rfl
  | cons leaf more ih =>
    obtain ⟨i, t⟩ := leaf
    rw [List.filter_cons]
    dsimp only
    split
    · rename_i ht
      rw [ofLeaves, ofLeaves, if_pos ht, if_pos ht, ih]
    · rename_i ht
      rw [ofLeaves, if_neg ht, ih]

theorem ofParameters_eq (owner : String) (id : Nat) (t : SyntaxTree) :
    ofParameters owner id t = ofLeaves owner (t.numberedParameters id) := by
  unfold ofParameters SyntaxTree.numberedParameters
  cases (t.numberedChildren id).find? (·.2.kind = .parameterList) with
  | none => rfl
  | some list => exact (ofLeaves_filter owner _).symm

end DocForest

/-! ### The statement -/

variable {first doc : SqlToken} {i : Nat} {kind : MethodKind} {m t p : SyntaxTree} {n j : Nat}
  {name : Name} {text : String}

/-- A comment in front of a method says what the parameter `p` is for, which no other parameter has
the name of. Nothing else is said in front of the method. -/
structure SaysOf (first doc : SqlToken) (i : Nat) (kind : MethodKind) (m : SyntaxTree) (n : Nat)
    (t p : SyntaxTree) (j : Nat) (name : Name) (text : String) : Prop
    extends FrontedIn first doc i kind m n t where
  fits : t.Fits
  bare : m.docComments = []
  isParameter : (j, p) ∈ m.numberedParameters n
  named : p.nameOrEmpty.sameBase name
  onlyNamed : ∀ q ∈ m.numberedParameters n, q.2.nameOrEmpty.sameBase name → q = (j, p)
  tag : ∃ tag, (parseComment doc.text doc.span.start).tags = [tag] ∧
    tag.body = .param (some name) none none false ∧ tag.text = text
  notEmpty : text ≠ ""

namespace SaysOf

variable (h : SaysOf first doc i kind m n t p j name text)

include h

/-- The tag is about the context of the parameter. -/
theorem exists_describes (scope : BindingScope) (owner : String) (id : Nat) : ∃ target,
    DocForest.Describes scope (.ofTree n m) (.ofTree n (m.regroup (.insertBefore first i doc)))
        (methodContext kind owner m) (.ofParameters owner n m) id name text target ∧
      ∀ statement, { statement, site := .ofTree j p, context := some target } ∈
        (DocForest.ofParameters owner n m).records statement (id + 1) := by
  have hbare : (Site.ofTree n m).tags = [] := by
    rw [Site.ofTree_eq, h.bare]
    rfl
  have hfits : m.below.Fits m.kind :=
    (h.fits.below.of_mem (SyntaxTree.mem_trees_of_numbered h.isMember)).2.1
  obtain ⟨mode, hmode⟩ : ∃ mode, p.kind = .parameter mode :=
    SyntaxTree.kind_of_mem_parameters hfits h.isParameter
  have hnameable : p.kind.isNameable := by
    rw [hmode]
    rfl
  have hcontext : (leafContext? owner p).isSome := by
    rw [leafContext?, hmode]
    rfl
  have hfound (statement : Nat) := DocForest.find?_tops_ofLeaves h.isParameter hnameable hcontext
    h.named (fun q hq _ => h.onlyNamed q hq) statement (id + 1)
  rw [← DocForest.ofParameters_eq] at hfound
  obtain ⟨target, c, hfind, -⟩ := hfound 0
  obtain ⟨tag, htags, hbody, htext⟩ := h.tag
  have hother : ContextKind.ofMethod kind ≠ .objectType := by cases kind <;> decide
  refine ⟨target, ⟨⟨_, _, _, rfl⟩, hother, hbare, ?_, h.notEmpty, ?_, ?_⟩,
    fun statement => ?_⟩
  · exact ⟨tag, by rw [h.site_eq n hbare, htags], hbody, htext⟩
  · exact DocForest.isFresh_ofParameters hfits owner n scope
  · exact DocForest.find?_tops_bind hfind scope
  · obtain ⟨other, d, hother, hrecord⟩ := hfound statement
    rw [hfind] at hother
    obtain ⟨rfl, -⟩ := Prod.mk.inj (Option.some.inj hother)
    exact hrecord

/-- The row of the parameter gets the description, and nothing else changes. -/
theorem resolveStatement (warnOrphans : Bool) (next : Nat) :
    let told := t.regroup (.insertBefore first i doc)
    let out := resolveStatement warnOrphans next t
    let out' := resolveStatement warnOrphans next told
    out'.1.contextCount = out.1.contextCount ∧ out'.2 = out.2 ∧
      (∀ statement, (out'.1.records statement next).map CommentRecord.entry =
        (out.1.records statement next).map CommentRecord.entry) ∧
      ∃ target, (∀ statement, { statement, site := .ofTree j p, context := some target } ∈
          (DocForest.ofStatement t).records statement next) ∧
        ∀ before after, before.length = next →
          (before ++ out.1.rows none next ++ after).modify target
              (·.modifyContext (.withDescription text)) =
            before ++ out'.1.rows none next ++ after := by
  intro told out out'
  obtain ⟨owner, id, hdiffer, hf, hg⟩ := differ_ofStatement h.toFrontedIn (next + 1)
  let scope := statementScope warnOrphans next t
  have hscope : statementScope warnOrphans next told = scope := by
    unfold scope statementScope
    rw [hf, hg]
    exact congrArg (BindingScope.mk · warnOrphans) (hdiffer.exceptions_eq _)
  obtain ⟨target, hdescribes, hrecord⟩ := h.exists_describes scope owner id
  have hunit := paramTargets?_package t
  have hfst : out.1 = _ := fst_resolveStatement ..
  have hfst' : out'.1 = _ := fst_resolveStatement ..
  rw [hf] at hfst
  rw [hg, hscope] at hfst'
  refine ⟨?_, ?_, fun statement => ?_, target, fun statement => ?_, fun before after hbefore => ?_⟩
  · rw [hfst, hfst', DocForest.contextCount_bind, DocForest.contextCount_bind,
      DocForest.contextCount, hdiffer.contextCount_eq]
    rfl
  · show (SqlDoc.resolveStatement warnOrphans next told).2 =
      (SqlDoc.resolveStatement warnOrphans next t).2
    rw [snd_resolveStatement, snd_resolveStatement, hg, hscope, hf,
      hdescribes.bind_reports_unit hunit hdiffer]
    rfl
  · obtain ⟨tag, hother, -, -⟩ := hdescribes.tag
    rw [hfst, hfst', DocForest.records_bind, DocForest.records_bind]
    exact hdiffer.entries_unit (by rw [hother]) statement
  · rw [hf]
    exact List.mem_cons_of_mem _ (List.mem_append_left _ (hdiffer.mem_records (hrecord statement)))
  · rw [hfst, hfst']
    exact hdescribes.modify_rows_unit hunit hdiffer hbefore after

/-! ### The file -/

/-- The row of the parameter gets the description among the rows of the file. -/
theorem resolveFrom (warnOrphans : Bool) (earlier later : List SyntaxTree) (statement next : Nat) :
    let trees := earlier ++ t :: later
    let trees' := earlier ++ t.regroup (.insertBefore first i doc) :: later
    let out := resolveFrom warnOrphans statement next trees
    let out' := resolveFrom warnOrphans statement next trees'
    out'.1.units = out.1.units ∧ out'.2 = out.2 ∧
      out'.1.comments.map CommentRecord.entry = out.1.comments.map CommentRecord.entry ∧
      ∃ target, (∀ statement, { statement, site := .ofTree j p, context := some target } ∈
          (DocForest.ofStatement t).records statement (firstContext next trees earlier.length)) ∧
        ∀ before, before.length = next →
          (before ++ statementRows id warnOrphans next trees).modify target
              (·.modifyContext (.withDescription text)) =
            before ++ statementRows id warnOrphans next trees' := by
  induction earlier generalizing statement next with
  | nil =>
    intro trees trees' out out'
    obtain ⟨hcount, hreports, hentries, target, hrecord, hrows⟩ :=
      h.resolveStatement warnOrphans next
    refine ⟨?_, ?_, ?_, target, hrecord, fun before hbefore => ?_⟩
    · unfold out out' trees trees'
      simp only [List.nil_append, SqlDoc.resolveFrom, hcount]
    · unfold out out' trees trees'
      simp only [List.nil_append, SqlDoc.resolveFrom, hcount, hreports]
    · unfold out out' trees trees'
      simp only [List.nil_append, SqlDoc.resolveFrom, List.map_append, hentries, hcount]
    · unfold trees trees'
      rw [List.nil_append, List.nil_append, statementRows, statementRows, ite_self, ite_self,
        List.map_id, List.map_id, hcount, ← List.append_assoc, ← List.append_assoc]
      exact hrows before _ hbefore
  | cons s earlier ih =>
    intro trees trees' out out'
    let first := (SqlDoc.resolveStatement warnOrphans next s).1
    obtain ⟨hunits, hreports, hentries, target, hrecord, hrows⟩ :=
      ih (statement + 1) (next + first.contextCount)
    refine ⟨congrArg (_ ++ ·) hunits, congrArg (_ ++ ·) hreports, ?_, target, fun number => ?_,
      fun before hbefore => ?_⟩
    · have hmore := congrArg ((first.records statement next).map CommentRecord.entry ++ ·) hentries
      rwa [← List.map_append, ← List.map_append] at hmore
    · have hfirst : first.contextCount = (DocForest.ofStatement s).contextCount :=
        contextCount_resolveStatement ..
      rw [hfirst] at hrecord
      exact hrecord number
    · unfold trees trees'
      rw [List.cons_append, List.cons_append, statementRows, statementRows, ite_self, List.map_id,
        ← List.append_assoc, ← List.append_assoc]
      refine hrows (before ++ first.rows none next) ?_
      rw [List.length_append, DocForest.length_rows, hbefore]

end SaysOf

end SqlDoc
